/-
PinBridge/Proofs/Tool/Listing.lean

A listing says enough to be listed again.

Whatever a stream holds, its listing is made of whole messages: what the
receiver drops, refuses or leaves unfinished is in no entry.  The dumps in the
entries, with a space between them, are therefore one dump of whole messages
side by side, and such a stream is listed without complaint in pieces of any
size.

Main statements: `listStream_messages`, messages side by side are listed as
they are; and `listStream_again`, the dumps of a listing can be read, and what they
hold is listed as before, with nothing dropped and nothing left over.
-/
import PinBridge.Tool.Listing
import PinBridge.Proofs.Text.Hex
import PinBridge.Proofs.Wire.Image

namespace PinBridge

theorem Received.Genuine.wire_ne_nil {d : Direction} {received : Received d}
    (h : received.Genuine) : received.wire ≠ [] := by
  cases h
  exact List.cons_ne_nil _ _

namespace Tool

variable {d : Direction}

theorem record_accepts (d : Direction) : (record d).Accepts := fun _ _ => ⟨_, rfl⟩

/-! ### What is listed -/

/-- Messages side by side are listed as they are. -/
theorem listStream_messages {messages : List (Received d)}
    (hmessages : ∀ received ∈ messages, received.Genuine) (recovery : Recovery) {size : Nat}
    (hsize : 0 < size) :
    listStream d recovery size (messages.flatMap Received.wire)
      = ⟨messages.map (Entry.ofReceived d), 0, false, none⟩ := by
  have hchunks := Wire.flatten_chunksOf hsize (messages.flatMap Received.wire)
  obtain ⟨r, -, hdropped, hmidway, hfeed⟩ :=
    Receiver.feed_messages id (record_accepts d) hmessages hchunks recovery []
  have hafter : (record d).after messages [] = (messages.map (Entry.ofReceived d)).reverse ++ [] :=
    Handler.after_collect (Entry.ofReceived d) messages []
  simp only [listStream, hfeed, hafter, hdropped, hmidway, List.append_nil, List.reverse_reverse]

/-- What a stream is listed as are whole messages. -/
theorem records_listStream (d : Direction) (recovery : Recovery) (chunk : Nat) (stream : Bytes) :
    ∃ messages : List (Received d), (∀ received ∈ messages, received.Genuine) ∧
      (listStream d recovery chunk stream).records = messages.map (Entry.ofReceived d) := by
  have hcoherent : Receiver.Coherent d (.new recovery) := (Receiver.Reachable.new recovery).coherent
  -- the pieces do as much as the stream does at once, so that one feed is all there is to follow
  have hwhole : (Wire.chunksOf chunk stream).forM (Receiver.feed id (record d)) (.new recovery, [])
      = Receiver.feed id (record d) (Wire.chunksOf chunk stream).flatten (.new recovery, []) :=
    Receiver.forM_feed hcoherent rfl _ _
  have hkeeps : (record d).Keeps fun taken => ∃ messages : List (Received d),
      (∀ received ∈ messages, received.Genuine) ∧
        taken.reverse = messages.map (Entry.ofReceived d) := by
    rintro received taken hgenuine ⟨messages, hmessages, htaken⟩
    refine ⟨messages ++ [received], List.forall_mem_append.2 ⟨hmessages, ?_⟩, ?_⟩
    · exact List.forall_mem_singleton.2 hgenuine
    · rw [List.map_append, ← htaken]
      exact List.reverse_cons
  obtain ⟨messages, hmessages, htaken⟩ : ∃ messages : List (Received d),
      (∀ received ∈ messages, received.Genuine) ∧
        (stateOf ((Wire.chunksOf chunk stream).forM (Receiver.feed id (record d))
          (.new recovery, []))).2.reverse = messages.map (Entry.ofReceived d) := by
    rw [hwhole]
    exact hcoherent.keeps_feed hkeeps _ ⟨[], List.forall_mem_nil _, List.reverse_nil⟩
  refine ⟨messages, hmessages, ?_⟩
  rw [← htaken]
  dsimp only [listStream]
  split
  next heq =>
    rw [heq]
    rfl
  next heq =>
    rw [heq]
    rfl

/-! ### Listing again -/

/-- **The dumps of a listing can be read, and what they hold is listed as before**: the same
messages, with nothing dropped, nothing left over and no error, whichever way the receiver recovers
and in pieces of any size. -/
theorem listStream_again (d : Direction) (recovery : Recovery) (chunk : Nat) (stream : Bytes) :
    let listing := listStream d recovery chunk stream
    ∃ bytes, Text.readHex (" ".intercalate (listing.records.map Entry.wire)) = .ok bytes ∧
      ∀ (recovery' : Recovery) (size : Nat), 0 < size →
        listStream d recovery' size bytes = ⟨listing.records, 0, false, none⟩ := by
  intro listing
  obtain ⟨messages, hmessages, hrecords⟩ := records_listStream d recovery chunk stream
  have hwires : listing.records.map Entry.wire
      = (messages.map Received.wire).map Text.hexSpaced := by
    rw [hrecords, List.map_map, List.map_map]
    rfl
  have hne : ∀ wire ∈ messages.map Received.wire, wire ≠ [] := by
    intro wire hmem
    obtain ⟨received, hreceived, rfl⟩ := List.mem_map.1 hmem
    exact (hmessages received hreceived).wire_ne_nil
  refine ⟨messages.flatMap Received.wire, ?_, fun recovery' size hsize => ?_⟩
  · rw [hwires, Text.intercalate_hexSpaced hne, ← List.flatMap_def, Text.readHex_hexSpaced]
  · rw [listStream_messages hmessages recovery' hsize, ← hrecords]

/-- The theorem for a stream with two bytes that are no tags and an unfinished message, listed again
in pieces of one byte. -/
theorem listStream_again_of_strays :
    let listing := listStream .incoming .resync 3 [0xFF, 0x02, 0x0E, 0xFE, 0x05, 0x04, 0x01, 0x0C]
    listing.dropped = 2 ∧ listing.trailing = true ∧
      " ".intercalate (listing.records.map Entry.wire) = "02 0e 05 04 01" ∧ 0 < 1 ∧
      ∃ bytes, Text.readHex (" ".intercalate (listing.records.map Entry.wire)) = .ok bytes ∧
        listStream .incoming .abort 1 bytes = ⟨listing.records, 0, false, none⟩ := by
  intro listing
  obtain ⟨bytes, hread, hagain⟩ := listStream_again .incoming .resync 3
    [0xFF, 0x02, 0x0E, 0xFE, 0x05, 0x04, 0x01, 0x0C]
  exact ⟨by decide +kernel, by decide +kernel, by decide +kernel, Nat.zero_lt_one, bytes, hread,
    hagain .abort 1 Nat.zero_lt_one⟩

end Tool
end PinBridge
