/-
PinBridge/Proofs/Wire/Image.lean

The images of whole messages, and streams that are made up of them.

An image is a tag, a fixed block as long as its kind says, and a trailer as
long as the block announces.  Nothing is asked of the bits, so that what was
received counts as well as what was encoded.

Main statements: `isImage_of_encode`, every message that can be encoded is
encoded as an image; `IsImage.other_way`, an image of a two-way kind is one in
both directions; and `feed_messages` and `feed_images`, a stream of whole messages is
read to its end, and nothing of it is dropped or left over.
-/
import PinBridge.Proofs.Receiver.Arrivals

namespace PinBridge

/-! ### What a layout announces -/

/-- A count of up to 255 is what the byte says that announces it. -/
theorem Wire.toNat_ofNat_of_le {n : Nat} (h : n ≤ 255) : (UInt8.ofNat n).toNat = n :=
  UInt8.toNat_ofNat_of_lt' (Nat.lt_of_le_of_lt h (by decide))

/-- A message that is not refused has a number of entries that can be announced. -/
theorem Layout.count_bounds {l : Layout} {span : Span} (hspan : l.span = some span)
    (h : l.trailerError? = none) : span.min ≤ span.count ∧ span.count ≤ span.max := by
  rw [trailerError?, hspan, Option.bind_some] at h
  split at h
  · assumption
  · cases h

namespace TwoWay

/-- A trailer that can be announced is as long as the block announces. -/
theorem length_trailer {m : TwoWay} (h : m.layout.trailerError? = none) :
    m.layout.trailer.length = trailerLength m.kind m.block := by
  cases m with
  | uartData uart data =>
    have hcount : 1 ≤ data.length ∧ data.length ≤ 256 := Layout.count_bounds rfl h
    show data.length = (UInt8.ofNat (data.length - 1)).toNat + 1
    rw [Wire.toNat_ofNat_of_le (by omega)]
    omega
  | _ => rfl

end TwoWay

namespace Command

theorem length_block (c : Command) : c.layout.block.length = c.kind.blockLength .incoming := by
  cases c with
  | twoWay m => exact m.length_block
  | _ => rfl

theorem length_trailer {c : Command} (h : c.layout.trailerError? = none) :
    c.layout.trailer.length = trailerLength c.kind c.layout.block := by
  cases c with
  | twoWay m => exact m.length_trailer h
  | _ => rfl

end Command

namespace Report

theorem length_block (r : Report) : r.layout.block.length = r.kind.blockLength .outgoing := by
  cases r with
  | twoWay m => exact m.length_block
  | _ => rfl

theorem length_trailer {r : Report} (h : r.layout.trailerError? = none) :
    r.layout.trailer.length = trailerLength r.kind r.layout.block := by
  cases r with
  | twoWay m => exact m.length_trailer h
  | analogInFormat pins =>
    have hcount : 0 ≤ pins.length ∧ pins.length ≤ 255 := Layout.count_bounds rfl h
    show pins.length = (UInt8.ofNat pins.length).toNat
    rw [Wire.toNat_ofNat_of_le hcount.2]
  | analogInStatus samples =>
    have hcount : 0 ≤ samples.length ∧ samples.length ≤ 255 := Layout.count_bounds rfl h
    have htrailer : ∀ samples : List UInt16,
        (samples.flatMap fun s => Wire.littleEndian 2 s.toNat).length = samples.length * 2 := by
      intro samples
      induction samples with
      | nil => rfl
      | cons s samples ih =>
        rw [List.flatMap_cons, List.length_append, ih, Wire.length_littleEndian, List.length_cons]
        omega
    show (samples.flatMap fun s => Wire.littleEndian 2 s.toNat).length
      = (UInt8.ofNat samples.length).toNat * 2
    rw [Wire.toNat_ofNat_of_le hcount.2, htrailer]
  | _ => rfl

end Report

namespace Direction

variable {d : Direction} {m : d.Message}

/-- The fixed block is as long as the table says. -/
theorem length_block (d : Direction) (m : d.Message) :
    (d.layout m).block.length = (d.kindOf m).blockLength d := by
  cases d
  · exact Command.length_block m
  · exact Report.length_block m

/-- The trailer of a message that is not refused is as long as its block announces. -/
theorem length_trailer (h : (d.layout m).trailerError? = none) :
    (d.layout m).trailer.length = d.trailerLength (d.kindOf m) (d.layout m).block := by
  cases d
  · exact Command.length_trailer h
  · exact Report.length_trailer h

end Direction

/-! ### Images -/

/-- The bytes of one whole message. -/
inductive IsImage (d : Direction) : Bytes → Prop
  | intro {kind : Kind} {block trailer : Bytes} (hblock : block.length = kind.blockLength d)
      (htrailer : trailer.length = d.trailerLength kind block) :
      IsImage d (kind.tag :: block ++ trailer)

/-- A header and its trailer are an image. -/
theorem isImage_of_header {d : Direction} {m : d.Message} {header : Bytes}
    (h : (d.layout m).header = .ok header) : IsImage d (header ++ (d.layout m).trailer) := by
  unfold Layout.header at h
  split at h
  · cases h
  next hnone =>
    cases h
    rw [d.kind_layout]
    exact .intro (d.length_block m) (Direction.length_trailer hnone)

/-- **What can be encoded is encoded as an image.** -/
theorem isImage_of_encode {d : Direction} {m : d.Message} {image : Bytes}
    (h : d.encode m = .ok image) : IsImage d image := by
  unfold Direction.encode Layout.encode at h
  cases hheader : (d.layout m).header with
  | error e =>
    rw [hheader] at h
    cases h
  | ok header =>
    rw [hheader] at h
    cases h
    exact isImage_of_header hheader

/-- **The image of a two-way message is one in the other direction, too.** -/
theorem IsImage.other_way {d d' : Direction} {kind : TwoWayKind} {block trailer : Bytes}
    (hblock : block.length = (Kind.twoWay kind).blockLength d)
    (htrailer : trailer.length = d.trailerLength (.twoWay kind) block) :
    IsImage d' (kind.tag :: block ++ trailer) := by
  have hblock' : block.length = (Kind.twoWay kind).blockLength d' :=
    hblock.trans (Kind.blockLength_of_twoWay d d' kind)
  -- the two rules for trailers agree on two-way kinds, too
  have htrailer' : trailer.length = d'.trailerLength (.twoWay kind) block := by
    cases d <;> cases d' <;> exact htrailer
  exact .intro hblock' htrailer'

/-! ### Streams of images -/

/-- Images one after the other, and nothing else. -/
def Whole (d : Direction) (stream : Bytes) : Prop :=
  ∃ images : List Bytes, (∀ image ∈ images, IsImage d image) ∧ images.flatten = stream

namespace Whole

variable {d : Direction} {a b : Bytes}

theorem nil : Whole d [] := ⟨[], fun _ h => absurd h List.not_mem_nil, rfl⟩

theorem of_image (h : IsImage d a) : Whole d a :=
  ⟨[a], fun _ hmem => List.mem_singleton.1 hmem ▸ h, List.flatten_singleton⟩

theorem append (ha : Whole d a) (hb : Whole d b) : Whole d (a ++ b) := by
  obtain ⟨first, hfirst, rfl⟩ := ha
  obtain ⟨second, hsecond, rfl⟩ := hb
  refine ⟨first ++ second, fun image himage => ?_, List.flatten_append⟩
  exact (List.mem_append.1 himage).elim (hfirst image) (hsecond image)

end Whole

/-! ### Reading images -/

/-- A handler that takes whatever it is given. -/
def Handler.Accepts {d : Direction} {ε σ : Type} (handle : Handler d ε σ) : Prop :=
  ∀ (received : Received d) (s : σ), ∃ s', handle received s = .ok () s'

/-- Such a handler takes messages in turn. -/
theorem Handler.Accepts.forM_eq_after {d : Direction} {ε σ : Type} {handle : Handler d ε σ}
    (h : handle.Accepts) (messages : List (Received d)) (s : σ) :
    messages.forM handle s = .ok () (handle.after messages s) := by
  induction messages generalizing s with
  | nil => rfl
  | cons received messages ih =>
    obtain ⟨s', hs'⟩ := h received s
    rw [Handler.forM_cons, EStateM.bind, hs', Handler.after, Handler.next, hs']
    exact ih s'

/-- What a handler has taken down that puts each message in front of the others. -/
theorem Handler.after_collect {d : Direction} {ε α : Type} (note : Received d → α)
    (messages : List (Received d)) (taken : List α) :
    Handler.after (fun received => modify (note received :: ·) : Handler d ε (List α)) messages
        taken
      = (messages.map note).reverse ++ taken := by
  induction messages generalizing taken with
  | nil => rfl
  | cons received messages ih =>
    rw [List.map_cons, List.reverse_cons, List.append_assoc]
    exact ih (note received :: taken)

/-- Images are the bytes of messages. -/
theorem exists_received {d : Direction} {images : List Bytes}
    (himages : ∀ image ∈ images, IsImage d image) :
    ∃ messages : List (Received d), (∀ received ∈ messages, received.Genuine) ∧
      messages.map Received.wire = images := by
  induction images with
  | nil => exact ⟨[], List.forall_mem_nil _, rfl⟩
  | cons image images ih =>
    obtain ⟨himage, hrest⟩ := List.forall_mem_cons.1 himages
    obtain ⟨messages, hgenuine, hwires⟩ := ih hrest
    obtain ⟨hblock, htrailer⟩ := himage
    rename_i kind block trailer
    refine ⟨⟨d.parse kind block trailer, kind.tag :: block ++ trailer⟩ :: messages, ?_, ?_⟩
    · exact List.forall_mem_cons.2 ⟨.intro hblock htrailer, hgenuine⟩
    · rw [List.map_cons, hwires]

namespace Receiver

variable {d : Direction} {ε σ : Type} {handle : Handler d ε σ}

/-- Messages one after the other are handed over one after the other. -/
theorem consume_messages (ofStream : StreamError → ε) (haccepts : handle.Accepts)
    {messages : List (Received d)} (hmessages : ∀ received ∈ messages, received.Genuine)
    (r : Receiver) (s : σ) :
    ∃ r' : Receiver, r'.decoded = r.decoded + messages.length ∧ r'.dropped = r.dropped ∧
      consume ofStream handle (messages.flatMap Received.wire) r.restart s
        = .ok () (r'.restart, handle.after messages s) := by
  obtain ⟨r', hdecoded, hdropped, -, hconsume⟩ :=
    consume_forM ofStream hmessages (haccepts.forM_eq_after messages s) [] r
  rw [List.append_nil, consume_nil] at hconsume
  exact ⟨r', hdecoded, hdropped, hconsume⟩

/-- **Messages one after the other are handed over in order**, in whatever chunks they come, and
nothing is dropped or left over. -/
theorem feed_messages (ofStream : StreamError → ε) (haccepts : handle.Accepts)
    {messages : List (Received d)} (hmessages : ∀ received ∈ messages, received.Genuine)
    {chunks : List Bytes} (hchunks : chunks.flatten = messages.flatMap Received.wire)
    (recovery : Recovery) (s : σ) :
    ∃ r' : Receiver, r'.decoded = messages.length ∧ r'.dropped = 0 ∧ r'.isMidway = false ∧
      chunks.forM (feed ofStream handle) (.new recovery, s)
        = .ok () (r', handle.after messages s) := by
  have hcoherent : Coherent d (.new recovery) := (Reachable.new recovery).coherent
  -- a new receiver stands where one stands that restarts
  obtain ⟨r', hdecoded, hdropped, hconsume⟩ :=
    consume_messages ofStream haccepts hmessages (.new recovery) s
  refine ⟨r'.restart, hdecoded.trans (Nat.zero_add _), hdropped, rfl, ?_⟩
  rw [forM_feed hcoherent rfl, feed_of_running rfl, hchunks]
  exact hconsume

/-- **Images one after the other are read to their end**, in whatever chunks they come: each one
counts as a message, and nothing is dropped or left over. -/
theorem feed_images (ofStream : StreamError → ε) (haccepts : handle.Accepts) {images : List Bytes}
    (himages : ∀ image ∈ images, IsImage d image) {chunks : List Bytes}
    (hchunks : chunks.flatten = images.flatten) (recovery : Recovery) (s : σ) :
    ∃ (r' : Receiver) (s' : σ), r'.decoded = images.length ∧ r'.dropped = 0 ∧ r'.isMidway = false ∧
      chunks.forM (feed ofStream handle) (.new recovery, s) = .ok () (r', s') := by
  obtain ⟨messages, hmessages, rfl⟩ := exists_received himages
  have hbytes : chunks.flatten = messages.flatMap Received.wire :=
    hchunks.trans List.flatMap_def.symm
  obtain ⟨r', hdecoded, hdropped, hmidway, hfeed⟩ :=
    feed_messages ofStream haccepts hmessages hbytes recovery s
  exact ⟨r', _, hdecoded.trans (List.length_map _).symm, hdropped, hmidway, hfeed⟩

end Receiver
end PinBridge
