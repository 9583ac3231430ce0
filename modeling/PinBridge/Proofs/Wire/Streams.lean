/-
PinBridge/Proofs/Wire/Streams.lean

Messages that are written one after the other are read one after the other.

What a message is encoded as is the image of this message with its fields
narrowed (`genuine_of_encode`).  A receiver tells where an image ends without
looking behind it, so a stream of images is handed over as the messages that
were written, narrowed, each with its own image.

Main statement: `feed_encoded`.
-/
import PinBridge.Proofs.Receiver.Stream
import PinBridge.Proofs.Wire.Image
import PinBridge.Proofs.Wire.Widths

namespace PinBridge

variable {d : Direction}

/-! ### What is written -/

/-- What a message is encoded as lies on the wire as the narrowed message should. -/
theorem genuine_of_encode {m : d.Message} {image : Bytes} (h : d.encode m = .ok image) :
    (⟨d.narrow m, image⟩ : Received d).Genuine := by
  have hannounceable : d.Announceable m := by
    refine Classical.byContradiction fun hnot => ?_
    obtain ⟨e, he⟩ := (Direction.encode_error_iff m).2 hnot
    rw [h] at he
    cases he
  have hbytes := Direction.encode_of_announceable hannounceable
  rw [h] at hbytes
  cases hbytes
  rw [← Direction.parse_layout]
  have hnone := (Direction.trailerError?_eq_none_iff m).2 hannounceable
  exact .intro (d.length_block m) (Direction.length_trailer hnone)

/-- Messages that are encoded, as they will be received. -/
theorem exists_received_of_mapM {messages : List d.Message} {images : List Bytes}
    (h : messages.mapM d.encode = .ok images) :
    ∃ record : List (Received d), (∀ received ∈ record, received.Genuine) ∧
      record.map Received.message = messages.map d.narrow ∧
      record.map Received.wire = images := by
  induction messages generalizing images with
  | nil =>
    cases h
    exact ⟨[], List.forall_mem_nil _, rfl, rfl⟩
  | cons m messages ih =>
    rw [List.mapM_cons] at h
    cases hfirst : d.encode m with
    | error e =>
      rw [hfirst] at h
      cases h
    | ok image =>
      cases hrest : messages.mapM d.encode with
      | error e =>
        rw [hfirst, hrest] at h
        cases h
      | ok rest =>
        rw [hfirst, hrest] at h
        cases h
        obtain ⟨record, hgenuine, hmessages, hwires⟩ := ih hrest
        refine ⟨⟨d.narrow m, image⟩ :: record, ?_, ?_, ?_⟩
        · exact List.forall_mem_cons.2 ⟨genuine_of_encode hfirst, hgenuine⟩
        · rw [List.map_cons, hmessages, List.map_cons]
        · rw [List.map_cons, hwires]

/-! ### What is read -/

/-- Recording does not make a handler refuse anything. -/
theorem Handler.Accepts.recorded {ε σ : Type} {handle : Handler d ε σ} (h : handle.Accepts) :
    handle.recorded.Accepts := by
  rintro received ⟨s, record⟩
  obtain ⟨s', hs'⟩ := h received s
  exact ⟨(s', record ++ [received]), by rw [recorded_apply, hs']⟩

/-- **Messages one after the other are recorded as they are.** -/
theorem Receiver.feed_recorded {ε σ : Type} (ofStream : StreamError → ε) {handle : Handler d ε σ}
    (haccepts : handle.Accepts) {messages : List (Received d)}
    (hmessages : ∀ received ∈ messages, received.Genuine) {chunks : List Bytes}
    (hchunks : chunks.flatten = messages.flatMap Received.wire) (recovery : Recovery) (s : σ) :
    ∃ (r : Receiver) (s' : σ), r.decoded = messages.length ∧ r.dropped = 0 ∧
      r.isMidway = false ∧
      chunks.forM (feed ofStream handle.recorded) (.new recovery, s, [])
        = .ok () (r, s', messages) := by
  obtain ⟨r, hdecoded, hdropped, hmidway, hfeed⟩ :=
    feed_messages ofStream haccepts.recorded hmessages hchunks recovery (s, [])
  rw [Handler.after_recorded, List.nil_append] at hfeed
  exact ⟨r, handle.after messages s, hdecoded, hdropped, hmidway, hfeed⟩

/-- The messages of a stream that is made up of them. -/
theorem Receiver.messagesOf_received {messages : List (Received d)}
    (hmessages : ∀ received ∈ messages, received.Genuine) :
    messagesOf d (messages.flatMap Received.wire) = .ok (messages.map Received.message) := by
  let collect : Handler d StreamError (List d.Message) := fun received =>
    modify (received.message :: ·)
  have hafter : collect.after messages [] = (messages.map Received.message).reverse ++ [] :=
    Handler.after_collect Received.message messages []
  have haccepts : collect.Accepts := fun _ _ => ⟨_, rfl⟩
  obtain ⟨r, -, -, hconsume⟩ := consume_messages id haccepts hmessages (.new .abort) []
  have hfeed : feed id collect (messages.flatMap Received.wire) (.new .abort, [])
      = .ok () (r.restart, collect.after messages []) := (feed_of_running rfl _ _).trans hconsume
  dsimp only [messagesOf]
  rw [hfeed, hafter, List.append_nil]
  exact congrArg Except.ok (List.reverse_reverse _)

/-- **Reading undoes writing, on whole streams.**  A message is refused when it is written exactly
if the number of its trailer entries cannot be announced.  If none is refused, then the stream of
their images, in whatever chunks it comes and whichever way the receiver recovers, is handed over as
the same messages in the same order, each with its own image and with its fields cut to the width of
their places; every message is counted, and nothing is dropped or left over.  So messages whose
fields fit come back as they were. -/
theorem feed_encoded {ε σ : Type} (ofStream : StreamError → ε) {handle : Handler d ε σ}
    (haccepts : handle.Accepts) (messages : List d.Message) :
    (∀ m : d.Message, (∃ e, d.encode m = .error e) ↔ ¬ d.Announceable m) ∧
    ∀ images, messages.mapM d.encode = .ok images →
      ∀ (recovery : Recovery) (s : σ) (chunks : List Bytes), chunks.flatten = images.flatten →
        ∃ (r : Receiver) (s' : σ) (record : List (Received d)),
          chunks.forM (Receiver.feed ofStream handle.recorded) (.new recovery, s, [])
            = .ok () (r, s', record) ∧
          record.map Received.message = messages.map d.narrow ∧
          record.map Received.wire = images ∧
          r.decoded = messages.length ∧ r.dropped = 0 ∧ r.isMidway = false ∧
          ((∀ m ∈ messages, d.Fits m) → record.map Received.message = messages) := by
  refine ⟨Direction.encode_error_iff, ?_⟩
  intro images himages recovery s chunks hchunks
  obtain ⟨record, hgenuine, hmessages, hwires⟩ := exists_received_of_mapM himages
  have hbytes : chunks.flatten = record.flatMap Received.wire := by
    rw [hchunks, ← hwires, List.flatMap_def]
  have hlength : record.length = messages.length := by
    have hboth := congrArg List.length hmessages
    rwa [List.length_map, List.length_map] at hboth
  obtain ⟨r, s', hdecoded, hdropped, hmidway, hfeed⟩ :=
    Receiver.feed_recorded ofStream haccepts hgenuine hbytes recovery s
  refine ⟨r, s', record, hfeed, hmessages, hwires, hdecoded.trans hlength, hdropped, hmidway, ?_⟩
  intro hfits
  have hnarrow : ∀ m ∈ messages, d.narrow m = m := fun m hm =>
    (Direction.narrow_eq_iff m).2 (hfits m hm)
  rw [hmessages, List.map_congr_left hnarrow, List.map_id']

/-- The theorem for three commands of which one has a pin that is too wide, in chunks that end
inside messages. -/
theorem feed_encoded_of_wide_pin :
    let messages : List Command :=
      [.pinPwm 70 9, .twoWay (.uartData 1 [5, 6, 7]), .pwmDutyCycle 3 1000 2]
    let images : List Bytes := [[8, 6, 9], [12, 1, 2, 5, 6, 7], [9, 14, 0xE8, 0x03]]
    let chunks : List Bytes := [[8, 6], [9, 12, 1, 2, 5], [6, 7, 9, 14, 0xE8, 0x03]]
    let handle : Handler .incoming StreamError Unit := fun _ _ => .ok () ()
    handle.Accepts ∧
      messages.mapM (Direction.encode .incoming) = .ok images ∧
      chunks.flatten = images.flatten ∧
      ∃ (r : Receiver) (record : List (Received .incoming)),
        chunks.forM (Receiver.feed id handle.recorded) (.new .abort, (), [])
          = .ok () (r, (), record) ∧
        record.map Received.message
          = [.pinPwm 6 9, .twoWay (.uartData 1 [5, 6, 7]), .pwmDutyCycle 3 1000 2] ∧
        record.map Received.wire = images := by
  intro messages images chunks handle
  have haccepts : handle.Accepts := fun _ _ => ⟨(), rfl⟩
  have himages : messages.mapM (Direction.encode .incoming) = .ok images := rfl
  obtain ⟨-, hstream⟩ := feed_encoded id haccepts messages
  obtain ⟨r, s', record, hfeed, hmessages, hwires, -⟩ :=
    hstream images himages .abort () chunks rfl
  exact ⟨haccepts, himages, rfl, r, record, hfeed, hmessages, hwires⟩

end PinBridge
