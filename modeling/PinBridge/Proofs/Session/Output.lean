/-
PinBridge/Proofs/Session/Output.lean

What a board sends is made up of whole messages.

A session is watched together with all the bytes that its queue has accepted
since it was last emptied (`Ledger`).  They are read off two queues that follow
each other: what the later one holds beyond the length of the earlier one has
been accepted in between.  That this loses nothing is part of what is proved:
an event puts something behind the content, or takes something away from its
front, or empties the queue, and never two of these (`Queue.Moved`).

Main statement: `output_whole`, whatever happens to a session, what its queue
has accepted are whole messages; and a session that is opened, fed and drained
sends nothing that a host could not read.
-/
import PinBridge.Proofs.Session.Drain
import PinBridge.Proofs.Session.Response
import PinBridge.Proofs.Tool.Listing

namespace PinBridge

variable {B : Type} {settings : Settings} {s : Session B}

/-! ### What an event does to the queue -/

/-- What can become of a queue; the flag says whether it has been emptied on the way. -/
inductive Queue.Moved (q : Queue) : (emptied : Bool) → Queue → Prop
  | extended {added : Bytes} (hwhole : Whole .outgoing added) : Moved q false (q.extend added)
  | shrunk {q' : Queue} (hsuffix : q'.content <:+ q.content) : Moved q false q'
  | emptied {q' : Queue} (hwhole : Whole .outgoing q'.content) : Moved q true q'

/-- All that has been accepted since the queue was last emptied, after it has changed. -/
def Queue.account (emptied : Bool) (before after : Queue) (accepted : Bytes) : Bytes :=
  if emptied then after.content else accepted ++ after.content.drop before.length

/-- If what has been accepted are whole messages, and what is queued is the end of it, then this
stays so. -/
theorem Queue.Moved.account {q q' : Queue} {emptied : Bool} {accepted : Bytes}
    (h : q.Moved emptied q') (hwhole : Whole .outgoing accepted)
    (hqueued : q.content <:+ accepted) :
    Whole .outgoing (Queue.account emptied q q' accepted) ∧
      q'.content <:+ Queue.account emptied q q' accepted := by
  unfold Queue.account
  cases h with
  | @extended added hadded =>
    -- beyond the length of the old content lies just what was added
    have hdrop : (q.extend added).content.drop q.length = added := List.drop_left
    obtain ⟨gone, hgone⟩ := hqueued
    rw [if_neg Bool.false_ne_true, hdrop]
    refine ⟨hwhole.append hadded, gone, ?_⟩
    rw [Queue.content_extend, ← hgone, List.append_assoc]
  | shrunk hsuffix =>
    -- a content that has not grown adds nothing to the account
    have hdrop : q'.content.drop q.length = [] := List.drop_of_length_le hsuffix.length_le
    rw [if_neg Bool.false_ne_true, hdrop, List.append_nil]
    exact ⟨hwhole, hsuffix.trans hqueued⟩
  | emptied hcontent => exact ⟨hcontent, List.suffix_rfl⟩

/-- A tick takes bytes out of the queue at its front, and puts none in. -/
theorem Line.content_tick_suffix {C : Type} [Channel C] (l : Line C) :
    (Line.left (Line.tick l)).queue.content <:+ l.queue.content := by
  have hconfirm : l.confirm.queue.content <:+ l.queue.content := by
    rw [Line.confirm_content]
    exact List.drop_suffix _ _
  have hticked := Line.ticked l
  generalize Line.tick l = result at hticked ⊢
  cases hticked with
  | waiting hready => exact List.suffix_rfl
  | idle hready hspan => exact hconfirm
  | written hready hspan hwrite => exact hconfirm
  | failed hready hspan hwrite => exact hconfirm

namespace Session

/-- What is queued for the host leaves the queue extended by a whole message, or as it was. -/
theorem moved_enqueue {f : Queue → Except LinkError Queue} {r : Report}
    (hf : ∀ q, f q = Queue.send r q) (s : Session B) :
    s.queue.Moved false (stateOf (enqueue f s)).queue := by
  rcases stateOf_enqueue f s with hsame | ⟨queue, hqueue, hstate⟩
  · rw [hsame]
    exact .shrunk List.suffix_rfl
  · obtain ⟨added, hwhole, rfl⟩ := whole_of_send ((hf _).symm.trans hqueue)
    rw [hstate]
    exact .extended hwhole

/-- An opened session has the greeting in its queue, or nothing. -/
theorem moved_start (s : Session B) : s.queue.Moved true (stateOf (start s)).queue := by
  have hcleared : s.cleared.queue.content = [] := rfl
  have hmoved := moved_enqueue (fun _ => rfl) s.cleared (r := greeting s.settings.versions)
  rw [start_eq, stateOf_send]
  generalize (stateOf (enqueue _ s.cleared)).queue = queue at hmoved ⊢
  cases hmoved with
  | extended hwhole =>
    refine .emptied ?_
    rw [Queue.content_extend, hcleared]
    exact hwhole
  | shrunk hsuffix =>
    rw [hcleared, List.suffix_nil] at hsuffix
    exact .emptied (hsuffix ▸ .nil)

variable [Board B]

/-- Up to its end a chunk only puts whole messages on the queue. -/
theorem queue_reception (h : Coherent settings s) (chunk : Bytes) :
    ∃ added, Whole .outgoing added ∧
      (stateOf (s.reception chunk)).2.bench.queue = s.queue.extend added := by
  refine h.receiver.keeps_feed (P := fun r : Reception B => ∃ added, Whole .outgoing added ∧
    r.bench.queue = s.queue.extend added) ?_ chunk ⟨[], .nil, s.queue.extend_nil.symm⟩
  rintro received r hgenuine ⟨added, hwhole, hqueue⟩
  show ∃ added, Whole .outgoing added ∧
    (stateOf (Reception.handle s.settings.board received r)).bench.queue = s.queue.extend added
  rw [Reception.bench_handle]
  split
  · exact ⟨added, hwhole, hqueue⟩
  · obtain ⟨more, hmore, hresponse⟩ := queue_respond s.settings.board hgenuine r.bench
    refine ⟨added ++ more, hwhole.append hmore, ?_⟩
    rw [hresponse, hqueue, Queue.extend_extend]

end Session

/-- Whether an event empties the queue: opening a session does, and a chunk with a hard reset. -/
def SessionEvent.empties [Board B] : SessionEvent B → Session B → Bool
  | .start, _ => true
  | .receive chunk, s => (stateOf (s.reception chunk)).2.ended
  | _, _ => false

/-- What each event does to the queue. -/
theorem SessionEvent.moved [Board B] (h : s.Coherent settings) (event : SessionEvent B) :
    s.queue.Moved (event.empties s) (event.apply s).queue := by
  cases event with
  | start => exact Session.moved_start s
  | receive chunk =>
    show s.queue.Moved (stateOf (s.reception chunk)).2.ended
      (stateOf (Session.receive chunk s)).queue
    rw [Session.stateOf_receive, Session.queue_settle]
    cases hended : (stateOf (s.reception chunk)).2.ended with
    | true => exact .emptied .nil
    | false =>
      obtain ⟨added, hwhole, hqueue⟩ := Session.queue_reception h chunk
      rw [if_neg Bool.false_ne_true, hqueue]
      exact .extended hwhole
  | tick channel =>
    show s.queue.Moved false (stateOf (Session.tick (s, channel))).1.queue
    rw [Session.stateOf_tick]
    exact .shrunk (Line.content_tick_suffix (s.line channel))
  | send r =>
    show s.queue.Moved false (stateOf (Session.send r s)).queue
    rw [Session.stateOf_send]
    exact Session.moved_enqueue (fun _ => rfl) s
  | sendLevel pin level => exact Session.moved_enqueue (fun _ => rfl) s
  | sendBacklog uart remaining => exact Session.moved_enqueue (fun _ => rfl) s
  | boardChanges f => exact .shrunk List.suffix_rfl

/-! ### The ledger -/

/-- A session, and all bytes that its queue has accepted since it was last emptied. -/
structure Ledger (B : Type) where
  session : Session B
  accepted : Bytes

namespace Ledger

/-- A session whose queue has not accepted anything. -/
def new (settings : Settings) (board : B) : Ledger B := ⟨.new settings board, []⟩

variable [Board B]

/-- An event, and what the queue accepts in it. -/
def apply (event : SessionEvent B) (l : Ledger B) : Ledger B where
  session := event.apply l.session
  accepted :=
    Queue.account (event.empties l.session) l.session.queue (event.apply l.session).queue l.accepted

/-- One event after the other. -/
def run (events : List (SessionEvent B)) (l : Ledger B) : Ledger B :=
  events.foldl (fun l event => l.apply event) l

/-- The ledger does not interfere. -/
theorem session_run (events : List (SessionEvent B)) (l : Ledger B) :
    (run events l).session = SessionEvent.run events l.session := by
  induction events generalizing l with
  | nil => rfl
  | cons event events ih => exact ih (l.apply event)

/-- What the queue has accepted are whole messages, and what is still queued is the end of it. -/
structure Balanced (l : Ledger B) : Prop where
  whole : Whole .outgoing l.accepted
  queued : l.session.queue.content <:+ l.accepted

theorem Balanced.apply {l : Ledger B} (h : l.Balanced) (hs : l.session.Coherent settings)
    (event : SessionEvent B) : (l.apply event).Balanced := by
  obtain ⟨hwhole, hqueued⟩ := (event.moved hs).account h.whole h.queued
  exact ⟨hwhole, hqueued⟩

/-- **Whatever happens, the ledger stays balanced.** -/
theorem balanced_run (settings : Settings) (board : B) (events : List (SessionEvent B)) :
    (run events (.new settings board)).Balanced := by
  have hnew : (new settings board).session.Coherent settings ∧ (new settings board).Balanced :=
    ⟨.new settings board, .nil, List.suffix_rfl⟩
  -- an event is known to keep the balance only of a session that is coherent
  generalize new settings board = l at hnew ⊢
  induction events generalizing l with
  | nil => exact hnew.2
  | cons event events ih => exact ih (l.apply event) ⟨hnew.1.apply event, hnew.2.apply hnew.1 event⟩

end Ledger

/-! ### A session that is opened, fed and drained -/

namespace Session

/-- A session that has not begun to send what it has queued. -/
structure Unsent (settings : Settings) (s : Session B) : Prop where
  coherent : s.Coherent settings
  ring : s.queue.Ring
  inFlight : s.transmitter.inFlight = 0
  whole : Whole .outgoing s.queue.content

/-- The greeting is a message of seventeen bytes. -/
theorem encode_greeting (v : Versions) :
    ∃ image, Direction.outgoing.encode (greeting v) = .ok image ∧ image.length = 17 := by
  refine ⟨_, rfl, ?_⟩
  show ((greeting v).layout.block ++ []).length + 1 = 17
  rw [List.append_nil, Report.length_block]
  rfl

/-- A new session whose queue can hold the greeting is opened with the greeting in it. -/
theorem start_new_eq (settings : Settings) (board : B)
    (hroom : 17 ≤ settings.queueCapacity.toNat) {image : Bytes}
    (hencode : Direction.outgoing.encode (greeting settings.versions) = .ok image) :
    start (new settings board) = .ok () { (new settings board).cleared with
      queue := (new settings board).cleared.queue.extend image } := by
  obtain ⟨image', hencode', hlength⟩ := encode_greeting settings.versions
  obtain rfl : image = image' := Except.ok.inj (hencode.symm.trans hencode')
  have hfits : ¬(new settings board).cleared.queue.free < image.length := by
    show ¬settings.queueCapacity.toNat - 0 < image.length
    omega
  have hsend : (new settings board).cleared.queue.send (greeting settings.versions)
      = .ok ((new settings board).cleared.queue.extend image) := by
    rw [Queue.send_eq, hencode]
    exact if_neg hfits
  rw [start_eq, send_eq]
  simp only [show (new settings board).settings = settings from rfl, hsend]

/-- A queue that can hold the greeting is enough to open a session. -/
theorem start_new (settings : Settings) (board : B) (hroom : 17 ≤ settings.queueCapacity.toNat) :
    ∃ s, start (new settings board) = .ok () s ∧ s.Unsent settings := by
  obtain ⟨image, hencode, -⟩ := encode_greeting settings.versions
  have hstart := start_new_eq settings board hroom hencode
  refine ⟨_, hstart, ?_, ?_, rfl, .of_image (isImage_of_encode hencode)⟩
  · have hcoherent := (Coherent.new settings board).start
    rw [hstart] at hcoherent
    exact hcoherent
  · show 0 < settings.queueCapacity.toNat
    omega

variable [Board B]

/-- A chunk does not begin to send. -/
theorem Unsent.receive (h : s.Unsent settings) (chunk : Bytes) :
    (stateOf (Session.receive chunk s)).Unsent settings := by
  obtain ⟨added, hwhole, hqueue⟩ := queue_reception h.coherent chunk
  refine ⟨h.coherent.receive chunk, ?_, ?_, ?_⟩
  · rw [stateOf_receive, queue_settle]
    split
    · rw [hqueue]
      exact Nat.lt_of_le_of_lt (Nat.zero_le _) h.ring
    · rw [hqueue]
      exact h.ring
  · rw [stateOf_receive, transmitter_settle]
    split
    · rfl
    · exact h.inFlight
  · rw [stateOf_receive, queue_settle]
    split
    · exact .nil
    · rw [hqueue, Queue.content_extend]
      exact h.whole.append hwhole

/-- Neither do chunks. -/
theorem Unsent.receiveAll (h : s.Unsent settings) (chunks : List Bytes) :
    (stateOf (Session.receiveAll chunks s)).Unsent settings := by
  induction chunks generalizing s with
  | nil => exact h
  | cons chunk chunks ih =>
    have hnext := h.receive chunk
    show (stateOf (EStateM.bind (Session.receive chunk) (fun _ => Session.receiveAll chunks)
      s)).Unsent settings
    rw [EStateM.bind]
    cases hchunk : Session.receive chunk s with
    | ok _ s' =>
      rw [hchunk] at hnext
      exact ih hnext
    | error e s' =>
      rw [hchunk] at hnext
      exact hnext

/-- All that is queued can be sent to a channel that takes everything. -/
theorem Unsent.sendQueued (h : s.Unsent settings) :
    ∃ (s' : Session B) (channel : WriterChannel),
      Session.sendQueued (s.queue.length + 1) (s, WriterChannel.new (.new [] []))
        = .ok true (s', channel) ∧ s'.receiver = s.receiver ∧
      channel.writer.taken = s.queue.content := by
  have hsteps : s.ticksLeft ≤ s.queue.length + 1 := by
    unfold ticksLeft
    split
    · exact Nat.zero_le _
    · split
      · exact Nat.le_refl _
      · exact Nat.le_add_right _ _
  have hunwritten : s.unwritten = s.queue.content := by rw [unwritten, h.inFlight, List.drop_zero]
  obtain ⟨s', channel, hsend, -, hreceiver, htaken⟩ :=
    sendQueued_willing WriterChannel.willing_new h.ring hsteps
  exact ⟨s', channel, hsend, hreceiver, htaken.trans hunwritten⟩

end Session

namespace Tool

/-- Whole messages are listed without complaint. -/
theorem listOutgoing_whole {stream : Bytes} (h : Whole .outgoing stream) :
    (listOutgoing stream).2 = none := by
  obtain ⟨images, himages, rfl⟩ := h
  obtain ⟨messages, hmessages, rfl⟩ := exists_received himages
  have hsize : 0 < max 1 (messages.flatMap Received.wire).length := by omega
  have hlisting := listStream_messages hmessages .abort hsize
  rw [← List.flatMap_def]
  simp only [listOutgoing, hlisting]
  rfl

/-- What a simulation reports of a session that has been fed, and stopped or not. -/
def Simulation.ofFed (fed : EStateM.Result SessionError (Session VirtualBoard) Unit) :
    Simulation where
  actions := (stateOf fed).board.actions
  outgoing := (stateOf fed).queue.content
  decoded := (stateOf fed).receiver.decoded
  dropped := (stateOf fed).receiver.dropped
  error := errorOf fed

/-- After a session has been fed, what is queued is sent, and nothing else happens that a
simulation reports. -/
theorem simulate_eq {settings : Settings} {high : List UInt8} {opened : Session VirtualBoard}
    (hstart : Session.start (Session.new settings (boardWith settings.board high))
      = .ok () opened) (hopened : opened.Unsent settings) (stream : Bytes) (chunk : Nat) :
    simulate settings stream chunk high
      = .ok (.ofFed (Session.receiveAll (Wire.chunksOf chunk stream) opened)) := by
  have hfed := hopened.receiveAll (Wire.chunksOf chunk stream)
  have hhousekeeping : ∀ (actions : List Action) (board : VirtualBoard),
      board.actions = actions → (Board.housekeeping board).actions = actions :=
    fun _ _ hsame => hsame
  -- whether the stream was stopped or not, what is queued is sent
  have hsent : ∀ s : Session VirtualBoard, s.Unsent settings →
      ∃ (s' : Session VirtualBoard) (channel : WriterChannel),
        Session.sendQueued (s.queue.length + 1) (s, WriterChannel.new (.new [] []))
          = .ok true (s', channel) ∧ s'.receiver = s.receiver ∧
        s'.board.actions = s.board.actions ∧ channel.writer.taken = s.queue.content := by
    intro s hs
    obtain ⟨s', channel, hsend, hreceiver, htaken⟩ := hs.sendQueued
    have hboard := Session.board_sendQueued (hhousekeeping s.board.actions) (s.queue.length + 1) s
      (WriterChannel.new (.new [] [])) rfl
    rw [hsend] at hboard
    exact ⟨s', channel, hsend, hreceiver, hboard, htaken⟩
  unfold simulate
  simp only [hstart]
  cases hreceive : Session.receiveAll (Wire.chunksOf chunk stream) opened with
  | ok _ s =>
    rw [hreceive] at hfed
    obtain ⟨s', channel, hsend, hreceiver, hactions, htaken⟩ := hsent s hfed
    simp only [hsend, hreceiver, hactions, htaken]
    rfl
  | error e s =>
    rw [hreceive] at hfed
    obtain ⟨s', channel, hsend, hreceiver, hactions, htaken⟩ := hsent s hfed
    simp only [hsend, hreceiver, hactions, htaken]
    rfl

/-- A session that has room for the greeting is carried through, and sends whole messages. -/
theorem simulate_whole (settings : Settings) (stream : Bytes) (chunk : Nat) (high : List UInt8)
    (hroom : 17 ≤ settings.queueCapacity.toNat) :
    ∃ sim, simulate settings stream chunk high = .ok sim ∧ Whole .outgoing sim.outgoing := by
  obtain ⟨opened, hstart, hopened⟩ :=
    Session.start_new settings (boardWith settings.board high) hroom
  exact ⟨_, simulate_eq hstart hopened stream chunk,
    (hopened.receiveAll (Wire.chunksOf chunk stream)).whole⟩

end Tool

/-- **What a board sends is made up of whole messages.**  Whatever happens to a session, in whatever
order and whichever of it fails, all that its queue has accepted since it was last emptied are
images of messages; a host reads them to their end, whichever way it recovers and in whatever chunks
they come, and nothing is dropped or left over.  And with room for the greeting a simulated session
does not fail, and what it sends is read without complaint, whatever the stream holds. -/
theorem output_whole :
    (∀ (B : Type) [Board B] (settings : Settings) (board : B) (events : List (SessionEvent B)),
      let ledger := Ledger.run events (.new settings board)
      ledger.session = SessionEvent.run events (.new settings board) ∧
      ledger.session.queue.content <:+ ledger.accepted ∧
      ∃ images : List Bytes,
        (∀ image ∈ images, IsImage .outgoing image) ∧ images.flatten = ledger.accepted ∧
        ∀ (recovery : Recovery) (chunks : List Bytes), chunks.flatten = ledger.accepted →
          ∃ (receiver : Receiver) (records : List Tool.Entry),
            chunks.forM (Receiver.feed id (Tool.record .outgoing)) (.new recovery, [])
              = .ok () (receiver, records) ∧
            receiver.decoded = images.length ∧ receiver.dropped = 0 ∧
            receiver.isMidway = false) ∧
    ∀ (settings : Settings) (stream : Bytes) (chunk : Nat) (high : List UInt8),
      17 ≤ settings.queueCapacity.toNat → 0 < chunk →
      ∃ sim, Tool.simulate settings stream chunk high = .ok sim ∧
        (Tool.listOutgoing sim.outgoing).2 = none := by
  refine ⟨fun B _ settings board events => ?_, fun settings stream chunk high hroom _ => ?_⟩
  · intro ledger
    have hbalanced : ledger.Balanced := Ledger.balanced_run settings board events
    obtain ⟨images, himages, hflatten⟩ := hbalanced.whole
    refine ⟨Ledger.session_run events _, hbalanced.queued, images, himages, hflatten, ?_⟩
    intro recovery chunks hchunks
    obtain ⟨receiver, records, hdecoded, hdropped, hmidway, hfeed⟩ :=
      Receiver.feed_images id (Tool.record_accepts .outgoing) himages (hchunks.trans hflatten.symm)
        recovery []
    exact ⟨receiver, records, hfeed, hdecoded, hdropped, hmidway⟩
  · obtain ⟨sim, hsim, hwhole⟩ := Tool.simulate_whole settings stream chunk high hroom
    exact ⟨sim, hsim, Tool.listOutgoing_whole hwhole⟩

/-- The theorem for a queue that holds the greeting and nothing more, so that the command in the
stream cannot be echoed. -/
theorem output_whole_no_room :
    17 ≤ ({ Settings.standard with queueCapacity := 17 } : Settings).queueCapacity.toNat ∧ 0 < 1 ∧
      ∃ sim,
        Tool.simulate { Settings.standard with queueCapacity := 17 } [5, 0x15] 1 [5] = .ok sim ∧
        (Tool.listOutgoing sim.outgoing).2 = none :=
  ⟨by decide, by decide, output_whole.2 _ _ _ _ (by decide) (by decide)⟩

end PinBridge
