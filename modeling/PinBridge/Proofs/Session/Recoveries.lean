/-
PinBridge/Proofs/Session/Recoveries.lean

The two ways of recovery agree until the first failure.

Two sessions that differ only in how they recover run side by side
(`Abreast`): they have the same board and the same queue, and hold the same
bytes.  As long as the one that aborts takes every chunk, so does the other one,
and they stay side by side.  When it fails, it is halted, and from then on it
does nothing; the other one has done all that it has done, and goes on.  What a
board logs only grows (`Board.Logs`), so that the log of the one is always the
front of the log of the other.

Main statements: `Abreast.receiveAll`, `Abreast.prefix_log`, and
`recoveries_agree`.
-/
import PinBridge.Channel.Recorder
import PinBridge.Proofs.Receiver.Recoveries
import PinBridge.Proofs.Session.Connection
import PinBridge.Proofs.Session.Pieces

namespace PinBridge

variable {B : Type}

/-! ### Logs -/

/-- Something that a board keeps, and that only grows. -/
structure Board.Logs [Board B] {α : Type} (log : B → List α) : Prop where
  perform : ∀ (a : Action) (board : B), log board <+: log (Board.perform a board)
  inputLevel : ∀ (pin : UInt8) (board : B), log board <+: log (Board.inputLevel pin board).2
  uartBacklog : ∀ (uart : UInt8) (board : B), log board <+: log (Board.uartBacklog uart board).2

/-- A virtual board keeps its actions. -/
theorem VirtualBoard.logs_actions : Board.Logs VirtualBoard.actions where
  perform a _ := List.prefix_append _ [a]
  inputLevel _ _ := List.prefix_rfl
  uartBacklog _ _ := List.prefix_rfl

namespace Board.Logs

variable [Board B] {α : Type} {log : B → List α}

theorem ask (hlog : Board.Logs log) {answer : Answer} {told : Option Report} {board board' : B}
    (hask : answer.ask board = (told, board')) : log board <+: log board' :=
  Answer.of_ask (R := fun board' => log board <+: log board') List.prefix_rfl
    (hlog.inputLevel · board) (hlog.uartBacklog · board) hask

theorem respond (hlog : Board.Logs log) (limits : BoardLimits) (command : Command) (wire : Bytes)
    (b : Bench B) :
    log b.board <+: log (stateOf (PinBridge.respond limits command wire b)).board := by
  have hresponded := responded limits command wire b
  generalize PinBridge.respond limits command wire b = result at hresponded ⊢
  cases hresponded with
  | refused haction => exact List.prefix_rfl
  | unechoed haction hecho => exact hlog.perform _ b.board
  | silent haction hecho hanswer => exact hlog.perform _ b.board
  | reported haction hecho hask hsend => exact (hlog.perform _ b.board).trans (hlog.ask hask)
  | unreported haction hecho hask hsend => exact (hlog.perform _ b.board).trans (hlog.ask hask)

theorem handle (hlog : Board.Logs log) (limits : BoardLimits) (received : Received .incoming)
    (r : Reception B) :
    log r.bench.board <+: log (stateOf (Reception.handle limits received r)).bench.board := by
  rw [Reception.bench_handle]
  split
  · exact List.prefix_rfl
  · exact hlog.respond limits received.message received.wire r.bench

/-- Messages handed over in turn let the log grow. -/
theorem after (hlog : Board.Logs log) (limits : BoardLimits)
    (messages : List (Received .incoming)) (r : Reception B) :
    log r.bench.board
      <+: log (Handler.after (Reception.handle limits) messages r).bench.board := by
  induction messages generalizing r with
  | nil => exact List.prefix_rfl
  | cons received messages ih =>
    rw [Handler.after, Handler.next_eq_stateOf]
    exact (hlog.handle limits received r).trans (ih _)

end Board.Logs

namespace Session

variable [Board B] {α : Type} {log : B → List α} {settings : Settings} {s t s₀ t₀ : Session B}

/-- A chunk lets the log grow. -/
theorem log_receive (hlog : Board.Logs log) (h : s.Coherent settings) (chunk : Bytes) :
    log s.board <+: log (stateOf (receive chunk s)).board := by
  have hkeeps : (Reception.handle s.settings.board).Keeps fun r : Reception B =>
      log s.board <+: log r.bench.board := fun received r _ hr =>
    hr.trans (hlog.handle s.settings.board received r)
  rw [stateOf_receive, board_settle]
  exact h.receiver.keeps_feed hkeeps chunk List.prefix_rfl

/-- Chunks one after the other let the log grow. -/
theorem log_receiveEach (hlog : Board.Logs log) (h : s.Coherent settings) (chunks : List Bytes) :
    log s.board <+: log (s.receiveEach chunks).board := by
  induction chunks generalizing s with
  | nil => exact List.prefix_rfl
  | cons chunk chunks ih => exact (log_receive hlog h chunk).trans (ih (h.receive chunk))

/-- A halted session stays as it is, whatever chunks come. -/
theorem receiveEach_of_halted (h : s.receiver.halted = true) (chunks : List Bytes) :
    s.receiveEach chunks = s := by
  induction chunks with
  | nil => rfl
  | cons chunk chunks ih =>
    show (stateOf (receive chunk s)).receiveEach chunks = s
    rw [receive_of_halted h, ih]

/-! ### Sessions abreast -/

/-- Two sessions that differ in how they recover and have done the same so far; what they have
counted is compared with what `s₀` and `t₀` had counted before. -/
structure Abreast (settings : Settings) (s₀ t₀ s t : Session B) : Prop where
  aborts : s.Coherent { settings with recovery := .abort }
  resyncs : t.Coherent { settings with recovery := .resync }
  board : s.board = t.board
  queue : s.queue = t.queue
  halted : s.receiver.halted = t.receiver.halted
  held : s.receiver.held = t.receiver.held
  decoded : s.receiver.decoded + t₀.receiver.decoded = t.receiver.decoded + s₀.receiver.decoded
  dropped : s.receiver.dropped + t₀.receiver.dropped = t.receiver.dropped + s₀.receiver.dropped

namespace Abreast

omit [Board B] in
/-- While they run, their receivers are abreast. -/
theorem receivers (h : Abreast settings s₀ t₀ s t) (hrunning : s.receiver.halted = false) :
    Receiver.Abreast .incoming s.receiver t.receiver where
  reachable := h.aborts.reachable
  reachable' := h.resyncs.reachable
  aborts := h.aborts.recovery_eq
  resyncs := h.resyncs.recovery_eq
  running := hrunning
  running' := h.halted ▸ hrunning
  held := h.held

/-- What a chunk does to the second session is told in terms of the first one. -/
theorem reception_eq (h : Abreast settings s₀ t₀ s t) (chunk : Bytes) :
    t.reception chunk = Receiver.feed .stream (Reception.handle s.settings.board) chunk
      (t.receiver, s.opening) := by
  have hlimits : t.settings.board = s.settings.board := by
    rw [h.resyncs.settings_eq, h.aborts.settings_eq]
  have hopening : t.opening = s.opening := by rw [opening, opening, h.board, h.queue]
  rw [reception, hlimits, hopening]

theorem running_of_ok {chunk : Bytes} {s' : Session B} (hok : receive chunk s = .ok () s') :
    s.receiver.halted = false := by
  cases hhalted : s.receiver.halted with
  | false => rfl
  | true =>
    rw [receive_eq_of_halted hhalted] at hok
    cases hok

/-- A chunk that the session takes that aborts, the other one takes, too, and they stay abreast. -/
theorem receive_ok (h : Abreast settings s₀ t₀ s t) {chunk : Bytes} {s' : Session B}
    (hok : receive chunk s = .ok () s') :
    ∃ t', receive chunk t = .ok () t' ∧ Abreast settings s₀ t₀ s' t' := by
  have hrunning := running_of_ok hok
  have haborts := h.aborts.receive chunk
  have hresyncs := h.resyncs.receive chunk
  have hs' : stateOf (receive chunk s) = s' := by rw [hok]; rfl
  rw [receive_eq] at hok
  cases hreception : s.reception chunk with
  | error e left =>
    rw [hreception] at hok
    cases hok
  | ok _ left =>
    obtain ⟨r₁, r⟩ := left
    obtain ⟨r₂, n, hfeed, htally, htally'⟩ := (h.receivers hrunning).feed_of_ok hreception
    rw [← h.reception_eq] at hfeed
    have ht' : receive chunk t = .ok () (t.settle r₂ r) := by
      rw [receive_eq, hfeed]
      rfl
    obtain rfl : s.settle r₁ r = s' := by
      rw [hreception] at hok
      cases hok
      rfl
    obtain ⟨hdecoded, hdropped⟩ := counts_settle s r₁ r
    obtain ⟨hdecoded', hdropped'⟩ := counts_settle t r₂ r
    have hcounted : r₁.decoded = s.receiver.decoded + n := congrArg Receiver.Tally.decoded htally
    have hcounted' : r₂.decoded = t.receiver.decoded + n := congrArg Receiver.Tally.decoded htally'
    have hlost : r₁.dropped = s.receiver.dropped := congrArg Receiver.Tally.dropped htally
    have hlost' : r₂.dropped = t.receiver.dropped := congrArg Receiver.Tally.dropped htally'
    have hheld : r₁.held = r₂.held := congrArg Receiver.Tally.held htally
    have hhalted : r₁.halted = r₂.halted :=
      (congrArg Receiver.Tally.halted htally).trans (congrArg Receiver.Tally.halted htally').symm
    rw [ht'] at hresyncs
    rw [hs'] at haborts
    refine ⟨t.settle r₂ r, ht', haborts, hresyncs, ?_, ?_, ?_, ?_, ?_, ?_⟩
    · rw [board_settle, board_settle]
    · rw [queue_settle, queue_settle]
    · rw [receiver_settle, receiver_settle]
      split
      · rfl
      · exact hhalted
    · rw [receiver_settle, receiver_settle]
      split
      · rfl
      · exact hheld
    · have hbefore := h.decoded
      omega
    · have hbefore := h.dropped
      omega

/-- A chunk at which the session fails that aborts leaves it halted, and the other one has done all
that it has done. -/
theorem receive_error (hlog : Board.Logs log) (h : Abreast settings s₀ t₀ s t) {chunk : Bytes}
    {s' : Session B} {e : SessionError} (herror : receive chunk s = .error e s') :
    s'.receiver.halted = true ∧ log s'.board <+: log (stateOf (receive chunk t)).board := by
  cases hhalted : s.receiver.halted with
  | true =>
    rw [receive_eq_of_halted hhalted] at herror
    cases herror
    have hsame : log s.board = log t.board := congrArg log h.board
    rw [receive_of_halted (h.halted ▸ hhalted)]
    exact ⟨hhalted, hsame ▸ List.prefix_rfl⟩
  | false =>
    rw [receive_eq] at herror
    cases hreception : s.reception chunk with
    | ok _ left =>
      rw [hreception] at herror
      cases herror
    | error e left =>
      obtain ⟨r₁, r⟩ := left
      obtain ⟨r₂, rest, hfeed⟩ := (h.receivers hhalted).feed_of_error hreception
      rw [← h.reception_eq] at hfeed
      rw [hreception] at herror
      cases herror
      refine ⟨?_, ?_⟩
      · rw [receiver_settle]
        split
        · rfl
        · exact Receiver.halted_of_feed_error hreception
      · rw [stateOf_receive, hfeed, board_settle, board_settle]
        exact hlog.after s.settings.board rest r

/-- **As long as the session takes every chunk that aborts, the other one does, too, and they stay
abreast.** -/
theorem receiveAll (h : Abreast settings s₀ t₀ s t) {chunks : List Bytes} {s' : Session B}
    (hok : Session.receiveAll chunks s = .ok () s') :
    ∃ t', Session.receiveAll chunks t = .ok () t' ∧ Abreast settings s₀ t₀ s' t' := by
  induction chunks generalizing s t with
  | nil =>
    cases hok
    exact ⟨t, rfl, h⟩
  | cons chunk chunks ih =>
    rw [receiveAll_cons, EStateM.bind] at hok
    cases hchunk : Session.receive chunk s with
    | error e s₁ =>
      rw [hchunk] at hok
      cases hok
    | ok _ s₁ =>
      rw [hchunk] at hok
      obtain ⟨t₁, ht₁, h₁⟩ := h.receive_ok hchunk
      obtain ⟨t', ht', h'⟩ := ih h₁ hok
      refine ⟨t', ?_, h'⟩
      rw [receiveAll_cons, EStateM.bind, ht₁]
      exact ht'

/-- **The log of the session that aborts is the front of the log of the other one**, whatever chunks
come. -/
theorem prefix_log (hlog : Board.Logs log) (h : Abreast settings s₀ t₀ s t)
    (chunks : List Bytes) :
    log (s.receiveEach chunks).board <+: log (t.receiveEach chunks).board := by
  induction chunks generalizing s t with
  | nil =>
    have hsame : log s.board = log t.board := congrArg log h.board
    exact hsame ▸ List.prefix_rfl
  | cons chunk chunks ih =>
    show log ((stateOf (Session.receive chunk s)).receiveEach chunks).board
      <+: log ((stateOf (Session.receive chunk t)).receiveEach chunks).board
    cases hchunk : Session.receive chunk s with
    | ok _ s₁ =>
      obtain ⟨t₁, ht₁, h₁⟩ := h.receive_ok hchunk
      rw [ht₁]
      exact ih h₁
    | error e s₁ =>
      -- from here on one session does nothing, and the log of the other one grows
      obtain ⟨hhalted, hfront⟩ := h.receive_error hlog hchunk
      show log (s₁.receiveEach chunks).board <+: _
      rw [receiveEach_of_halted hhalted]
      exact hfront.trans (log_receiveEach hlog (h.resyncs.receive chunk) chunks)

end Abreast

/-! ### Opened sessions -/

omit [Board B] in
theorem queue_enqueue (f : Queue → Except LinkError Queue) (s : Session B) :
    (stateOf (enqueue f s)).queue = (f s.queue).toOption.getD s.queue := by
  rw [enqueue_eq]
  cases f s.queue <;> rfl

omit [Board B] in
/-- The queue of an opened session depends on the greeting and on its capacity alone. -/
theorem queue_start (h : s.Sized settings) :
    let empty := Queue.empty settings.queueCapacity.toNat
    (stateOf (start s)).queue = (empty.send (greeting settings.versions)).toOption.getD empty := by
  intro empty
  have hcleared : s.cleared.queue = empty := congrArg Queue.empty h.capacity
  rw [start_eq, stateOf_send, queue_enqueue, hcleared, h.coherent.settings_eq]

omit [Board B] in
/-- Sessions that are opened on the same board start side by side. -/
theorem abreast_start (hs : s.Sized { settings with recovery := .abort })
    (ht : t.Sized { settings with recovery := .resync }) (hboard : s.board = t.board) :
    Abreast settings s t (stateOf (start s)) (stateOf (start t)) := by
  obtain ⟨added, hadded⟩ := stateOf_start s
  obtain ⟨added', hadded'⟩ := stateOf_start t
  have hqueue : (stateOf (start s)).queue = (stateOf (start t)).queue := by
    rw [queue_start hs, queue_start ht]
  refine ⟨hs.coherent.start, ht.coherent.start, ?_, hqueue, ?_, ?_, ?_, ?_⟩
  · rw [hadded, hadded']
    exact hboard
  · rw [hadded, hadded']
    rfl
  · rw [hadded, hadded']
    rfl
  · rw [hadded, hadded']
    exact Nat.add_comm _ _
  · rw [hadded, hadded']
    exact Nat.add_comm _ _

/-- **The two ways of recovery agree until the first failure.**  Two sessions whose settings differ
in nothing else are opened on the same virtual board and then take the same chunks.  Whatever fails,
the actions of the one that aborts are the first actions of the one that resynchronises.

If the one that aborts takes every chunk without failing, then so does the other one, and both end
with the same board, actions included, and the same queue, both halted or both running, and with the
same bytes of an unfinished message; and they have counted the same, if they had before they were
opened, as new sessions have. -/
theorem recoveries_agree {s t : Session VirtualBoard}
    (hs : s.Attainable { settings with recovery := .abort })
    (ht : t.Attainable { settings with recovery := .resync }) (hboard : s.board = t.board)
    (chunks : List Bytes) :
    let opened := stateOf (start s)
    let opened' := stateOf (start t)
    (opened.receiveEach chunks).board.actions <+: (opened'.receiveEach chunks).board.actions ∧
    ∀ s', receiveAll chunks opened = .ok () s' →
      ∃ t', receiveAll chunks opened' = .ok () t' ∧
        s'.board = t'.board ∧ s'.queue = t'.queue ∧
        s'.receiver.halted = t'.receiver.halted ∧ s'.receiver.held = t'.receiver.held ∧
        (s.receiver.decoded = t.receiver.decoded → s'.receiver.decoded = t'.receiver.decoded) ∧
        (s.receiver.dropped = t.receiver.dropped → s'.receiver.dropped = t'.receiver.dropped) := by
  intro opened opened'
  have habreast : Abreast settings s t opened opened' := abreast_start hs.sized ht.sized hboard
  refine ⟨habreast.prefix_log VirtualBoard.logs_actions chunks, fun s' hok => ?_⟩
  obtain ⟨t', ht', h⟩ := habreast.receiveAll hok
  refine ⟨t', ht', h.board, h.queue, h.halted, h.held, fun hsame => ?_, fun hsame => ?_⟩
  · have hdecoded := h.decoded
    omega
  · have hdropped := h.dropped
    omega

/-- The theorem for two new sessions: for chunks that are taken, and for chunks with a byte between
two commands that is no tag, after which only one of the sessions goes on. -/
theorem recoveries_agree_of_new :
    let s : Session VirtualBoard :=
      .new { Settings.standard with recovery := .abort } (.new .standard)
    let t : Session VirtualBoard :=
      .new { Settings.standard with recovery := .resync } (.new .standard)
    let opened := stateOf (start s)
    let opened' := stateOf (start t)
    let taken : List Bytes := [[0x01, 0x05], [0x15]]
    let stray : List Bytes := [[0x01, 0xFF], [0x01]]
    s.Attainable { Settings.standard with recovery := .abort } ∧
      t.Attainable { Settings.standard with recovery := .resync } ∧ s.board = t.board ∧
      (opened.receiveEach stray).board.actions <+: (opened'.receiveEach stray).board.actions ∧
      (opened.receiveEach stray).board.actions ≠ (opened'.receiveEach stray).board.actions ∧
      ∃ s' t', receiveAll taken opened = .ok () s' ∧ receiveAll taken opened' = .ok () t' ∧
        s'.board = t'.board ∧ s'.receiver.decoded = t'.receiver.decoded := by
  intro s t opened opened' taken stray
  have hs : s.Attainable { Settings.standard with recovery := .abort } :=
    ⟨Recorder, inferInstance, .new .standard, .immediate, [], rfl⟩
  have ht : t.Attainable { Settings.standard with recovery := .resync } :=
    ⟨Recorder, inferInstance, .new .standard, .immediate, [], rfl⟩
  have hok : receiveAll taken opened = .ok () (stateOf (receiveAll taken opened)) :=
    eq_ok_of_errorOf (by decide +kernel)
  obtain ⟨hfront, -⟩ := recoveries_agree hs ht rfl stray
  obtain ⟨-, hagree⟩ := recoveries_agree hs ht rfl taken
  obtain ⟨t', ht', hboard, -, -, -, hdecoded, -⟩ := hagree _ hok
  exact ⟨hs, ht, rfl, hfront, by decide +kernel, _, t', hok, ht', hboard, hdecoded rfl⟩

end Session
end PinBridge
