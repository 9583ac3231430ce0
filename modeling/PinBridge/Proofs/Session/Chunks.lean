/-
PinBridge/Proofs/Session/Chunks.lean

Where the host's stream is cut into chunks does not matter to a session.

A receiver that fails in the middle of a chunk stays halted, and so does one
that a hard reset has ended: whatever comes in further chunks is then refused.
In one chunk a hard reset does not stop the receiver, but from there on nothing
is carried out (`idle_of_ended`).  So the two differ in what is counted
and reported, and in nothing else (`Session.Effects`).

Main statement: `receive_chunks`.
-/
import PinBridge.Board.Virtual
import PinBridge.Proofs.Receiver.Idle
import PinBridge.Proofs.Session.Boards

namespace PinBridge

variable {B : Type}

/-- What a session has done to its surroundings, and what it still holds. -/
structure Session.Effects (B : Type) where
  board : B
  queue : Queue
  transmitter : Transmitter
  halted : Bool
  /-- The bytes of an unfinished message. -/
  held : Bytes

namespace Session

/-- What a session comes to, its counters left out. -/
def effects (s : Session B) : Effects B :=
  ⟨s.board, s.queue, s.transmitter, s.receiver.halted, s.receiver.held⟩

/-- Where the receiver of a session that has ended stands does not matter. -/
theorem effects_settle_of_ended {r : Reception B} (hended : r.ended = true) (s : Session B)
    (receiver receiver' : Receiver) :
    (s.settle receiver r).effects = (s.settle receiver' r).effects := by
  simp only [effects, board_settle, queue_settle, transmitter_settle, receiver_settle, hended,
    if_true]
  rfl

/-- A session that has not ended goes on where it stands. -/
theorem settle_settle {r : Reception B} (hended : r.ended = false) (s : Session B)
    (receiver receiver' : Receiver) (r' : Reception B) :
    (s.settle receiver r).settle receiver' r' = s.settle receiver' r' := by
  unfold settle
  rw [hended]
  cases r'.ended <;> rfl

/-- What has been counted does not change when a session settles. -/
theorem counts_settle (s : Session B) (receiver : Receiver) (r : Reception B) :
    (s.settle receiver r).receiver.decoded = receiver.decoded ∧
      (s.settle receiver r).receiver.dropped = receiver.dropped := by
  rw [receiver_settle]
  split
  · exact ⟨rfl, rfl⟩
  · exact ⟨rfl, rfl⟩

variable [Board B] {settings : Settings} {s : Session B}

/-- Take chunks one after the other, whether they fail or not. -/
def receiveEach (chunks : List Bytes) (s : Session B) : Session B :=
  chunks.foldl (fun s chunk => stateOf (receive chunk s)) s

/-! ### One chunk -/

/-- Whether these bytes end the session if they come as one chunk. -/
def ends (s : Session B) (bs : Bytes) : Bool := (stateOf (s.reception bs)).2.ended

/-- A halted session refuses a chunk, and stays as it is. -/
theorem receive_eq_of_halted (h : s.receiver.halted = true) (chunk : Bytes) :
    receive chunk s = .error (.stream .halted) s := by
  rw [receive_eq, reception, Receiver.feed_of_halted h]
  rfl

theorem receive_of_halted (h : s.receiver.halted = true) (chunk : Bytes) :
    stateOf (receive chunk s) = s := by
  rw [receive_eq_of_halted h]
  rfl

theorem reception_nil (h : s.receiver.halted = false) :
    s.reception [] = .ok () (s.receiver, s.opening) := by
  rw [reception, Receiver.feed_of_running h, Receiver.consume_nil]

/-- An empty chunk changes nothing. -/
theorem receive_nil (h : s.receiver.halted = false) : receive [] s = .ok () s := by
  rw [receive_eq, reception_nil h]
  rfl

/-- Once a hard reset has ended the session, nothing is carried out. -/
theorem idle_of_ended (limits : BoardLimits) {r : Reception B} (hended : r.ended = true) :
    (Reception.handle limits).Idle r := Reception.handle_of_ended hended

/-- Behind the end of the session a chunk comes to what its receiver comes to, and the session is
what it was when it ended, but for the counts. -/
theorem settle_behind_end {ended : Reception B} (hended : ended.ended = true) (s : Session B)
    (r : Receiver) (bytes : Bytes) :
    let seen := Receiver.consume .stream (Reception.handle s.settings.board) bytes r ended
    let result := mapState (fun left => s.settle left.1 left.2) seen
    errorOf result = errorOf seen ∧ stateOf result = s.settle (stateOf seen).1 ended ∧
      (stateOf result).receiver.decoded = (stateOf seen).1.decoded ∧
      (stateOf result).receiver.dropped = (stateOf seen).1.dropped := by
  intro seen result
  -- whatever is seen, the handler stays as the reset has left it
  have hidle : (Reception.handle s.settings.board).Idle ended := idle_of_ended _ hended
  have hsame : (stateOf seen).2 = ended :=
    Receiver.stateOf_consume_idle hidle SessionError.stream bytes r
  have hstate : stateOf result = s.settle (stateOf seen).1 ended := by
    rw [show result = mapState _ seen from rfl, stateOf_mapState, hsame]
  obtain ⟨hdecoded, hdropped⟩ := counts_settle s (stateOf seen).1 ended
  rw [hstate]
  exact ⟨errorOf_mapState _ _, rfl, hdecoded, hdropped⟩

/-! ### Two chunks -/

/-- Up to the end of the session, the rest of a chunk goes on where its front ended. -/
theorem reception_append (h : s.Coherent settings) (hhalted : s.receiver.halted = false)
    (a b : Bytes) :
    s.reception (a ++ b) =
      match s.reception a with
      | .ok () left => Receiver.feed .stream (Reception.handle s.settings.board) b left
      | .error e left => .error e left := by
  have happend : s.reception (a ++ b)
      = EStateM.bind (Receiver.feed .stream (Reception.handle s.settings.board) a)
        (fun _ => Receiver.feed .stream (Reception.handle s.settings.board) b)
        (s.receiver, s.opening) :=
    Receiver.feed_append h.receiver hhalted a b s.opening
  rw [happend, EStateM.bind]
  cases hfirst : s.reception a with
  | ok _ left =>
    rw [reception] at hfirst
    simp only [hfirst]
  | error e left =>
    rw [reception] at hfirst
    simp only [hfirst]

/-- The chunk after one that has not ended the session is received where that one ended. -/
theorem reception_settle {r : Reception B} (hended : r.ended = false) (s : Session B)
    (receiver : Receiver) (chunk : Bytes) :
    (s.settle receiver r).reception chunk
      = Receiver.feed .stream (Reception.handle s.settings.board) chunk (receiver, r) := by
  have hopening : (s.settle receiver r).opening = r := by
    obtain ⟨bench, ended⟩ := r
    cases hended
    rfl
  rw [reception, settings_settle, receiver_settle, hopening, hended]
  rfl

/-- A chunk after one that has not ended the session is the rest of one chunk. -/
theorem receive_append (h : s.Coherent settings) (hhalted : s.receiver.halted = false)
    {receiver : Receiver} {r : Reception B} {a : Bytes}
    (ha : s.reception a = .ok () (receiver, r)) (hended : r.ended = false) (b : Bytes) :
    receive (a ++ b) s = receive b (s.settle receiver r) := by
  rw [receive_eq, receive_eq, reception_settle hended, reception_append h hhalted, ha]
  show mapState _ (Receiver.feed _ _ b (receiver, r)) =
    mapState _ (Receiver.feed _ _ b (receiver, r))
  simp only [settle_settle hended]

/-- Two chunks come to what one does. -/
theorem effects_receive_append (h : s.Coherent settings) (a b : Bytes) :
    (stateOf (receive b (stateOf (receive a s)))).effects
      = (stateOf (receive (a ++ b) s)).effects := by
  cases hhalted : s.receiver.halted with
  | true => rw [receive_of_halted hhalted, receive_of_halted hhalted, receive_of_halted hhalted]
  | false =>
    rw [stateOf_receive a]
    cases hfirst : s.reception a with
    | error e left =>
      obtain ⟨receiver, r⟩ := left
      -- the rest of the one chunk is not looked at, and the second chunk is refused
      have hstopped : receiver.halted = true := Receiver.halted_of_feed_error hfirst
      have hrefuses : (s.settle receiver r).receiver.halted = true := by
        rw [receiver_settle]
        split
        · rfl
        · exact hstopped
      rw [stateOf_receive (a ++ b), reception_append h hhalted, hfirst]
      exact congrArg effects (receive_of_halted hrefuses b)
    | ok _ left =>
      obtain ⟨receiver, r⟩ := left
      cases hended : r.ended with
      | false => rw [receive_append h hhalted hfirst hended, stateOf]
      | true =>
        -- the rest of the one chunk is received and not carried out
        have hrefuses : (s.settle receiver r).receiver.halted = true := by
          rw [receiver_settle, hended]
          rfl
        have hsame := Receiver.stateOf_feed_idle (idle_of_ended s.settings.board hended)
          SessionError.stream b receiver
        rw [stateOf_receive (a ++ b), reception_append h hhalted, hfirst]
        show (stateOf (receive b (s.settle receiver r))).effects
          = (s.settle _ (stateOf (Receiver.feed _ _ b (receiver, r))).2).effects
        rw [receive_of_halted hrefuses, hsame]
        exact effects_settle_of_ended hended s _ _

/-- Chunks one after the other come to what they come to as one. -/
theorem effects_receiveEach (h : s.Coherent settings) (chunks : List Bytes) :
    (s.receiveEach chunks).effects = (stateOf (receive chunks.flatten s)).effects := by
  induction chunks generalizing s with
  | nil =>
    -- an empty chunk changes nothing, be it refused or not
    cases hhalted : s.receiver.halted with
    | true => exact (congrArg effects (receive_of_halted hhalted [])).symm
    | false =>
      rw [List.flatten_nil, receive_nil hhalted]
      rfl
  | cons chunk chunks ih =>
    rw [List.flatten_cons, ← effects_receive_append h chunk chunks.flatten]
    exact ih (h.receive chunk)

/-- A watched session takes chunks as one that is not watched. -/
theorem unwatched_receiveEach (chunks : List Bytes) (s : Session (Monitored B)) :
    (s.receiveEach chunks).unwatched = s.unwatched.receiveEach chunks := by
  induction chunks generalizing s with
  | nil => rfl
  | cons chunk chunks ih =>
    have hchunk : (stateOf (receive chunk s)).unwatched = stateOf (receive chunk s.unwatched) :=
      (SessionEvent.apply_unwatched (.receive chunk) s).symm
    show ((stateOf (receive chunk s)).receiveEach chunks).unwatched
      = (stateOf (receive chunk s.unwatched)).receiveEach chunks
    rw [ih, hchunk]

/-- **However the host's stream is cut into chunks, a session comes to the same**, whatever fails
and wherever a hard reset lies: the same board and the same queue, the same span on its way, halted
or not, and with the same bytes of an unfinished message.  The calls on the board are the same, too,
in the same order: that is the same statement about the session on a watched board, which does what
it does unwatched. -/
theorem receive_chunks (h : s.Reachable settings) {first second : List Bytes}
    (hflatten : first.flatten = second.flatten) :
    (s.receiveEach first).effects = (s.receiveEach second).effects ∧
    (s.watched.receiveEach first).effects = (s.watched.receiveEach second).effects ∧
    ∀ chunks, (s.watched.receiveEach chunks).unwatched = s.receiveEach chunks := by
  have hcoherent : s.Coherent settings := h.coherent
  have hwatched : s.watched.Coherent settings :=
    ⟨hcoherent.settings_eq, hcoherent.recovery_eq, hcoherent.reachable⟩
  refine ⟨?_, ?_, fun chunks => ?_⟩
  · rw [effects_receiveEach hcoherent, effects_receiveEach hcoherent, hflatten]
  · rw [effects_receiveEach hwatched, effects_receiveEach hwatched, hflatten]
  · rw [unwatched_receiveEach, unwatched_watched]

/-- The theorem for a hard reset that ends in the middle of a chunk, with a byte behind it that is
no tag: in one chunk that byte stops the receiver, in two it is refused. -/
theorem receive_chunks_reset :
    let s : Session VirtualBoard := .new .standard (.new .standard)
    let first : List Bytes := [[0x01, 0x00, 0x49], [0x4F, 0x49, 0x4F, 0xFF]]
    let second : List Bytes := [[0x01, 0x00, 0x49, 0x4F, 0x49, 0x4F], [], [0xFF]]
    s.Reachable .standard ∧ first.flatten = second.flatten ∧
      (s.receiveEach first).effects = (s.receiveEach second).effects ∧
      (s.watched.receiveEach first).effects = (s.watched.receiveEach second).effects := by
  intro s first second
  have hs : s.Reachable .standard := ⟨.new .standard, [], rfl⟩
  have hflatten : first.flatten = second.flatten := rfl
  obtain ⟨heffects, hwatched, -⟩ := receive_chunks hs hflatten
  exact ⟨hs, hflatten, heffects, hwatched⟩

end Session
end PinBridge
