/-
PinBridge/Proofs/Receiver/Arrivals.lean

A stream of whole messages, as far as it has arrived.

Of messages that are sent one after the other some are complete after a number
of bytes, and of the next one a front is there (`completedBy`, `exists_tail`).
A receiver that is fed such a stream hands over the messages that become
complete and holds the front of the next one, wherever the chunks end.

A handler takes messages in turn if none is refused: that is
`messages.forM handle s = .ok () s'`.  If one is refused, then so it is when the
receiver hands it over, and a record of all errors shows it (`audited`).

Main statements: `Reachable.feed_arrived` and `Reachable.mem_errors`.
-/
import PinBridge.Proofs.Receiver.Standing

namespace PinBridge

variable {d : Direction} {ε σ : Type}

/-! ### What is complete -/

/-- The messages at the front that are complete when so many bytes have arrived. -/
def completedBy : Nat → List (Received d) → List (Received d)
  | _, [] => []
  | n, received :: rest =>
    if received.wire.length ≤ n then received :: completedBy (n - received.wire.length) rest else []

section CompletedBy

variable {n m : Nat} {received : Received d} {messages : List (Received d)}

theorem completedBy_cons_of_le (h : received.wire.length ≤ n) :
    completedBy n (received :: messages)
      = received :: completedBy (n - received.wire.length) messages := if_pos h

theorem completedBy_cons_of_lt (h : n < received.wire.length) :
    completedBy n (received :: messages) = [] := if_neg (Nat.not_le_of_lt h)

/-- Before anything has arrived nothing is complete. -/
theorem completedBy_zero (hmessages : ∀ received ∈ messages, received.Genuine) :
    completedBy 0 messages = [] := by
  cases messages with
  | nil => rfl
  | cons received messages =>
    obtain ⟨hblock, htrailer⟩ := hmessages received List.mem_cons_self
    exact completedBy_cons_of_lt (Nat.succ_pos _)

theorem completedBy_prefix_messages (n : Nat) (messages : List (Received d)) :
    completedBy n messages <+: messages := by
  induction messages generalizing n with
  | nil => exact List.prefix_rfl
  | cons received messages ih =>
    by_cases h : received.wire.length ≤ n
    · rw [completedBy_cons_of_le h]
      exact (List.prefix_cons_inj received).2 (ih _)
    · rw [completedBy_cons_of_lt (Nat.lt_of_not_le h)]
      exact List.nil_prefix

theorem mem_of_mem_completedBy (h : received ∈ completedBy n messages) : received ∈ messages :=
  (completedBy_prefix_messages n messages).subset h

/-- What is complete later is what is complete already and what becomes complete of the rest. -/
theorem completedBy_of_le (h : n ≤ m) (messages : List (Received d)) :
    completedBy m messages = completedBy n messages
      ++ completedBy (m - ((completedBy n messages).flatMap Received.wire).length)
          (messages.drop (completedBy n messages).length) := by
  induction messages generalizing n m with
  | nil => rfl
  | cons received messages ih =>
    by_cases hle : received.wire.length ≤ n
    · rw [completedBy_cons_of_le hle, completedBy_cons_of_le (Nat.le_trans hle h),
        ih (Nat.sub_le_sub_right h _), List.flatMap_cons, List.length_append, Nat.sub_sub]
      rfl
    · -- nothing was complete, so the rest is everything
      rw [completedBy_cons_of_lt (Nat.lt_of_not_le hle)]
      rfl

/-- What is complete later, if what has arrived already is complete but for what is held. -/
theorem completedBy_append {arrived held chunk : Bytes}
    (hheld : (completedBy arrived.length messages).flatMap Received.wire ++ held = arrived)
    (harrived : arrived ++ chunk <+: messages.flatMap Received.wire) :
    let awaited := messages.drop (completedBy arrived.length messages).length
    held ++ chunk <+: awaited.flatMap Received.wire ∧
      completedBy (arrived ++ chunk).length messages
        = completedBy arrived.length messages ++ completedBy (held ++ chunk).length awaited := by
  intro awaited
  have hle : arrived.length ≤ (arrived ++ chunk).length := by
    rw [List.length_append]
    omega
  have hlater := completedBy_of_le hle messages
  have hsplit : completedBy arrived.length messages ++ awaited = messages :=
    List.prefix_iff_eq_append.1 (completedBy_prefix_messages arrived.length messages)
  have hbytes : arrived ++ chunk
      = (completedBy arrived.length messages).flatMap Received.wire ++ (held ++ chunk) := by
    rw [← List.append_assoc, hheld]
  have hrest : (arrived ++ chunk).length
      - ((completedBy arrived.length messages).flatMap Received.wire).length
        = (held ++ chunk).length := by
    rw [hbytes, List.length_append, Nat.add_sub_cancel_left]
  have hstream : messages.flatMap Received.wire
      = (completedBy arrived.length messages).flatMap Received.wire
        ++ awaited.flatMap Received.wire := by
    rw [← List.flatMap_append, hsplit]
  rw [hbytes, hstream] at harrived
  rw [hlater, hrest]
  exact ⟨(List.prefix_append_right_inj _).1 harrived, rfl⟩

end CompletedBy

/-- The front of a message that is not all there is no segment, but a tail. -/
theorem Received.Genuine.segmented_front {received : Received d} (h : received.Genuine)
    {front : Bytes} (hfront : front <+: received.wire)
    (hshort : front.length < received.wire.length) : Segmented d front [] front := by
  cases h with
  | @intro kind block trailer hblock htrailer =>
    cases front with
    | nil => exact .nothing
    | cons b taken =>
      obtain ⟨rfl, htaken⟩ := List.cons_prefix_cons.1 hfront
      rw [Receiver.length_message, List.length_cons] at hshort
      by_cases hlong : taken.length < kind.blockLength d
      · exact .shortBlock hlong
      · -- the fixed block is there, so it is the trailer that is not
        obtain ⟨rest, rfl⟩ : block <+: taken :=
          List.prefix_of_prefix_length_le (List.prefix_append block trailer) htaken (by omega)
        rw [List.length_append] at hshort
        exact .shortTrailer hblock (by omega)

/-- What has arrived are the messages that are complete, and a front of the next one. -/
theorem exists_tail {messages : List (Received d)}
    (hmessages : ∀ received ∈ messages, received.Genuine) {arrived : Bytes}
    (harrived : arrived <+: messages.flatMap Received.wire) :
    ∃ tail, (completedBy arrived.length messages).flatMap Received.wire ++ tail = arrived ∧
      Segmented d tail [] tail := by
  induction messages generalizing arrived with
  | nil =>
    rw [List.flatMap_nil, List.prefix_nil] at harrived
    exact ⟨[], harrived.symm, .nothing⟩
  | cons received messages ih =>
    obtain ⟨hreceived, hrest⟩ := List.forall_mem_cons.1 hmessages
    rw [List.flatMap_cons] at harrived
    by_cases hle : received.wire.length ≤ arrived.length
    · obtain ⟨behind, rfl⟩ : received.wire <+: arrived :=
        List.prefix_of_prefix_length_le (List.prefix_append _ _) harrived hle
      obtain ⟨tail, htail, hunfinished⟩ := ih hrest ((List.prefix_append_right_inj _).1 harrived)
      refine ⟨tail, ?_, hunfinished⟩
      rw [completedBy_cons_of_le hle, List.length_append, Nat.add_sub_cancel_left,
        List.flatMap_cons, List.append_assoc, htail]
    · have hshort : arrived.length < received.wire.length := Nat.lt_of_not_le hle
      have hfront : arrived <+: received.wire :=
        List.prefix_of_prefix_length_le harrived (List.prefix_append _ _) (Nat.le_of_lt hshort)
      rw [completedBy_cons_of_lt hshort]
      exact ⟨arrived, rfl, hreceived.segmented_front hfront hshort⟩

/-! ### Errors -/

namespace Handler

variable {τ : Type} {handle : Handler d ε σ}

/-- The handler that also keeps all errors that it gives. -/
def audited (handle : Handler d ε σ) : Handler d ε (σ × List ε) := fun received (s, errors) =>
  match handle received s with
  | .ok () s => .ok () (s, errors)
  | .error e s => .error e (s, errors ++ [e])

/-- Where a handler follows another one, it gives the same errors. -/
theorem Follows.audited {f : σ → τ} {image : Handler d ε τ} (h : Handler.Follows f image handle) :
    Handler.Follows (Prod.map f id) image.audited handle.audited := by
  rintro received ⟨s, errors⟩
  show image.audited received (f s, errors) = _
  simp only [Handler.audited, h received s]
  cases handle received s <;> rfl

/-- An error that is kept stays. -/
theorem keeps_mem_audited (handle : Handler d ε σ) (e : ε) :
    handle.audited.Keeps fun p => e ∈ p.2 := by
  rintro received ⟨s, errors⟩ - hmem
  simp only [Handler.audited]
  cases handle received s with
  | ok _ s' => exact hmem
  | error e' s' => exact List.mem_append_left _ hmem

/-- Messages in turn: the first one, and then the others. -/
theorem forM_cons (handle : Handler d ε σ) (received : Received d) (messages : List (Received d))
    (s : σ) : (received :: messages).forM handle s
      = EStateM.bind (handle received) (fun _ => messages.forM handle) s := rfl

end Handler

/-! ### Receiving -/

namespace Receiver

variable {ofStream : StreamError → ε} {handle : Handler d ε σ} {r : Receiver}
  {messages : List (Received d)}

/-- A message that is taken is counted, and done with. -/
theorem consume_taken (ofStream : StreamError → ε) {received : Received d}
    (h : received.Genuine) {s s' : σ} (htaken : handle received s = .ok () s') (rest : Bytes)
    (r : Receiver) :
    ∃ r' : Receiver, r'.decoded = r.decoded + 1 ∧ r'.dropped = r.dropped ∧
      r'.halted = r.halted ∧
      consume ofStream handle (received.wire ++ rest) r.restart s
        = consume ofStream handle rest r'.restart s' := by
  cases h with
  | @intro kind block trailer hblock htrailer =>
    have htaken' : handle ⟨d.parse kind block trailer,
        (Segment.message kind block trailer).bytes⟩ s = .ok () s' := htaken
    refine ⟨(r.restart.inTrailer d kind block trailer).complete, rfl, rfl, rfl, ?_⟩
    rw [consume_message hblock htrailer, deliver, htaken']
    rfl

/-- Messages that are taken in turn are handed over in turn. -/
theorem consume_forM (ofStream : StreamError → ε)
    (hmessages : ∀ received ∈ messages, received.Genuine) {s s' : σ}
    (htaken : messages.forM handle s = .ok () s') (rest : Bytes) (r : Receiver) :
    ∃ r' : Receiver, r'.decoded = r.decoded + messages.length ∧ r'.dropped = r.dropped ∧
      r'.halted = r.halted ∧
      consume ofStream handle (messages.flatMap Received.wire ++ rest) r.restart s
        = consume ofStream handle rest r'.restart s' := by
  induction messages generalizing r s with
  | nil =>
    cases htaken
    exact ⟨r, rfl, rfl, rfl, rfl⟩
  | cons received messages ih =>
    obtain ⟨hreceived, hrest⟩ := List.forall_mem_cons.1 hmessages
    rw [Handler.forM_cons, EStateM.bind] at htaken
    cases hfirst : handle received s with
    | error e s₁ =>
      rw [hfirst] at htaken
      cases htaken
    | ok _ s₁ =>
      rw [hfirst] at htaken
      obtain ⟨r₁, hdecoded, hdropped, hhalted, hconsume⟩ := consume_taken ofStream hreceived hfirst
        (messages.flatMap Received.wire ++ rest) r
      obtain ⟨r₂, hdecoded', hdropped', hhalted', hafter⟩ := ih hrest htaken r₁
      refine ⟨r₂, ?_, hdropped'.trans hdropped, hhalted'.trans hhalted, ?_⟩
      · rw [hdecoded', hdecoded, List.length_cons]
        omega
      · rw [List.flatMap_cons, List.append_assoc, hconsume, hafter]

/-- A tail is held. -/
theorem consume_tail (ofStream : StreamError → ε) (handle : Handler d ε σ) {tail : Bytes}
    (h : Segmented d tail [] tail) (r : Receiver) (s : σ) :
    ∃ r' : Receiver, r'.held = tail ∧ r'.halted = r.halted ∧
      consume ofStream handle tail r.restart s = .ok () (r', s) := by
  cases h with
  | nothing => exact ⟨r.restart, rfl, rfl, consume_nil _ _⟩
  | shortBlock hshort =>
    exact ⟨r.restart.inBlock _ _ _, held_inBlock (Nat.le_of_lt hshort), rfl,
      consume_inBlock hshort r s⟩
  | shortTrailer hblock hshort =>
    exact ⟨r.restart.inTrailer _ _ _ _, held_inTrailer hblock (Nat.le_of_lt hshort), rfl,
      consume_inTrailer hblock hshort r s⟩

/-- A message that is refused is handed over, and its error is kept. -/
theorem mem_consume_refused (ofStream : StreamError → ε) {received : Received d}
    (h : received.Genuine) {s s' : σ} {e : ε} (hrefused : handle received s = .error e s')
    (rest : Bytes) (hrunning : r.halted = false) (errors : List ε) :
    e ∈ (stateOf (consume ofStream handle.audited (received.wire ++ rest) r.restart
      (s, errors))).2.2 := by
  cases h with
  | @intro kind block trailer hblock htrailer =>
    have hrefused' : handle ⟨d.parse kind block trailer,
        (Segment.message kind block trailer).bytes⟩ s = .error e s' := hrefused
    have haudited : handle.audited ⟨d.parse kind block trailer,
        (Segment.message kind block trailer).bytes⟩ (s, errors) = .error e (s', errors ++ [e]) := by
      rw [Handler.audited, hrefused']
    have hmem : e ∈ ((s', errors ++ [e]) : σ × List ε).2 :=
      List.mem_append_right _ (List.mem_singleton.2 rfl)
    let complete : Receiver := (r.restart.inTrailer d kind block trailer).complete
    have hrecovery : complete.recovery = r.recovery := rfl
    rw [consume_message hblock htrailer, deliver, haudited]
    show e ∈ (stateOf (andThen (complete.fail e (s', errors ++ [e]))
      (consume ofStream handle.audited rest))).2.2
    -- the receiver stops there, or goes on and keeps the error
    cases hcase : r.recovery with
    | abort =>
      rw [fail_of_abort (hrecovery.trans hcase)]
      exact hmem
    | resync =>
      have hcoherent : Coherent d complete.skip.restart := coherent_of_restart rfl
      rw [fail_of_resync (hrecovery.trans hcase)]
      exact hcoherent.keeps_consume hrunning (Handler.keeps_mem_audited handle e) hmem

/-- The error at which messages in turn stop is kept when they are handed over. -/
theorem mem_consume_audited (ofStream : StreamError → ε)
    (hmessages : ∀ received ∈ messages, received.Genuine) {s s' : σ} {e : ε}
    (hrefused : messages.forM handle s = .error e s') (rest : Bytes) (hrunning : r.halted = false)
    (errors : List ε) :
    e ∈ (stateOf (consume ofStream handle.audited (messages.flatMap Received.wire ++ rest)
      r.restart (s, errors))).2.2 := by
  induction messages generalizing r s with
  | nil => cases hrefused
  | cons received messages ih =>
    obtain ⟨hreceived, hrest⟩ := List.forall_mem_cons.1 hmessages
    rw [Handler.forM_cons, EStateM.bind] at hrefused
    rw [List.flatMap_cons, List.append_assoc]
    cases hfirst : handle received s with
    | ok _ s₁ =>
      rw [hfirst] at hrefused
      have htaken : handle.audited received (s, errors) = .ok () (s₁, errors) := by
        rw [Handler.audited, hfirst]
      obtain ⟨r₁, -, -, hhalted, hconsume⟩ := consume_taken ofStream hreceived htaken
        (messages.flatMap Received.wire ++ rest) r
      rw [hconsume]
      exact ih hrest hrefused (hhalted.trans hrunning)
    | error e₁ s₁ =>
      -- here the loop stops; the receiver may go on, but the error is kept
      rw [hfirst] at hrefused
      cases hrefused
      exact mem_consume_refused ofStream hreceived hfirst _ hrunning errors

/-- **A receiver that is fed a stream of messages hands over those that become complete**, and holds
the front of the next one. -/
theorem Reachable.feed_arrived (h : Reachable d r) (hrunning : r.halted = false)
    (ofStream : StreamError → ε) (hmessages : ∀ received ∈ messages, received.Genuine)
    {chunk : Bytes} (harrived : r.held ++ chunk <+: messages.flatMap Received.wire) {s s' : σ}
    (htaken : (completedBy (r.held ++ chunk).length messages).forM handle s = .ok () s') :
    ∃ r' : Receiver, Receiver.feed ofStream handle chunk (r, s) = .ok () (r', s') ∧
      r'.halted = false ∧
      (completedBy (r.held ++ chunk).length messages).flatMap Received.wire ++ r'.held
        = r.held ++ chunk := by
  -- what is held and the chunk are read from between two messages
  obtain ⟨tail, htail, hunfinished⟩ := exists_tail hmessages harrived
  have hcompleted : ∀ received ∈ completedBy (r.held ++ chunk).length messages,
      received.Genuine := fun received hmem =>
    hmessages received (mem_of_mem_completedBy hmem)
  obtain ⟨r₁, -, -, hhalted, hconsume⟩ := consume_forM ofStream hcompleted htaken tail r
  obtain ⟨r₂, hheld, hhalted', hrest⟩ := consume_tail ofStream handle hunfinished r₁ s'
  refine ⟨r₂, ?_, hhalted'.trans (hhalted.trans hrunning), ?_⟩
  · rw [feed_of_running hrunning, h.consume_eq_restart hrunning, ← htail, hconsume, hrest]
  · rw [hheld, htail]

/-- **A message that is refused when messages are taken in turn is refused when they arrive.** -/
theorem Reachable.mem_errors (h : Reachable d r) (hrunning : r.halted = false)
    (ofStream : StreamError → ε) (hmessages : ∀ received ∈ messages, received.Genuine)
    {chunk : Bytes} (harrived : r.held ++ chunk <+: messages.flatMap Received.wire) {s s' : σ}
    {e : ε}
    (hrefused : (completedBy (r.held ++ chunk).length messages).forM handle s = .error e s') :
    e ∈ (stateOf (Receiver.feed ofStream handle.audited chunk (r, s, []))).2.2 := by
  obtain ⟨tail, htail, -⟩ := exists_tail hmessages harrived
  have hcompleted : ∀ received ∈ completedBy (r.held ++ chunk).length messages,
      received.Genuine := fun received hmem =>
    hmessages received (mem_of_mem_completedBy hmem)
  rw [feed_of_running hrunning, h.consume_eq_restart hrunning, ← htail]
  exact mem_consume_audited ofStream hcompleted hrefused tail hrunning []

end Receiver
end PinBridge
