/-
PinBridge/Proofs/Session/Tries.lean

What a producer tries, whoever else has its turn in between.

A sender tries the messages that it was given, from the first one on.  A
dispatcher tries, command by command, the echo and behind an echo that was
accepted the report (`Answered`); what the report says is what the board says,
which only the commands of this dispatcher have changed (`Dispatched`).  It
leaves commands out for one reason only, that it has stopped (`Stops`).

So whatever others do to the queue, all that they can change is which tries are
accepted.

Main statements: `keeps_sending` and `keeps_dispatching`, which are about one
turn (`Producer.Keeps`).
-/
import PinBridge.Proofs.Session.Producers

namespace PinBridge

/-- A try is for the message, accepted or not. -/
theorem exists_attempt (message : Report) (put : Queue → Except LinkError Queue) (q : Queue) :
    ∃ q' accepted, attempt message put q = (q', ⟨message, accepted⟩) := by
  unfold attempt
  cases put q with
  | ok queue => exact ⟨queue, true, rfl⟩
  | error e => exact ⟨q, false, rfl⟩

variable {B : Type} [Board B]

/-! ### Commands -/

/-- These tries tell what the board says if it is asked, and this is what it is like then. -/
def Answer.Told (answer : Answer) (board : B) (tries : List Try) (board' : B) : Prop :=
  tries.map Try.message = (answer.ask board).1.toList ∧ (answer.ask board).2 = board'

/-- If nothing is asked, nothing is told. -/
theorem Answer.told_none {board board' : B} {tries : List Try} :
    Answer.none.Told board tries board' ↔ tries = [] ∧ board = board' :=
  and_congr_left' List.map_eq_nil_iff

/-- What is tried for a command, and what becomes of the board. -/
inductive Answered (limits : BoardLimits) (board : B) : Command → List Try → B → Prop
  | refused {command : Command} {e : Refusal} (haction : command.action limits = .error e) :
      Answered limits board command [] board
  | silent {command : Command} {a : Action} (haction : command.action limits = .ok a)
      (hsilent : command.echoed = false) :
      Answered limits board command [] (Board.perform a board)
  /-- Behind an echo that is refused no report is tried. -/
  | unechoed {m : TwoWay} {a : Action} (haction : (Command.twoWay m).action limits = .ok a)
      (hechoed : (Command.twoWay m).echoed = true) :
      Answered limits board (.twoWay m) [⟨.twoWay m, false⟩] (Board.perform a board)
  | echoed {m : TwoWay} {a : Action} {tries : List Try} {board' : B}
      (haction : (Command.twoWay m).action limits = .ok a)
      (hechoed : (Command.twoWay m).echoed = true)
      (htold : (Command.twoWay m).answer.Told (Board.perform a board) tries board') :
      Answered limits board (.twoWay m) (⟨.twoWay m, true⟩ :: tries) board'

/-! ### Dispatchers -/

namespace Dispatcher

/-- What a dispatcher tries that begins with these commands, and what becomes of its board: first
what it owes, and then one command after the other. -/
inductive Dispatched (d : Dispatcher B) : List WholeCommand → List Try → B → Prop
  | owed {tries : List Try} {board : B} (htold : d.owed.Told d.board tries board) :
      Dispatched d [] tries board
  | next {done : List WholeCommand} {received : WholeCommand} {tries more : List Try}
      {board board' : B} (h : Dispatched d done tries board)
      (hnext : Answered d.limits board received.1.message more board') :
      Dispatched d (done ++ [received]) (tries ++ more) board'

omit [Board B] in
/-- Why a dispatcher leaves the rest of its commands: it has carried out a hard reset, or it does
not go on behind a failure, and a command or a try was refused. -/
def Stops (d : Dispatcher B) (done : List WholeCommand) (tries : List Try) : Prop :=
  (∃ received ∈ done, received.1.message.endsSession = true ∧
      ∃ a, received.1.message.action d.limits = .ok a) ∨
    d.recovery = .abort ∧
      ((∃ received ∈ done, ∃ e, received.1.message.action d.limits = .error e) ∨
        ∃ tried ∈ tries, tried.accepted = false)

omit [Board B] in
/-- Further tries do not take the reason away. -/
theorem Stops.append {d : Dispatcher B} {done : List WholeCommand} {tries : List Try}
    (h : d.Stops done tries) (more : List Try) : d.Stops done (tries ++ more) := by
  refine h.imp_right (And.imp_right (Or.imp_right ?_))
  rintro ⟨tried, hmem, hrefused⟩
  exact ⟨tried, List.mem_append_left _ hmem, hrefused⟩

/-- How far a dispatcher has come: it has begun with the commands `done`, and with what it owes by
now the tries are those for them. -/
structure Progress (d now : Dispatcher B) (done : List WholeCommand) (tries : List Try) : Prop where
  limits : now.limits = d.limits
  recovery : now.recovery = d.recovery
  todo : done ++ now.todo = d.todo ∨ now.todo = [] ∧ done <+: d.todo ∧ d.Stops done tries
  dispatched : ∀ (told : List Try) (board : B), now.owed.Told now.board told board →
    d.Dispatched done (tries ++ told) board

namespace Progress

variable {d now now' : Dispatcher B} {done : List WholeCommand} {tries more : List Try}

theorem start (d : Dispatcher B) : d.Progress d [] [] where
  limits := rfl
  recovery := rfl
  todo := .inl rfl
  dispatched := fun _ _ htold => .owed htold

/-- Behind a failure a dispatcher goes on, or it has a reason not to. -/
theorem fail (h : d.Progress now done tries) (howed : now.owed = .none)
    (hstops : d.recovery = .abort → d.Stops done tries) : d.Progress now.fail done tries := by
  have hprefix : done <+: d.todo := by
    rcases h.todo with hall | ⟨-, hprefix, -⟩
    · exact ⟨now.todo, hall⟩
    · exact hprefix
  have hdispatched : ∀ (told : List Try) (board : B), Answer.none.Told now.board told board →
      d.Dispatched done (tries ++ told) board := howed ▸ h.dispatched
  unfold Dispatcher.fail
  cases hrecovery : now.recovery with
  | abort =>
    exact {
      limits := h.limits
      recovery := hrecovery.symm.trans h.recovery
      todo := .inr ⟨rfl, hprefix, hstops (h.recovery ▸ hrecovery)⟩
      dispatched := hdispatched }
  | resync =>
    exact {
      limits := h.limits
      recovery := hrecovery.symm.trans h.recovery
      todo := h.todo
      dispatched := hdispatched }

/-- A dispatcher that owes nothing begins with the next command. -/
theorem next (h : d.Progress now done tries) (howed : now.owed = .none)
    {received : WholeCommand} {rest : List WholeCommand} (htodo : now.todo = received :: rest)
    (hlimits : now'.limits = now.limits) (hrecovery : now'.recovery = now.recovery)
    (htodo' : now'.todo = rest ∨
      now'.todo = [] ∧ d.Stops (done ++ [received]) (tries ++ more))
    (hanswered : ∀ (told : List Try) (board : B), now'.owed.Told now'.board told board →
      Answered d.limits now.board received.1.message (more ++ told) board) :
    d.Progress now' (done ++ [received]) (tries ++ more) := by
  have hall : done ++ [received] ++ rest = d.todo := by
    rcases h.todo with hall | ⟨hnil, -⟩
    · rw [← hall, htodo, List.append_assoc, List.singleton_append]
    · cases hnil.symm.trans htodo
  have hsofar : d.Dispatched done tries now.board := by
    have htold : now.owed.Told now.board [] now.board := howed ▸ Answer.told_none.2 ⟨rfl, rfl⟩
    simpa using h.dispatched [] now.board htold
  refine ⟨hlimits.trans h.limits, hrecovery.trans h.recovery, ?_, fun told board htold => ?_⟩
  · rcases htodo' with hrest | ⟨hnil, hstops⟩
    · exact .inl (hrest ▸ hall)
    · exact .inr ⟨hnil, ⟨rest, hall⟩, hstops⟩
  · rw [List.append_assoc]
    exact .next hsofar (hanswered told board htold)

/-- A dispatcher that owes nothing fails with the next command. -/
theorem failNext (h : d.Progress now done tries) (howed : now.owed = .none)
    {received : WholeCommand} {rest : List WholeCommand} (htodo : now.todo = received :: rest)
    {board : B} (hanswered : Answered d.limits now.board received.1.message more board)
    (hstops : d.recovery = .abort → d.Stops (done ++ [received]) (tries ++ more)) :
    d.Progress ({ now with board, todo := rest } : Dispatcher B).fail (done ++ [received])
      (tries ++ more) := by
  have hnext : d.Progress { now with board, todo := rest } (done ++ [received]) (tries ++ more) :=
    h.next howed htodo rfl rfl (.inl rfl) fun told board' htold => by
      obtain ⟨rfl, rfl⟩ := Answer.told_none.1 (howed ▸ htold)
      rwa [List.append_nil]
  exact hnext.fail howed hstops

/-- To carry out a command is to try its echo, or nothing if it is refused or has none. -/
theorem carryOut (h : d.Progress now done tries) (howed : now.owed = .none)
    {received : WholeCommand} {rest : List WholeCommand} (htodo : now.todo = received :: rest)
    (q : Queue) :
    d.Progress (now.carryOut received.1 rest q).1 (done ++ [received])
      (tries ++ (now.carryOut received.1 rest q).2.2) := by
  have hlast : received ∈ done ++ [received] := List.mem_append_right _ (List.mem_singleton.2 rfl)
  unfold Dispatcher.carryOut
  cases haction : received.1.message.action now.limits with
  | error e =>
    have haction' : received.1.message.action d.limits = .error e := h.limits ▸ haction
    exact h.failNext howed htodo (.refused haction') fun habort =>
      .inr ⟨habort, .inl ⟨received, hlast, e, haction'⟩⟩
  | ok a =>
    have haction' : received.1.message.action d.limits = .ok a := h.limits ▸ haction
    rcases received.1.echo_cases with ⟨hecho, hsilent⟩ | ⟨m, hmessage, hecho, hechoed⟩
    · have hanswer : received.1.message.answer = .none := Command.answer_of_silent hsilent
      simp only [hecho]
      refine h.next howed htodo rfl rfl ?_ fun told board htold => ?_
      · by_cases hends : received.1.message.endsSession = true
        · exact .inr ⟨if_pos hends, .inl ⟨received, hlast, hends, a, haction'⟩⟩
        · exact .inl (if_neg hends)
      · obtain ⟨rfl, rfl⟩ := Answer.told_none.1 (hanswer ▸ htold)
        exact .silent haction' hsilent
    · have hends : received.1.message.endsSession = false := Command.endsSession_of_echoed hechoed
      rw [hmessage] at haction' hechoed
      obtain ⟨queue, accepted, hattempt⟩ :=
        exists_attempt (.twoWay m) (Queue.sendBytes received.1.wire) q
      simp only [hecho, hattempt]
      cases accepted with
      | false =>
        have hanswered : Answered d.limits now.board received.1.message [⟨.twoWay m, false⟩]
            (Board.perform a now.board) := hmessage ▸ .unechoed haction' hechoed
        refine h.failNext howed htodo hanswered fun habort =>
          .inr ⟨habort, .inr ⟨⟨.twoWay m, false⟩, ?_, rfl⟩⟩
        exact List.mem_append_right _ (List.mem_singleton.2 rfl)
      | true =>
        -- the report is owed from now on
        refine h.next howed htodo rfl rfl (.inl ?_) fun told board htold => ?_
        · exact if_neg (Bool.eq_false_iff.1 hends)
        · rw [hmessage]
          exact .echoed haction' hechoed (hmessage ▸ htold)

/-- To report is to try what is owed. -/
theorem report (h : d.Progress now done tries) (q : Queue) :
    d.Progress (now.report q).1 done (tries ++ (now.report q).2.2) := by
  -- whatever the board has said, nothing is owed then
  have hdone : ∀ more : List Try, more.map Try.message = (now.owed.ask now.board).1.toList →
      d.Progress { now with board := (now.owed.ask now.board).2, owed := .none } done
        (tries ++ more) := by
    intro more hmessages
    refine ⟨h.limits, h.recovery, ?_, fun told board hnone => ?_⟩
    · rcases h.todo with hall | ⟨hnil, hprefix, hstops⟩
      · exact .inl hall
      · exact .inr ⟨hnil, hprefix, hstops.append more⟩
    · obtain ⟨rfl, rfl⟩ := Answer.told_none.1 hnone
      rw [List.append_nil]
      exact h.dispatched more _ ⟨hmessages, rfl⟩
  unfold Dispatcher.report
  cases hask : now.owed.ask now.board with
  | mk told board =>
    rw [hask] at hdone
    cases told with
    | none => exact hdone [] rfl
    | some r =>
      obtain ⟨queue, accepted, hattempt⟩ := exists_attempt r (Queue.send r) q
      simp only [hattempt]
      cases accepted with
      | true => exact hdone [⟨r, true⟩] rfl
      | false =>
        refine (hdone [⟨r, false⟩] rfl).fail rfl fun habort =>
          .inr ⟨habort, .inr ⟨⟨r, false⟩, ?_, rfl⟩⟩
        exact List.mem_append_right _ (List.mem_singleton.2 rfl)

/-- **Turn by turn a dispatcher tries what is due.** -/
theorem turn (h : d.Progress now done tries) (q : Queue) :
    ∃ done', d.Progress (now.turn q).1 done' (tries ++ (now.turn q).2.2) := by
  unfold Dispatcher.turn
  split
  · exact ⟨done, by rwa [List.append_nil]⟩
  next received rest howed htodo => exact ⟨done ++ [received], h.carryOut howed htodo q⟩
  · exact ⟨done, h.report q⟩

end Progress
end Dispatcher

/-! ### Producers -/

namespace Producer

/-- What holds of a producer and its tries holds after any turn. -/
def Keeps (P : Producer B → List Try → Prop) : Prop :=
  ∀ (p : Producer B) (tries : List Try) (q : Queue),
    P p tries → P (p.turn q).1 (tries ++ (p.turn q).2.2)

/-- A sender tries its messages one after the other. -/
theorem keeps_sending (reports : List Report) :
    Keeps fun (p : Producer B) tries =>
      ∃ rest, p = .sender rest ∧ tries.map Try.message ++ rest = reports := by
  rintro p tries q ⟨rest, rfl, hreports⟩
  cases rest with
  | nil =>
    refine ⟨[], rfl, ?_⟩
    show (tries ++ []).map Try.message ++ [] = reports
    rwa [List.append_nil tries]
  | cons r rest =>
    obtain ⟨queue, accepted, hattempt⟩ := exists_attempt r (Queue.send r) q
    refine ⟨rest, rfl, ?_⟩
    show (tries ++ [(attempt r (Queue.send r) q).2]).map Try.message ++ rest = reports
    rw [hattempt, List.map_append, List.append_assoc]
    exact hreports

/-- A dispatcher tries what its commands ask for, one after the other. -/
theorem keeps_dispatching (d : Dispatcher B) :
    Keeps fun p tries => ∃ now done, p = .dispatcher now ∧ d.Progress now done tries := by
  rintro p tries q ⟨now, done, rfl, hprogress⟩
  obtain ⟨done', hprogress'⟩ := hprogress.turn q
  exact ⟨(now.turn q).1, done', rfl, hprogress'⟩

end Producer
end PinBridge
