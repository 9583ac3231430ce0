/-
PinBridge/Proofs/Channel/Calls.lean

The calls that hand over a span, and those that flush.

Every call to write is told with its answer (`WriteCall`), and the answers are
those of the script, one after the other.  `HandedOver` says how the calls
follow each other: each is offered what has not been taken, and one that ends
the handing over is the last.  The recursion of `Handover.run` is met once, in
`Handover.handedOver`; how a span has ended is then read off its calls, by
induction on `HandedOver`.  The same is done for flushing in
`Flushing.flushed`, where all that counts are the answers.

A script is finite, but only a front of it is seen (`Handover.run_append`), and
apart from interruptions there are no more calls than the span has bytes
(`HandedOver.length_le`).

Main statements: `Handover.handedOver`, `HandedOver.offered`.
-/
import PinBridge.Channel.Writer

namespace PinBridge

/-! ### Answers -/

namespace SystemFault

/-- The fault, if it is one that is passed on: an interrupted call is made again. -/
def passedOn? (f : SystemFault) : Option SystemFault := if f = .interrupted then none else some f

theorem passedOn?_of_ne {f : SystemFault} (hf : f ≠ .interrupted) : f.passedOn? = some f :=
  if_neg hf

theorem passedOn?_ne_interrupted (f : SystemFault) : f.passedOn? ≠ some .interrupted := by
  unfold passedOn?
  split
  next => exact (Option.some_ne_none _).symm
  next hf => exact fun h => hf (Option.some.inj h)

end SystemFault

namespace WriteReply

/-- The fault that is passed on, if there is one. -/
def fault? : WriteReply → Option SystemFault
  | .takes _ => none
  | .fails f => f.passedOn?

/-- How the handing over ends with this answer, if it does. -/
def stop? : WriteReply → Option Stop
  | .takes 0 => some .refused
  | .takes _ => none
  | .fails f => f.passedOn?.map .failed

theorem fault?_ne_interrupted (reply : WriteReply) : reply.fault? ≠ some .interrupted := by
  cases reply with
  | takes limit => simp [fault?]
  | fails f => exact f.passedOn?_ne_interrupted

theorem stop?_eq_refused_iff (reply : WriteReply) :
    reply.stop? = some .refused ↔ reply = .takes 0 := by
  cases reply with
  | takes limit => cases limit <;> simp [stop?]
  | fails f => simp [stop?]

theorem stop?_eq_failed_iff (reply : WriteReply) (f : SystemFault) :
    reply.stop? = some (.failed f) ↔ reply.fault? = some f := by
  cases reply with
  | takes limit => cases limit <;> simp [stop?, fault?]
  | fails f' => simp [stop?, fault?]

theorem stop?_ne_emptied (reply : WriteReply) : reply.stop? ≠ some .emptied := by
  cases reply with
  | takes limit => cases limit <;> simp [stop?]
  | fails f => simp [stop?]

theorem fault?_of_goesOn {reply : WriteReply} (h : reply.stop? = none) : reply.fault? = none := by
  cases reply with
  | takes limit => rfl
  | fails f => exact Option.map_eq_none_iff.1 h

end WriteReply

namespace FlushReply

/-- The fault that is passed on, if there is one. -/
def fault? : FlushReply → Option SystemFault
  | .done => none
  | .fails f => f.passedOn?

theorem fault?_ne_interrupted (reply : FlushReply) : reply.fault? ≠ some .interrupted := by
  cases reply with
  | done => simp [fault?]
  | fails f => exact f.passedOn?_ne_interrupted

end FlushReply

/-! ### Calls -/

/-- A call to write: what was offered, and what was answered. -/
structure WriteCall where
  offer : Bytes
  reply : WriteReply
  deriving DecidableEq, Repr

/-- The bytes that were taken. -/
def WriteCall.taken (call : WriteCall) : Bytes :=
  match call.reply with
  | .takes limit => call.offer.take limit
  | .fails _ => []

/-- What ends the handing over takes nothing. -/
theorem WriteCall.taken_of_stop {call : WriteCall} {stop : Stop}
    (h : call.reply.stop? = some stop) : call.taken = [] := by
  obtain ⟨offer, reply⟩ := call
  cases reply with
  | takes limit =>
    cases limit with
    | zero => rfl
    | succ limit => cases h
  | fails f => rfl

/-- What goes on has taken something, unless it was interrupted. -/
theorem WriteCall.taken_ne_nil {call : WriteCall} (hoffer : call.offer ≠ [])
    (h : call.reply.stop? = none) (hreply : call.reply ≠ .fails .interrupted) :
    call.taken ≠ [] := by
  obtain ⟨offer, reply⟩ := call
  cases reply with
  | takes limit =>
    cases limit with
    | zero => cases h
    | succ limit => simpa [taken] using hoffer
  | fails f =>
    rw [WriteReply.stop?, SystemFault.passedOn?_of_ne fun hf => hreply (congrArg _ hf)] at h
    cases h

namespace ScriptedWriter

/-- The calls in which these are offered, with the answers of a script. -/
def answered : List WriteReply → List Bytes → List WriteCall
  | _, [] => []
  | script, offer :: offers =>
    ⟨offer, script.headD (.takes offer.length)⟩ :: answered script.tail offers

/-- The answers of a script to so many calls to flush. -/
def flushReplies : List FlushReply → Nat → List FlushReply
  | _, 0 => []
  | script, n + 1 => script.headD .done :: flushReplies script.tail n

/-- The writer after these calls to write, and so many calls to flush. -/
def after (w : ScriptedWriter) (calls : List WriteCall) (flushes : Nat) : ScriptedWriter where
  writes := w.writes.drop calls.length
  flushes := w.flushes.drop flushes
  taken := w.taken ++ calls.flatMap WriteCall.taken
  offers := w.offers ++ calls.map WriteCall.offer
  flushCalls := w.flushCalls + flushes

@[simp] theorem map_offer_answered (script : List WriteReply) (offers : List Bytes) :
    (answered script offers).map WriteCall.offer = offers := by
  induction offers generalizing script with
  | nil => rfl
  | cons offer offers ih => rw [answered, List.map_cons, ih]

@[simp] theorem length_answered (script : List WriteReply) (offers : List Bytes) :
    (answered script offers).length = offers.length := by
  rw [← List.length_map WriteCall.offer, map_offer_answered]

@[simp] theorem length_flushReplies (script : List FlushReply) (n : Nat) :
    (flushReplies script n).length = n := by
  induction n generalizing script with
  | zero => rfl
  | succ n ih => rw [flushReplies, List.length_cons, ih]

end ScriptedWriter

open ScriptedWriter

/-! ### Handing over a span -/

/-- How a span is handed over: the calls, and what ends them. -/
inductive HandedOver : Bytes → List WriteCall → Stop → Prop
  /-- Nothing is left. -/
  | emptied : HandedOver [] [] .emptied
  /-- The call ends the handing over. -/
  | stopped {data : Bytes} {reply : WriteReply} {stop : Stop} (hdata : data ≠ [])
      (hreply : reply.stop? = some stop) : HandedOver data [⟨data, reply⟩] stop
  /-- It goes on with what the call has left. -/
  | goesOn {data rest : Bytes} {reply : WriteReply} {calls : List WriteCall} {stop : Stop}
      (hdata : data ≠ []) (hreply : reply.stop? = none)
      (hrest : (WriteCall.mk data reply).taken ++ rest = data) (h : HandedOver rest calls stop) :
      HandedOver data (⟨data, reply⟩ :: calls) stop

/-- **A span is handed over in calls like these**, and the answers are those of the script. -/
theorem Handover.handedOver (script : List WriteReply) (data : Bytes) :
    HandedOver data (answered script (run script data).offers) (run script data).stop ∧
      (run script data).taken
        = (answered script (run script data).offers).flatMap WriteCall.taken ∧
      (run script data).script = script.drop (run script data).offers.length := by
  fun_induction run script data with
  | case1 script => exact ⟨.emptied, rfl, rfl⟩
  | case2 data hdata =>
    -- the script has run out, and the call takes everything
    have hreply : (WriteReply.takes data.length).stop? = none := by
      cases data with
      | nil => exact absurd rfl hdata
      | cons b data => rfl
    have htaken : (WriteCall.mk data (.takes data.length)).taken = data := List.take_length
    refine ⟨.goesOn hdata hreply ((List.append_nil _).trans htaken) .emptied, ?_, rfl⟩
    exact htaken.symm.trans (List.append_nil _).symm
  | case3 script data hdata => exact ⟨.stopped hdata rfl, rfl, rfl⟩
  | case4 limit script data hdata hlimit ih =>
    obtain ⟨hrest, htaken, hscript⟩ := ih
    have hreply : (WriteReply.takes limit).stop? = none := by
      cases limit with
      | zero => exact absurd rfl hlimit
      | succ limit => rfl
    refine ⟨.goesOn hdata hreply (List.take_append_drop limit data) hrest, ?_, hscript⟩
    exact congrArg (data.take limit ++ ·) htaken
  | case5 script data hdata ih =>
    obtain ⟨hrest, htaken, hscript⟩ := ih
    exact ⟨.goesOn hdata rfl rfl hrest, htaken, hscript⟩
  | case6 f script data hdata hf =>
    have hreply : (WriteReply.fails f).stop? = some (.failed f) := by
      rw [WriteReply.stop?, SystemFault.passedOn?_of_ne hf, Option.map_some]
    exact ⟨.stopped hdata hreply, rfl, rfl⟩

namespace HandedOver

variable {data : Bytes} {calls : List WriteCall} {stop : Stop}

/-- **Each call is offered exactly what the ones before have not taken**, and there is something
left to offer.  None of the calls before has ended the handing over. -/
theorem offered (h : HandedOver data calls stop) :
    ∀ before call after, calls = before ++ call :: after →
      call.offer ≠ [] ∧ before.flatMap WriteCall.taken ++ call.offer = data ∧
        ∀ earlier ∈ before, earlier.reply.stop? = none := by
  induction h with
  | emptied =>
    intro before call after hcalls
    exact absurd hcalls.symm (List.append_ne_nil_of_right_ne_nil _ (List.cons_ne_nil _ _))
  | stopped hdata hreply =>
    intro before call after hcalls
    rcases List.cons_eq_append_iff.1 hcalls with ⟨rfl, hcall⟩ | ⟨before, rfl, hnone⟩
    · cases hcall
      exact ⟨hdata, rfl, List.forall_mem_nil _⟩
    · exact absurd hnone.symm (List.append_ne_nil_of_right_ne_nil _ (List.cons_ne_nil _ _))
  | goesOn hdata hreply hrest h ih =>
    intro before call after hcalls
    rcases List.cons_eq_append_iff.1 hcalls with ⟨rfl, hcall⟩ | ⟨before, rfl, hlater⟩
    · cases hcall
      exact ⟨hdata, rfl, List.forall_mem_nil _⟩
    · obtain ⟨hcall, hleft, hbefore⟩ := ih before call after hlater
      refine ⟨hcall, ?_, List.forall_mem_cons.2 ⟨hreply, hbefore⟩⟩
      rw [List.flatMap_cons, List.append_assoc, hleft, hrest]

/-- What is taken is a front of the span. -/
theorem front (h : HandedOver data calls stop) : calls.flatMap WriteCall.taken <+: data := by
  induction h with
  | emptied => exact List.nil_prefix
  | stopped hdata hreply =>
    rw [List.flatMap_singleton, WriteCall.taken_of_stop hreply]
    exact List.nil_prefix
  | goesOn hdata hreply hrest h ih =>
    obtain ⟨left, hleft⟩ := ih
    refine ⟨left, ?_⟩
    rw [List.flatMap_cons, List.append_assoc, hleft, hrest]

/-- Nothing is left exactly if everything has been taken. -/
theorem emptied_iff (h : HandedOver data calls stop) :
    stop = .emptied ↔ calls.flatMap WriteCall.taken = data := by
  induction h with
  | emptied => exact iff_of_true rfl rfl
  | @stopped data reply stop hdata hreply =>
    have htaken : (WriteCall.mk data reply).taken = [] := WriteCall.taken_of_stop hreply
    rw [List.flatMap_singleton, htaken]
    refine iff_of_false (fun hstop => ?_) hdata.symm
    exact reply.stop?_ne_emptied (hstop ▸ hreply)
  | goesOn hdata hreply hrest h ih =>
    -- the span is what this call has taken and what it has left
    rw [ih, List.flatMap_cons]
    constructor
    · intro hall
      rw [hall, hrest]
    · intro hall
      exact List.append_cancel_left (hall.trans hrest.symm)

/-- The writer takes nothing, though it is offered something, exactly if that is what ends the
handing over. -/
theorem refused_iff (h : HandedOver data calls stop) :
    stop = .refused ↔ ∃ call ∈ calls, call.reply = .takes 0 := by
  induction h with
  | emptied => simp
  | @stopped data reply stop hdata hreply =>
    simp only [List.mem_singleton, exists_eq_left]
    rw [← reply.stop?_eq_refused_iff, hreply, Option.some.injEq]
  | @goesOn data rest reply calls stop hdata hreply hrest h ih =>
    have hmore : reply ≠ .takes 0 := by
      rintro rfl
      cases hreply
    simp only [List.mem_cons, or_and_right, exists_or, exists_eq_left]
    rw [ih, or_iff_right hmore]

/-- A fault ends the handing over exactly if it is the first one that is passed on. -/
theorem failed_iff (h : HandedOver data calls stop) (f : SystemFault) :
    stop = .failed f ↔ calls.findSome? (fun call => call.reply.fault?) = some f := by
  induction h with
  | emptied => simp
  | @stopped data reply stop hdata hreply =>
    rw [List.findSome?_singleton, ← reply.stop?_eq_failed_iff, hreply, Option.some.injEq]
  | @goesOn data rest reply calls stop hdata hreply hrest h ih =>
    rw [ih, List.findSome?_cons, WriteReply.fault?_of_goesOn hreply]

/-- Apart from interruptions there are no more calls than the span has bytes. -/
theorem length_le (h : HandedOver data calls stop) :
    calls.countP (fun call => call.reply ≠ .fails .interrupted) ≤ data.length := by
  induction h with
  | emptied => exact Nat.le_refl 0
  | @stopped data reply stop hdata hreply =>
    exact Nat.le_trans List.countP_le_length (List.length_pos_iff.2 hdata)
  | @goesOn data rest reply calls stop hdata hreply hrest h ih =>
    have hlength := congrArg List.length hrest
    rw [List.length_append] at hlength
    rw [List.countP_cons]
    split
    next hcounted =>
      -- the call has taken at least one byte, so the rest is shorter
      have htaken : (WriteCall.mk data reply).taken ≠ [] :=
        WriteCall.taken_ne_nil hdata hreply (of_decide_eq_true hcounted)
      have hpos : 0 < (WriteCall.mk data reply).taken.length := List.length_pos_iff.2 htaken
      omega
    · omega

end HandedOver

/-! ### Flushing -/

/-- **A flush is called again as long as it is interrupted**, with the answers of the script, and
the first answer that is none is what becomes of it. -/
theorem Flushing.flushed (script : List FlushReply) :
    (run script).script = script.drop (run script).calls ∧
      (run script).fault = (flushReplies script (run script).calls).findSome? FlushReply.fault? ∧
      ((run script).fault = none ↔
        (flushReplies script (run script).calls).find? (· ≠ .fails .interrupted) = some .done) := by
  fun_induction run script with
  | case1 => exact ⟨rfl, rfl, iff_of_true rfl rfl⟩
  | case2 script => exact ⟨rfl, rfl, iff_of_true rfl rfl⟩
  | case3 script rest ih =>
    obtain ⟨hscript, hfault, hdone⟩ := ih
    exact ⟨hscript, hfault, hdone⟩
  | case4 f script hf =>
    have hpassed : (FlushReply.fails f).fault? = some f := SystemFault.passedOn?_of_ne hf
    refine ⟨rfl, ?_, ?_⟩
    · show some f = [FlushReply.fails f].findSome? FlushReply.fault?
      rw [List.findSome?_singleton, hpassed]
    · have hfound : FlushReply.fails f ≠ .fails .interrupted :=
        fun hreply => hf (FlushReply.fails.inj hreply)
      show some f = none ↔ [FlushReply.fails f].find? (· ≠ .fails .interrupted) = some .done
      simp [hfound]

/-! ### Longer scripts -/

/-- Answers behind those that are given make no difference. -/
theorem Handover.run_append {script : List WriteReply} {data : Bytes}
    (h : (run script data).script ≠ []) (more : List WriteReply) :
    run (script ++ more) data
      = { run script data with script := (run script data).script ++ more } := by
  fun_induction run script data with
  | case1 script => rw [run]
  | case2 data hdata => exact absurd rfl h
  | case3 script data hdata =>
    rw [List.cons_append, run]
    exact hdata
  | case4 limit script data hdata hlimit ih =>
    rw [List.cons_append, run, ih h]
    · rfl
    · exact hlimit
    · exact hdata
  | case5 script data hdata ih =>
    rw [List.cons_append, run, ih h]
    · rfl
    · exact hdata
  | case6 f script data hdata hf =>
    rw [List.cons_append, run]
    · exact hf
    · exact hdata

theorem Flushing.run_append {script : List FlushReply} (h : (run script).script ≠ [])
    (more : List FlushReply) :
    run (script ++ more) = { run script with script := (run script).script ++ more } := by
  fun_induction run script with
  | case1 => exact absurd rfl h
  | case2 script => rfl
  | case3 script rest ih =>
    rw [List.cons_append, run, ih h]
  | case4 f script hf =>
    rw [List.cons_append, run]
    exact hf

end PinBridge
