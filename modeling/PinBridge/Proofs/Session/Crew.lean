/-
PinBridge/Proofs/Session/Crew.lean

Producers that share one queue, and the line that empties it.

A crew is any number of producers before a line over a recorder.  They take
turns in any order, and the line ticks in between, so that a schedule is a list
of turns and ticks.  In each of them the queue is touched once.

Whatever the schedule, the bytes that are written and those still queued behind
them are whole messages, one for each try that was accepted.  Each of them
belongs to one producer, and for every producer they come in the order of its
tries (`Merged`).  So no message is torn, lost or told twice, and of one that
was refused there is no trace.  What it tries a producer settles by itself
(`Producer.Keeps`); the others only have a say in what is accepted.

Main statement: `stream_merged`.
-/
import Mathlib.Logic.Function.Basic
import PinBridge.Board.Virtual
import PinBridge.Proofs.Line.Delivery
import PinBridge.Proofs.Session.Tries

namespace PinBridge

variable {ι : Type} [DecidableEq ι]

/-! ### Merging -/

/-- One list that is put together from several, each in its own order: every entry belongs to one of
them, and its own entries are what each of them is. -/
def Merged {α : Type} (parts : ι → List α) (whole : List α) : Prop :=
  ∃ owned : List (ι × α), owned.map Prod.snd = whole ∧
    ∀ i, (owned.filter fun entry => entry.1 = i).map Prod.snd = parts i

namespace Merged

variable {α : Type} {parts : ι → List α} {whole : List α}

theorem nil : Merged (fun _ : ι => ([] : List α)) [] := ⟨[], rfl, fun _ => rfl⟩

/-- Further entries of one of the parts. -/
theorem append (h : Merged parts whole) (i : ι) (more : List α) :
    Merged (Function.update parts i (parts i ++ more)) (whole ++ more) := by
  obtain ⟨owned, hwhole, hparts⟩ := h
  have hmore : (more.map fun a => (i, a)).map Prod.snd = more := by
    rw [List.map_map]
    exact List.map_id more
  refine ⟨owned ++ more.map fun a => (i, a), ?_, fun j => ?_⟩
  · rw [List.map_append, hwhole, hmore]
  · rw [List.filter_append, List.map_append, hparts]
    by_cases hij : i = j
    · subst hij
      have hall : (more.map fun a => (i, a)).filter (fun entry => entry.1 = i)
          = more.map fun a => (i, a) := by
        simp
      rw [Function.update_self, hall, hmore]
    · have hnone : (more.map fun a => (i, a)).filter (fun entry => entry.1 = j) = [] := by
        simp [hij]
      rw [Function.update_of_ne (Ne.symm hij), hnone, List.map_nil, List.append_nil]

end Merged

/-! ### Crews -/

/-- Producers before one line, and what each of them has tried. -/
structure Crew (ι B : Type) where
  line : Line Recorder
  producers : ι → Producer B
  tries : ι → List Try

/-- What may happen to a crew. -/
inductive CrewEvent (ι : Type) where
  | turn (i : ι)
  | tick
  | complete
  | close

namespace Crew

variable {B : Type}

/-- A crew that has not done anything. -/
def start (capacity : Nat) (channel : Recorder) (producers : ι → Producer B) : Crew ι B where
  line := ⟨.new, .empty capacity, channel⟩
  producers := producers
  tries := fun _ => []

/-- Something happens to the channel. -/
def onChannel (f : Recorder → Recorder) (c : Crew ι B) : Crew ι B :=
  { c with line := { c.line with channel := f c.line.channel } }

section Run

variable [Board B]

/-- A producer takes its turn. -/
def turn (i : ι) (c : Crew ι B) : Crew ι B :=
  let (producer, queue, tries) := (c.producers i).turn c.line.queue
  { line := { c.line with queue }
    producers := Function.update c.producers i producer
    tries := Function.update c.tries i (c.tries i ++ tries) }

def apply : CrewEvent ι → Crew ι B → Crew ι B
  | .turn i, c => c.turn i
  | .tick, c => { c with line := Line.left (Line.tick c.line) }
  | .complete, c => c.onChannel Recorder.complete
  | .close, c => c.onChannel Recorder.close

/-- One event after the other. -/
def run (schedule : List (CrewEvent ι)) (c : Crew ι B) : Crew ι B :=
  schedule.foldl (fun c event => c.apply event) c

end Run

/-- The messages of a producer that the queue has taken. -/
def accepted (c : Crew ι B) (i : ι) : List Report :=
  ((c.tries i).filter Try.accepted).map Try.message

/-- What is written, and what is queued and not yet written. -/
def stream (c : Crew ι B) : Bytes :=
  c.line.channel.written ++ c.line.queue.content.drop c.line.transmitter.inFlight

/-! ### What is in the stream -/

/-- The stream is made up of these messages, and they are those that were accepted. -/
structure Holds (c : Crew ι B) (record : List (Received .outgoing)) : Prop where
  delivered : Delivered ⟨c.line, record.flatMap Received.wire⟩
  genuine : ∀ received ∈ record, received.Genuine
  merged : Merged (fun i => (c.accepted i).map Report.narrow) (record.map Received.message)

variable {c : Crew ι B} {record : List (Received .outgoing)}

theorem Holds.stream_eq (h : c.Holds record) : c.stream = record.flatMap Received.wire :=
  h.delivered.written_append

theorem Holds.start (capacity : Nat) (defers : Bool) (producers : ι → Producer B) :
    (Crew.start capacity (if defers then .deferring else .immediate) producers).Holds [] :=
  ⟨.start capacity defers, List.forall_mem_nil _, .nil⟩

variable [Board B]

/-- What the tries of a turn add to what was accepted. -/
theorem accepted_turn (i : ι) (c : Crew ι B) :
    (fun j => ((c.turn i).accepted j).map Report.narrow)
      = Function.update (fun j => (c.accepted j).map Report.narrow) i
          ((c.accepted i).map Report.narrow
            ++ (((c.producers i).turn c.line.queue).2.2.filter Try.accepted).map
              fun tried => tried.message.narrow) := by
  funext j
  by_cases hij : j = i
  · subst hij
    rw [Function.update_self]
    simp only [accepted, turn, Function.update_self, List.filter_append, List.map_append,
      List.map_map]
    rfl
  · rw [Function.update_of_ne hij]
    simp only [accepted, turn, Function.update_of_ne hij]

/-- **A turn adds to the stream the message that is accepted in it**, if there is one. -/
theorem Holds.turn (h : c.Holds record) (i : ι) : ∃ more, (c.turn i).Holds (record ++ more) := by
  obtain ⟨more, hgenuine, hqueue, hmessages⟩ :=
    ((c.producers i).put_turn c.line.queue).queued
  refine ⟨more, ?_, ?_, ?_⟩
  · have hline : (c.turn i).line
        = { c.line with queue := c.line.queue.extend (more.flatMap Received.wire) } := by
      rw [← hqueue]
      rfl
    rw [hline, List.flatMap_append]
    exact h.delivered.extend _
  · rw [List.forall_mem_append]
    exact ⟨h.genuine, hgenuine⟩
  · rw [accepted_turn, ← hmessages, List.map_append]
    exact h.merged.append i _

theorem Holds.apply (h : c.Holds record) (event : CrewEvent ι) :
    ∃ more, (c.apply event).Holds (record ++ more) := by
  have hsame : ∀ line : Line Recorder, Delivered ⟨line, record.flatMap Received.wire⟩ →
      ∃ more, ({ c with line } : Crew ι B).Holds (record ++ more) := by
    intro line hdelivered
    refine ⟨[], ?_⟩
    rw [List.append_nil]
    exact ⟨hdelivered, h.genuine, h.merged⟩
  cases event with
  | turn i => exact h.turn i
  | tick => exact hsame _ h.delivered.tick
  | complete => exact hsame _ (h.delivered.apply .complete)
  | close => exact hsame _ (h.delivered.apply .close)

theorem Holds.run (h : c.Holds record) (schedule : List (CrewEvent ι)) :
    ∃ more, (Crew.run schedule c).Holds (record ++ more) := by
  induction schedule generalizing c record with
  | nil => exact ⟨[], by rwa [List.append_nil]⟩
  | cons event schedule ih =>
    obtain ⟨more, hmore⟩ := h.apply event
    obtain ⟨rest, hrest⟩ := ih hmore
    exact ⟨more ++ rest, by rwa [← List.append_assoc]⟩

/-! ### What each producer has tried -/

/-- What a turn keeps of a producer is not touched by what happens to the others. -/
theorem keeps_apply {P : Producer B → List Try → Prop} (hkeeps : Producer.Keeps P) {i : ι}
    (h : P (c.producers i) (c.tries i)) (event : CrewEvent ι) :
    P ((c.apply event).producers i) ((c.apply event).tries i) := by
  cases event with
  | turn j =>
    show P (Function.update c.producers j _ i) (Function.update c.tries j _ i)
    by_cases hij : i = j
    · subst hij
      rw [Function.update_self, Function.update_self]
      exact hkeeps _ _ _ h
    · rwa [Function.update_of_ne hij, Function.update_of_ne hij]
  | tick => exact h
  | complete => exact h
  | close => exact h

theorem keeps_run {P : Producer B → List Try → Prop} (hkeeps : Producer.Keeps P) {i : ι}
    (h : P (c.producers i) (c.tries i)) (schedule : List (CrewEvent ι)) :
    P ((run schedule c).producers i) ((run schedule c).tries i) := by
  induction schedule generalizing c with
  | nil => exact h
  | cons event schedule ih => exact ih (keeps_apply hkeeps h event)

/-! ### The whole stream -/

/-- **Producers that share a queue neither tear nor lose each other's messages.**

Take any number of producers, a queue of any capacity, a recorder that is ready at once or later,
and any schedule.  Then what is written and what is queued behind it is read, in whatever chunks and
whichever way the receiver recovers, as a list of messages with nothing dropped or left over; and
this list is put together from the messages of each producer that were accepted, in the order in
which it has tried them, and nothing else.  Their fields are as wide as their places.  A sender
tries the messages that it was given, from the first one on; a dispatcher tries the echo of each
command and the report that it asks for, up to where it has come. -/
theorem stream_merged (capacity : Nat) (defers : Bool) (producers : ι → Producer B)
    (schedule : List (CrewEvent ι)) :
    let c := run schedule
      (start capacity (if defers then .deferring else .immediate) producers)
    ∃ record : List (Received .outgoing),
      Merged (fun i => (c.accepted i).map Report.narrow) (record.map Received.message) ∧
      Receiver.messagesOf .outgoing c.stream = .ok (record.map Received.message) ∧
      (∀ {ε σ : Type} (ofStream : StreamError → ε) (handle : Handler .outgoing ε σ),
        handle.Accepts → ∀ (recovery : Recovery) (s : σ) (chunks : List Bytes),
          chunks.flatten = c.stream → ∃ (r : Receiver) (s' : σ),
            chunks.forM (Receiver.feed ofStream handle.recorded) (.new recovery, s, [])
              = .ok () (r, s', record) ∧
            r.decoded = record.length ∧ r.dropped = 0 ∧ r.isMidway = false) ∧
      (∀ (i : ι) (reports : List Report), producers i = .sender reports →
        ∃ rest, c.producers i = .sender rest ∧ (c.tries i).map Try.message ++ rest = reports) ∧
      ∀ (i : ι) (d : Dispatcher B), producers i = .dispatcher d →
        ∃ now done, c.producers i = .dispatcher now ∧ d.Progress now done (c.tries i) := by
  intro c
  have hstart := Holds.start capacity defers producers
  obtain ⟨record, hrecord⟩ := hstart.run schedule
  rw [List.nil_append] at hrecord
  have hstream : c.stream = record.flatMap Received.wire := hrecord.stream_eq
  refine ⟨record, hrecord.merged, ?_, ?_, ?_, ?_⟩
  · rw [hstream]
    exact Receiver.messagesOf_received hrecord.genuine
  · intro ε σ ofStream handle haccepts recovery s chunks hchunks
    obtain ⟨r, s', hdecoded, hdropped, hmidway, hfeed⟩ := Receiver.feed_recorded ofStream haccepts
      hrecord.genuine (hchunks.trans hstream) recovery s
    exact ⟨r, s', hfeed, hdecoded, hdropped, hmidway⟩
  · intro i reports hreports
    exact keeps_run (Producer.keeps_sending reports) ⟨reports, hreports, rfl⟩ schedule
  · intro i d hd
    exact keeps_run (Producer.keeps_dispatching d) ⟨d, [], hd, .start d⟩ schedule

/-- A sender comes between an echo and the report behind it, for which there is no room then. -/
example :
    let command : WholeCommand := ⟨⟨.twoWay (.changeNotify 5 true), [5, 0b00010101]⟩,
      @Received.Genuine.intro .incoming (.twoWay .changeNotify) [0b00010101] [] rfl rfl⟩
    let producers : Bool → Producer VirtualBoard := fun sends =>
      if sends then .sender [.uartTxStatus 0 9]
      else .dispatcher ⟨.standard, .abort, .new .standard, [command], .none⟩
    let c := run [.turn false, .turn true, .turn false, .tick] (start 6 .immediate producers)
    (c.tries false, c.tries true, c.stream)
      = ([⟨.twoWay (.changeNotify 5 true), true⟩, ⟨.digitalInStatus 5 false, false⟩],
        [⟨.uartTxStatus 0 9, true⟩], [5, 0b00010101, 10, 36, 0]) := by
  decide +kernel

end Crew
end PinBridge
