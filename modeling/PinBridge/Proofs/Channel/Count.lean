/-
PinBridge/Proofs/Channel/Count.lean

How many bytes the count of a channel leaves out.

The count of a channel goes up when the writer has taken a span whole, and not
before.  So it does not tell of a span that the writer has taken in part, when
it fails or takes nothing for the rest of it.  Every span that is written is put
down as a `Portion`, with the part of it that has been taken: `count_write`
tells what one of them makes of the count, and `count_portions` what all of them
do.

Main statement: `taken_length`, the bytes that the writer has taken are those
that are counted and the portions of the spans that were cut short.
-/
import PinBridge.Proofs.Channel.Writer

namespace PinBridge
namespace WriterChannel

/-! ### Portions -/

/-- A span that was written, and what the writer took of it. -/
structure Portion where
  span : Bytes
  taken : Bytes
  deriving DecidableEq, Repr

/-- The bytes that were taken without being counted. -/
def Portion.uncounted (p : Portion) : Bytes := if p.taken = p.span then [] else p.taken

/-- A span that is written now, and what is taken of it. -/
def portion (span : Bytes) (c : WriterChannel) : Portion :=
  ⟨span, (stateOf (Channel.write span c)).taken.drop c.taken.length⟩

/-- The portions of spans that are written one after the other. -/
def portions : List Bytes → WriterChannel → List Portion
  | [], _ => []
  | span :: spans, c => portion span c :: portions spans (stateOf (Channel.write span c))

/-- Nothing is left uncounted exactly if the span was taken whole or not at all. -/
theorem Portion.uncounted_eq_nil_iff (p : Portion) :
    p.uncounted = [] ↔ p.taken = [] ∨ p.taken = p.span := by
  unfold uncounted
  by_cases hwhole : p.taken = p.span
  · rw [if_pos hwhole]
    exact iff_of_true rfl (.inr hwhole)
  · rw [if_neg hwhole, or_iff_left hwhole]

/-! ### One span -/

/-- **What the writer takes of a span is counted if it takes all of it.** -/
theorem count_write (span : Bytes) (c : WriterChannel) :
    (portion span c).taken <+: span ∧
      (stateOf (Channel.write span c)).taken = c.taken ++ (portion span c).taken ∧
      (stateOf (Channel.write span c)).handedOver + (portion span c).uncounted.length
        = c.handedOver + (portion span c).taken.length := by
  obtain ⟨front, hfront, htaken, hcount⟩ := exists_front span c
  have hportion : portion span c = ⟨span, front⟩ := by rw [portion, htaken, List.drop_left]
  rw [hportion, htaken, hcount, Portion.uncounted]
  refine ⟨hfront, rfl, ?_⟩
  dsimp only
  by_cases hwhole : front = span
  · rw [if_pos hwhole, if_pos hwhole, hwhole, List.length_nil, Nat.add_zero]
  · rw [if_neg hwhole, if_neg hwhole, Nat.add_zero]

/-! ### All spans -/

/-- **What all spans make of the count**, by what one of them does. -/
theorem count_portions (spans : List Bytes) (c : WriterChannel) :
    (portions spans c).map Portion.span = spans ∧
      (∀ p ∈ portions spans c, p.taken <+: p.span) ∧
      (writeEach spans c).2.taken = c.taken ++ (portions spans c).flatMap Portion.taken ∧
      (writeEach spans c).2.handedOver + ((portions spans c).flatMap Portion.uncounted).length
        = c.handedOver + ((portions spans c).flatMap Portion.taken).length := by
  induction spans generalizing c with
  | nil => exact ⟨rfl, List.forall_mem_nil _, (List.append_nil _).symm, rfl⟩
  | cons span spans ih =>
    obtain ⟨hfront, htaken, hcount⟩ := count_write span c
    obtain ⟨hspans, hfronts, htakens, hcounts⟩ := ih (stateOf (Channel.write span c))
    refine ⟨?_, List.forall_mem_cons.2 ⟨hfront, hfronts⟩, ?_, ?_⟩
    · exact congrArg (span :: ·) hspans
    · rw [portions, writeEach, List.flatMap_cons, htakens, htaken, List.append_assoc]
    · rw [portions, writeEach, List.flatMap_cons, List.flatMap_cons, List.length_append,
        List.length_append]
      dsimp only
      omega

/-- **The count falls short of what the writer has taken by the portions of the spans that were cut
short.**  Whatever is written to a channel that is new, and however its writer answers, the writer
has taken a portion of each span, one behind the other, and the count tells how many bytes that are
exactly if every span was taken whole or not at all. -/
theorem taken_length (writes : List WriteReply) (flushes : List FlushReply) (spans : List Bytes) :
    let c : WriterChannel := .new (.new writes flushes)
    let left := (writeEach spans c).2
    let ps := portions spans c
    ps.map Portion.span = spans ∧ (∀ p ∈ ps, p.taken <+: p.span) ∧
      left.taken = ps.flatMap Portion.taken ∧
      left.taken.length = left.handedOver + (ps.flatMap Portion.uncounted).length ∧
      (left.handedOver = left.taken.length ↔ ∀ p ∈ ps, p.taken = [] ∨ p.taken = p.span) := by
  intro c left ps
  obtain ⟨hspans, hfronts, htaken, hcount⟩ := count_portions spans c
  have hall : left.taken = ps.flatMap Portion.taken := htaken
  have hlength : left.taken.length = left.handedOver + (ps.flatMap Portion.uncounted).length := by
    rw [hall]
    exact (hcount.trans (Nat.zero_add _)).symm
  refine ⟨hspans, hfronts, hall, hlength, ?_⟩
  rw [hlength]
  simp only [← Portion.uncounted_eq_nil_iff]
  rw [← List.flatMap_eq_nil_iff, ← List.length_eq_zero_iff]
  omega

/-- A writer takes one byte of a span and then fails: this byte is not counted. -/
theorem count_falls_short :
    let left := (writeEach [[1, 2]] (.new (.new [.takes 1, .fails .brokenPipe] []))).2
    left.taken = [1] ∧ left.handedOver = 0 ∧ left.handedOver ≠ left.taken.length := by
  decide

end WriterChannel
end PinBridge
