/-
PinBridge/Proofs/Receiver/Segments.lean

How a byte string falls into messages, said without a receiver.

From the left, a byte that is no tag is a segment of its own.  A tag, the fixed
block that its kind has in this direction, and the trailer that the block
announces are a segment.  What is left when one of them is not all there is the
tail.

`segmentation` cuts a byte string that way; `Segmented` says the same as a
relation, one rule for each kind of segment and of tail, for proofs to follow.

Main statements: `segmented`, every byte string is cut as the rules say, and
`Segmented.flatten`, nothing is lost by cutting.
-/
import PinBridge.Receiver.Basic

namespace PinBridge

/-- A piece of a stream. -/
inductive Segment where
  /-- A byte that stands where a tag is due, and is none. -/
  | stray (b : UInt8)
  | message (kind : Kind) (block trailer : Bytes)
  deriving DecidableEq, Repr

namespace Segment

def bytes : Segment → Bytes
  | .stray b => [b]
  | .message kind block trailer => kind.tag :: block ++ trailer

/-- The message that a segment is, if it is one, with its exact bytes. -/
def received? (d : Direction) : Segment → Option (Received d)
  | .stray _ => none
  | .message kind block trailer =>
    some ⟨d.parse kind block trailer, (Segment.message kind block trailer).bytes⟩

/-- Whether the segment is a byte that is no tag. -/
def isStray : Segment → Bool
  | .stray _ => true
  | .message .. => false

/-- What becomes of a segment: a message is handed over, a stray byte is an error. -/
def play {d : Direction} {ε σ : Type} (ofStream : StreamError → ε) (handle : Handler d ε σ) :
    Segment → EStateM ε σ Unit
  | .stray b => throw (ofStream (.unknownTag b))
  | .message kind block trailer =>
    handle ⟨d.parse kind block trailer, (Segment.message kind block trailer).bytes⟩

end Segment

/-- The messages among segments, in order. -/
def messagesIn (d : Direction) (segments : List Segment) : List (Received d) :=
  segments.filterMap (Segment.received? d)

/-- How many bytes among segments are no tags. -/
def straysIn (segments : List Segment) : Nat := segments.countP Segment.isStray

section Cons

variable {d : Direction} {b : UInt8} {kind : Kind} {block trailer : Bytes}
  {segments : List Segment}

@[simp] theorem messagesIn_stray :
    messagesIn d (.stray b :: segments) = messagesIn d segments := rfl

@[simp] theorem messagesIn_message :
    messagesIn d (.message kind block trailer :: segments)
      = ⟨d.parse kind block trailer, (Segment.message kind block trailer).bytes⟩
        :: messagesIn d segments := rfl

@[simp] theorem straysIn_stray : straysIn (.stray b :: segments) = straysIn segments + 1 :=
  List.countP_cons_of_pos rfl

@[simp] theorem straysIn_message :
    straysIn (.message kind block trailer :: segments) = straysIn segments :=
  List.countP_cons_of_neg Bool.false_ne_true

end Cons

namespace Handler

variable {d : Direction} {ε σ : Type}

/-- The state after a message, refused or not. -/
def next (handle : Handler d ε σ) (received : Received d) (s : σ) : σ :=
  match handle received s with
  | .ok () s => s
  | .error _ s => s

def refuses (handle : Handler d ε σ) (received : Received d) (s : σ) : Bool :=
  match handle received s with
  | .ok () _ => false
  | .error _ _ => true

/-- The state after messages are handed over in turn, whichever of them are refused. -/
def after (handle : Handler d ε σ) : List (Received d) → σ → σ
  | [], s => s
  | received :: rest, s => handle.after rest (handle.next received s)

/-- How many messages are refused when they are handed over in turn. -/
def refusals (handle : Handler d ε σ) : List (Received d) → σ → Nat
  | [], _ => 0
  | received :: rest, s =>
    (handle.refuses received s).toNat + handle.refusals rest (handle.next received s)

/-- The segments up to the first one that is an error or is refused, that one included. -/
def untilFailure (ofStream : StreamError → ε) (handle : Handler d ε σ) :
    List Segment → σ → List Segment
  | [], _ => []
  | segment :: rest, s =>
    match segment.play ofStream handle s with
    | .ok () s => segment :: handle.untilFailure ofStream rest s
    | .error _ _ => [segment]

end Handler

/-- A byte string as segments and what is left. -/
structure Segmentation where
  segments : List Segment
  tail : Bytes
  deriving DecidableEq, Repr

/-- Put a segment in front. -/
def Segmentation.cons (segment : Segment) (rest : Segmentation) : Segmentation :=
  { rest with segments := segment :: rest.segments }

/-- Cut a byte string into segments. -/
def segmentation (d : Direction) : Bytes → Segmentation
  | [] => ⟨[], []⟩
  | b :: rest =>
    match Kind.ofTag? b with
    | none => (segmentation d rest).cons (.stray b)
    | some kind =>
      let block := rest.take (kind.blockLength d)
      let behind := rest.drop (kind.blockLength d)
      let length := d.trailerLength kind block
      if kind.blockLength d ≤ rest.length ∧ length ≤ behind.length then
        (segmentation d (behind.drop length)).cons (.message kind block (behind.take length))
      else ⟨[], b :: rest⟩
termination_by bs => bs.length
decreasing_by
  · simp
  · simp only [List.length_drop, List.length_cons]
    omega

/-- The rules by which a byte string falls into segments and a tail. -/
inductive Segmented (d : Direction) : Bytes → List Segment → Bytes → Prop
  | nothing : Segmented d [] [] []
  | stray {b : UInt8} {rest tail : Bytes} {segments : List Segment} (hb : 16 ≤ b.toNat) :
      Segmented d rest segments tail → Segmented d (b :: rest) (.stray b :: segments) tail
  | message {kind : Kind} {block trailer rest tail : Bytes} {segments : List Segment}
      (hblock : block.length = kind.blockLength d)
      (htrailer : trailer.length = d.trailerLength kind block) :
      Segmented d rest segments tail →
      Segmented d (kind.tag :: block ++ trailer ++ rest) (.message kind block trailer :: segments)
        tail
  | shortBlock {kind : Kind} {taken : Bytes} (hshort : taken.length < kind.blockLength d) :
      Segmented d (kind.tag :: taken) [] (kind.tag :: taken)
  | shortTrailer {kind : Kind} {block taken : Bytes} (hblock : block.length = kind.blockLength d)
      (hshort : taken.length < d.trailerLength kind block) :
      Segmented d (kind.tag :: block ++ taken) [] (kind.tag :: block ++ taken)

/-- **Every byte string is cut as the rules say.** -/
theorem segmented (d : Direction) (bs : Bytes) :
    Segmented d bs (segmentation d bs).segments (segmentation d bs).tail := by
  fun_induction segmentation d bs with
  | case1 => exact .nothing
  | case2 b rest hnone ih => exact .stray (Kind.ofTag?_eq_none_iff.1 hnone) ih
  | case3 b rest kind hkind block behind length hlong ih =>
    have hbytes : b :: rest
        = kind.tag :: block ++ behind.take length ++ behind.drop length := by
      rw [Kind.ofTag?_eq_some_iff.1 hkind, List.append_assoc, List.take_append_drop]
      simp [block, behind]
    have hblock : block.length = kind.blockLength d := List.length_take_of_le hlong.1
    have htrailer : (behind.take length).length = length := List.length_take_of_le hlong.2
    rw [hbytes]
    exact .message hblock htrailer ih
  | case4 b rest kind hkind block behind length hshort =>
    rw [Kind.ofTag?_eq_some_iff.1 hkind]
    by_cases hlong : kind.blockLength d ≤ rest.length
    · -- the fixed block is there, so the trailer is not
      have hbytes : kind.tag :: rest = kind.tag :: block ++ behind := by simp [block, behind]
      have hblock : block.length = kind.blockLength d := List.length_take_of_le hlong
      rw [hbytes]
      exact .shortTrailer hblock (by omega)
    · exact .shortBlock (by omega)

example : segmentation .incoming [200, 1, 13, 1]
    = ⟨[.stray 200, .message (.twoWay .softReset) [] []], [13, 1]⟩ := by decide +kernel

/-- **Nothing is lost by cutting.** -/
theorem Segmented.flatten {d : Direction} {bs tail : Bytes} {segments : List Segment}
    (h : Segmented d bs segments tail) : segments.flatMap Segment.bytes ++ tail = bs := by
  induction h with
  | nothing => rfl
  | stray hb h ih => simp [Segment.bytes, ih]
  | message hblock htrailer h ih => simp [Segment.bytes, ih]
  | shortBlock hshort => rfl
  | shortTrailer hblock hshort => rfl

end PinBridge
