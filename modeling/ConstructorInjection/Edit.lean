import ConstructorInjection.TokenStream

/-!
Batches of edits to a token stream. All edits of a batch address the stream as it was before the
batch; a batch in which two edits overlap is refused as a whole.
-/

namespace ConstructorInjection

/-- Replaces a range of tokens; an empty range marks an insertion before its start. -/
structure Edit where
  range : IndexRange
  replacement : List Token
  deriving DecidableEq

namespace Edit

def insertion (index : Nat) (tokens : List Token) : Edit :=
  ⟨⟨index, index⟩, tokens⟩

/-- Edits are ordered by their start, then by their end. -/
def comesBefore (left right : Edit) : Bool :=
  left.range.start < right.range.start ||
    (left.range.start == right.range.start && left.range.stop ≤ right.range.stop)

/-- The edits from left to right; edits of the same range keep their order. -/
def sorted (edits : List Edit) : List Edit :=
  edits.mergeSort comesBefore

/-- Whether two edits overlap, of which the first comes before the second. Ranges that only touch do
not, and neither do insertions at the same index. -/
def overlaps (left right : Edit) : Bool :=
  right.range.start < left.range.stop ||
    (left.range.start == right.range.start && !left.range.isEmpty && !right.range.isEmpty)

end Edit

structure EditConflict where
  first : IndexRange
  second : IndexRange
  deriving DecidableEq

def EditConflict.message (conflict : EditConflict) : Text :=
  let shownRange (range : IndexRange) : Text :=
    Text.decimal range.start ++ ".." ++ Text.decimal range.stop
  "edits overlap: " ++ shownRange conflict.first ++ " and " ++ shownRange conflict.second

namespace Edit

def conflictAmong? : List Edit → Option EditConflict
  | left :: right :: rest =>
    if left.overlaps right then some ⟨left.range, right.range⟩ else conflictAmong? (right :: rest)
  | _ => none

def conflict? (edits : List Edit) : Option EditConflict :=
  conflictAmong? (sorted edits)

/-- Applies a batch, the rightmost edit first, so that no edit moves the range of a later one. -/
def applyAll (edits : List Edit) (stream : TokenStream) : Except EditConflict TokenStream :=
  match conflict? edits with
  | some conflict => .error conflict
  | none =>
    .ok ((sorted edits).foldr (fun edit stream => stream.splice edit.range edit.replacement) stream)

end Edit

end ConstructorInjection
