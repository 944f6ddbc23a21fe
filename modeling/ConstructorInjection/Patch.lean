import ConstructorInjection.Text

/-!
Patches between the lines of two texts, in the unified format. The lines are compared from the
start; after a difference, the nearest pair of equal lines brings the two sides together again. The
patch need not be the shortest one.
-/

namespace ConstructorInjection

inductive PatchLine where
  | same (text : Text)
  | removed (text : Text)
  | added (text : Text)
  deriving DecidableEq

namespace PatchLine

def isChange : PatchLine → Bool
  | same _ => false
  | _ => true

/-- Whether the line belongs to the old text. -/
def isOld : PatchLine → Bool
  | added _ => false
  | _ => true

/-- Whether the line belongs to the new text. -/
def isNew : PatchLine → Bool
  | removed _ => false
  | _ => true

def text : PatchLine → Text
  | same text | removed text | added text => text

def mark : PatchLine → Char
  | same _ => ' '
  | removed _ => '-'
  | added _ => '+'

end PatchLine

namespace Patch

/-- How many lines, on both sides together, are passed over in search of equal lines. -/
def reach : Nat :=
  200

/-- Unchanged lines shown on either side of a change. -/
def context : Nat :=
  2

/-- How many lines to pass over on each side, when that is `distance` together and equal lines
follow. The fewest old lines are preferred. -/
def meetingAt? (old new : List Text) (distance : Nat) : Option (Nat × Nat) :=
  (List.range (distance + 1)).findSome? fun skipped =>
    match old[skipped]?, new[distance - skipped]? with
    | some left, some right => if left = right then some (skipped, distance - skipped) else none
    | _, _ => none

/-- How many lines to pass over on each side to get to the nearest pair of equal lines. -/
def meeting? (old new : List Text) : Option (Nat × Nat) :=
  (List.range' 1 reach).findSome? (meetingAt? old new)

theorem meeting?_pos {old new : List Text} {passed : Nat × Nat}
    (result : meeting? old new = some passed) : 0 < passed.1 + passed.2 := by
  obtain ⟨distance, member, found⟩ := List.exists_of_findSome?_eq_some result
  obtain ⟨skipped, below, met⟩ := List.exists_of_findSome?_eq_some found
  have positive := (List.mem_range'_1.mp member).1
  have bound := List.mem_range.mp below
  split at met
  · split at met
    · cases met; simp only; omega
    · contradiction
  · contradiction

def lines (old new : List Text) : List PatchLine :=
  match old, new with
  | [], new => new.map .added
  | old, [] => old.map .removed
  | left :: old, right :: new =>
    if left = right then .same left :: lines old new
    else
      match _result : meeting? (left :: old) (right :: new) with
      | some (passedOld, passedNew) =>
        ((left :: old).take passedOld).map .removed ++ ((right :: new).take passedNew).map .added ++
          lines ((left :: old).drop passedOld) ((right :: new).drop passedNew)
      | none => (left :: old).map .removed ++ (right :: new).map .added
termination_by old.length + new.length
decreasing_by
  · simp only [List.length_cons]; omega
  · have positive := meeting?_pos _result
    simp only [List.length_drop, List.length_cons] at positive ⊢
    omega

def changes (lines : List PatchLine) : List Nat :=
  (List.range lines.length).filter fun index => lines[index]?.any PatchLine.isChange

/-- The first and last changes of each group, where the context of neighbours in a group
touches. -/
def groups : List Nat → List (Nat × Nat)
  | [] => []
  | index :: rest =>
    match groups rest with
    | [] => [(index, index)]
    | (first, last) :: others =>
      if first ≤ index + 2 * context + 1 then (index, last) :: others
      else (index, index) :: (first, last) :: others

/-- A part of the lines that is printed, from `start` to before `stop`. -/
structure Hunk where
  start : Nat
  stop : Nat
  deriving DecidableEq

def hunks (lines : List PatchLine) : List Hunk :=
  (groups (changes lines)).map fun (first, last) =>
    ⟨first - context, min (last + context + 1) lines.length⟩

def line (text : Text) : Text :=
  text ++ ['\n']

def Hunk.body (hunk : Hunk) (lines : List PatchLine) : List PatchLine :=
  (lines.take hunk.stop).drop hunk.start

/-- Where a hunk starts on each side, counted from one, and how many lines it has there. -/
def Hunk.header (hunk : Hunk) (lines : List PatchLine) : Text :=
  let before := lines.take hunk.start
  let body := hunk.body lines
  "@@ -" ++ Text.decimal (before.countP PatchLine.isOld + 1) ++ "," ++
    Text.decimal (body.countP PatchLine.isOld) ++ " +" ++
    Text.decimal (before.countP PatchLine.isNew + 1) ++ "," ++
    Text.decimal (body.countP PatchLine.isNew) ++ " @@"

def Hunk.render (hunk : Hunk) (lines : List PatchLine) : Text :=
  line (hunk.header lines) ++
    (hunk.body lines).flatMap fun patchLine => line (patchLine.mark :: patchLine.text)

/-- The patch that makes the new text out of the old one; empty when they have the same lines. -/
def render (path old new : Text) : Text :=
  let all := lines (Text.lines old) (Text.lines new)
  match hunks all with
  | [] => []
  | first :: rest =>
    line ("--- " ++ path) ++ line ("+++ " ++ path) ++
      (first :: rest).flatMap fun hunk => hunk.render all

end Patch

end ConstructorInjection
