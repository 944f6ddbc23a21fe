import ConstructorInjection.Patch

/-!
Patches as they are read: the hunks in the text of a patch, and what they make of the lines of the old
text. A hunk is applied at the place that its header gives, and only to the lines that it shows.
-/

namespace ConstructorInjection

/-- The lines of a text in which every line ends with a line feed. -/
def Text.finishedLines? (text : Text) : Option (List Text) :=
  let parts := Text.splitAtEach '\n' text
  if parts.getLast? = some [] then some parts.dropLast else none

namespace Patch

/-- What lines show of the old text. -/
def oldSide (lines : List PatchLine) : List Text :=
  (lines.filter PatchLine.isOld).map PatchLine.text

/-- What lines show of the new text. -/
def newSide (lines : List PatchLine) : List Text :=
  (lines.filter PatchLine.isNew).map PatchLine.text

/-- A hunk by its header and its lines. Starts are counted from one. -/
structure PlacedHunk where
  oldStart : Nat
  oldCount : Nat
  newStart : Nat
  newCount : Nat
  body : List PatchLine
  deriving DecidableEq

/-- A hunk of the given lines behind all the lines before it. -/
def placed (before body : List PatchLine) : PlacedHunk :=
  ⟨before.countP PatchLine.isOld + 1, body.countP PatchLine.isOld,
    before.countP PatchLine.isNew + 1, body.countP PatchLine.isNew, body⟩

/-- The number at the start of a text, and what follows it. -/
def readNumber? (text : Text) : Option (Nat × Text) :=
  match text.takeWhile Char.isDigit with
  | [] => none
  | first :: digits =>
    some (Nat.ofDigitChars 10 (first :: digits) 0, text.drop (digits.length + 1))

/-- The number behind a mark at the start of a text, and what follows it. -/
def readField? (mark text : Text) : Option (Nat × Text) :=
  (Text.dropStart? mark text).bind readNumber?

/-- A hunk that has a header and no lines yet. -/
def readHeader? (text : Text) : Option PlacedHunk := do
  let (oldStart, behindOldStart) ← readField? "@@ -" text
  let (oldCount, behindOldCount) ← readField? "," behindOldStart
  let (newStart, behindNewStart) ← readField? " +" behindOldCount
  let (newCount, behindNewCount) ← readField? "," behindNewStart
  if behindNewCount = " @@" then some ⟨oldStart, oldCount, newStart, newCount, []⟩ else none

def readLine? : Text → Option PatchLine
  | ' ' :: text => some (.same text)
  | '-' :: text => some (.removed text)
  | '+' :: text => some (.added text)
  | _ => none

/-- The hunks among some lines, and the lines in front of the first header. -/
def readHunks? : List Text → Option (List PatchLine × List PlacedHunk)
  | [] => some ([], [])
  | line :: rest => do
    let (body, hunks) ← readHunks? rest
    match readHeader? line with
    | some hunk => some ([], { hunk with body } :: hunks)
    | none => (readLine? line).map fun first => (first :: body, hunks)

/-- The hunks of a patch to the file of a path. The empty text is the patch without hunks. -/
def read? (path : Text) (text : Text) : Option (List PlacedHunk) :=
  if text = [] then some []
  else do
    let rest ← Text.dropStart? (line ("--- " ++ path) ++ line ("+++ " ++ path)) text
    let (front, hunks) ← readHunks? (← Text.finishedLines? rest)
    if front = [] then some hunks else none

/-- Applies hunks to the old lines behind the first `passedOld` ones, out of which the first
`passedNew` new lines have been made. -/
def applyFrom? (passedOld passedNew : Nat) : List PlacedHunk → List Text → Option (List Text)
  | [], old => some old
  | hunk :: later, old =>
    let kept := hunk.oldStart - (passedOld + 1)
    if hunk.oldStart = passedOld + kept + 1 ∧ hunk.newStart = passedNew + kept + 1 ∧
        kept ≤ old.length ∧ (oldSide hunk.body).isPrefixOf (old.drop kept) then
      (applyFrom? (passedOld + kept + hunk.oldCount) (passedNew + kept + hunk.newCount) later
        (old.drop (kept + (oldSide hunk.body).length))).map
          fun rest => old.take kept ++ newSide hunk.body ++ rest
    else none

/-- The lines that hunks make of the old ones. -/
def patched? (hunks : List PlacedHunk) (old : List Text) : Option (List Text) :=
  applyFrom? 0 0 hunks old

end Patch

end ConstructorInjection
