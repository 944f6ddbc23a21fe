import ConstructorInjection.Token

/-!
Token sequences and the ways to find one's place in them. Places are indices, ranges of indices run
from `start` to before `stop`, and both may lie beyond the last token.
-/

namespace ConstructorInjection

structure IndexRange where
  start : Nat
  stop : Nat
  deriving DecidableEq

namespace IndexRange

def isEmpty (range : IndexRange) : Bool :=
  range.stop ≤ range.start

def length (range : IndexRange) : Nat :=
  range.stop - range.start

end IndexRange

abbrev TokenStream := List Token

namespace TokenStream

def slice (stream : TokenStream) (range : IndexRange) : List Token :=
  (stream.take range.stop).drop range.start

def textOf (stream : TokenStream) (range : IndexRange) : Text :=
  ConstructorInjection.textOf (stream.slice range)

def splice (stream : TokenStream) (range : IndexRange) (replacement : List Token) : TokenStream :=
  let stop := min range.stop stream.length
  let start := min range.start stop
  stream.take start ++ replacement ++ stream.drop stop

def kindAt? (stream : TokenStream) (index : Nat) : Option TokenKind :=
  stream[index]?.map Token.kind

def hasKind (stream : TokenStream) (kind : TokenKind) (index : Nat) : Bool :=
  stream.kindAt? index == some kind

def isKeyword (stream : TokenStream) (word : Text) (index : Nat) : Bool :=
  stream[index]?.any (·.isKeyword word)

def firstIn? (stream : TokenStream) (range : IndexRange) (test : Token → Bool) : Option Nat :=
  ((stream.slice range).findIdx? test).map (range.start + ·)

def lastIn? (stream : TokenStream) (range : IndexRange) (test : Token → Bool) : Option Nat :=
  ((stream.slice range).reverse.findIdx? test).map fun behind =>
    range.start + ((stream.slice range).length - 1 - behind)

/-- The first index from `start` on that is neither blank nor comment. -/
def significantFrom? (stream : TokenStream) (start : Nat) : Option Nat :=
  stream.firstIn? ⟨start, stream.length⟩ (!·.isTrivia)

def nextSignificant? (stream : TokenStream) (index : Nat) : Option Nat :=
  stream.significantFrom? (index + 1)

/-- The last index before `index` that is neither blank nor comment. -/
def previousSignificant? (stream : TokenStream) (index : Nat) : Option Nat :=
  stream.lastIn? ⟨0, index⟩ (!·.isTrivia)

def nextOfKind? (stream : TokenStream) (kind : TokenKind) (index : Nat) : Option Nat :=
  (stream.nextSignificant? index).filter (stream.hasKind kind)

/-- How many tokens lie before the closer of a delimiter, read from behind the opener, with `depth`
delimiters open inside it. All families of delimiters count alike. -/
def closerDistance? (depth : Nat) : List Token → Option Nat
  | [] => none
  | token :: rest =>
    if token.kind.isOpener then (closerDistance? (depth + 1) rest).map (· + 1)
    else if token.kind.isCloser then
      match depth with
      | 0 => some 0
      | depth + 1 => (closerDistance? depth rest).map (· + 1)
    else (closerDistance? depth rest).map (· + 1)

def matchingClose? (stream : TokenStream) (opener : Nat) : Option Nat :=
  if stream[opener]?.any (·.kind.isOpener) then
    (closerDistance? 0 (stream.drop (opener + 1))).map (opener + 1 + ·)
  else none

/-- The ranges between the commas outside of all delimiters, for tokens that start at `index`. The
range that is being read starts at `start`, with `depth` delimiters open. -/
def splitFrom (start index depth : Nat) : List Token → List IndexRange
  | [] => [⟨start, index⟩]
  | token :: rest =>
    if token.kind.isOpener then splitFrom start (index + 1) (depth + 1) rest
    else if token.kind.isCloser then splitFrom start (index + 1) (depth - 1) rest
    else if token.kind = .comma ∧ depth = 0 then
      ⟨start, index⟩ :: splitFrom (index + 1) (index + 1) depth rest
    else splitFrom start (index + 1) depth rest

def isSignificant (stream : TokenStream) (range : IndexRange) : Bool :=
  (stream.slice range).any (!·.isTrivia)

/-- The items of a range: what lies between the commas that no delimiter encloses, without items of
mere blanks and comments. -/
def splitTopLevel (stream : TokenStream) (range : IndexRange) : List IndexRange :=
  (splitFrom range.start range.start 0 (stream.slice range)).filter stream.isSignificant

/-- The range without blanks and comments at its two ends. -/
def trimTrivia (stream : TokenStream) (range : IndexRange) : IndexRange :=
  let stop := min range.stop stream.length
  let tokens := stream.slice ⟨range.start, stop⟩
  let before := (tokens.takeWhile Token.isTrivia).length
  let behind := ((tokens.drop before).reverse.takeWhile Token.isTrivia).length
  ⟨range.start + before, stop - behind⟩

theorem start_le_trimTrivia (stream : TokenStream) (range : IndexRange) :
    range.start ≤ (stream.trimTrivia range).start := by
  simp [trimTrivia]

theorem start_le_of_mem_splitFrom {start index depth : Nat} {tokens : List Token}
    {item : IndexRange} (ordered : start ≤ index)
    (member : item ∈ splitFrom start index depth tokens) : start ≤ item.start := by
  induction tokens generalizing start index depth with
  | nil =>
      simp only [splitFrom, List.mem_singleton] at member
      simp [member]
  | cons token rest ih =>
      rw [splitFrom] at member
      split at member
      · exact ih (by omega) member
      · split at member
        · exact ih (by omega) member
        · split at member
          · rcases List.mem_cons.mp member with first | later
            · simp [first]
            · have below := ih (Nat.le_refl _) later
              omega
          · exact ih (by omega) member

theorem start_le_of_mem_splitTopLevel {stream : TokenStream} {range item : IndexRange}
    (member : item ∈ stream.splitTopLevel range) : range.start ≤ item.start :=
  start_le_of_mem_splitFrom (Nat.le_refl _) (List.mem_filter.mp member).1

theorem le_of_significantFrom? {stream : TokenStream} {start found : Nat}
    (result : stream.significantFrom? start = some found) : start ≤ found := by
  simp only [significantFrom?, firstIn?, Option.map_eq_some_iff] at result
  obtain ⟨distance, _, rfl⟩ := result
  simp

theorem lt_of_nextSignificant? {stream : TokenStream} {index found : Nat}
    (result : stream.nextSignificant? index = some found) : index < found :=
  le_of_significantFrom? result

theorem lt_of_nextOfKind? {stream : TokenStream} {kind : TokenKind} {index found : Nat}
    (result : stream.nextOfKind? kind index = some found) : index < found :=
  lt_of_nextSignificant? (Option.filter_eq_some_iff.mp result).1

theorem lt_of_lastIn? {stream : TokenStream} {range : IndexRange} {test : Token → Bool}
    {found : Nat} (result : stream.lastIn? range test = some found) : found < range.stop := by
  simp only [lastIn?, Option.map_eq_some_iff] at result
  obtain ⟨behind, position, rfl⟩ := result
  have bound := (List.findIdx?_eq_some_iff_getElem.mp position).1
  simp only [List.length_reverse, slice, List.length_drop, List.length_take] at bound ⊢
  omega

theorem lt_of_previousSignificant? (stream : TokenStream) {index found : Nat}
    (result : stream.previousSignificant? index = some found) : found < index :=
  lt_of_lastIn? result

end TokenStream

end ConstructorInjection
