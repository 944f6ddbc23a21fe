import ConstructorInjection.Proofs.CopiedExtents
import ConstructorInjection.Proofs.PatternLanguages

/-!
Where comments, strings and heredocs end: at the first place in the text behind their openers that
ends them.
-/

namespace ConstructorInjection

open scoped Computability

/-- The first place where a text can be cut in two such that both parts are as asked. -/
structure IsFirstCut (cut : Text → Text → Prop) (text : Text) (length : Nat) : Prop where
  inside : length ≤ text.length
  cuts : cut (text.take length) (text.drop length)
  first : ∀ earlier < length, ¬ cut (text.take earlier) (text.drop earlier)

def HasNoCut (cut : Text → Text → Prop) (text : Text) : Prop :=
  ∀ length, ¬ cut (text.take length) (text.drop length)

/-- The first place where a text can be cut, or none if it cannot. -/
def FindsCut (cut : Text → Text → Prop) (text : Text) : Option Nat → Prop
  | some length => IsFirstCut cut text length
  | none => HasNoCut cut text

section Cuts

variable {cut : Text → Text → Prop} {text rest : Text} {first : Char} {length : Nat}

theorem IsFirstCut.unique {other : Nat} (isFirst : IsFirstCut cut text length)
    (also : IsFirstCut cut text other) : other = length := by
  obtain earlier | same | later := Nat.lt_trichotomy other length
  · exact absurd also.cuts (isFirst.first other earlier)
  · exact same
  · exact absurd isFirst.cuts (also.first length later)

theorem isFirstCut_zero (cuts : cut [] text) : IsFirstCut cut text 0 where
  inside := Nat.zero_le _
  cuts := by simpa using cuts
  first _ earlier := absurd earlier (Nat.not_lt_zero _)

theorem IsFirstCut.cons (notHere : ¬ cut [] (first :: rest))
    (later : IsFirstCut (fun before after => cut (first :: before) after) rest length) :
    IsFirstCut cut (first :: rest) (length + 1) where
  inside := Nat.succ_le_succ later.inside
  cuts := later.cuts
  first earlier before := by
    cases earlier with
    | zero => exact notHere
    | succ earlier => exact later.first earlier (Nat.lt_of_succ_lt_succ before)

theorem FindsCut.cons {found : Option Nat} (notHere : ¬ cut [] (first :: rest))
    (later : FindsCut (fun before after => cut (first :: before) after) rest found) :
    FindsCut cut (first :: rest) (found.map (· + 1)) := by
  cases found with
  | none =>
      intro length
      cases length with
      | zero => exact notHere
      | succ length => exact later length
  | some length => exact IsFirstCut.cons notHere later

theorem FindsCut.congr {other : Text → Text → Prop} {found : Option Nat}
    (finds : FindsCut cut text found) (same : ∀ before after, cut before after ↔ other before after) :
    FindsCut other text found := by
  have equal : cut = other := funext fun before => funext fun after => propext (same before after)
  rwa [← equal]

theorem FindsCut.isFirstCut_iff {found : Option Nat} (finds : FindsCut cut text found) :
    IsFirstCut cut text length ↔ found = some length := by
  cases found with
  | none => exact iff_of_false (fun isFirst => finds length isFirst.cuts) (by simp)
  | some other =>
      rw [Option.some.injEq]
      constructor
      · intro isFirst
        exact isFirst.unique finds
      · rintro rfl
        exact finds

theorem FindsCut.hasNoCut_iff {found : Option Nat} (finds : FindsCut cut text found) :
    HasNoCut cut text ↔ found = none := by
  cases found with
  | none => exact iff_of_true finds rfl
  | some other => exact iff_of_false (fun none => none other finds.cuts) (by simp)

theorem findsCut_nil (notHere : ¬ cut [] []) : FindsCut cut [] none := by
  intro length
  simpa using notHere

end Cuts

/-- What a line comment does not reach into. -/
def EndsLine (after : Text) : Prop :=
  after = [] ∨ EndsComment after

theorem isFirstCut_lineCommentExtent (text : Text) :
    IsFirstCut (fun _ => EndsLine) text (lineCommentExtent text) := by
  induction text using lineCommentExtent.induct with
  | case1 => exact isFirstCut_zero (.inl rfl)
  | case2 rest => exact isFirstCut_zero (.inr (.inl rfl))
  | case3 rest => exact isFirstCut_zero (.inr (.inr rfl))
  | case4 first rest noFeed noTag ih =>
      rw [lineCommentExtent.eq_4 first rest noFeed noTag]
      refine IsFirstCut.cons ?_ ih
      rintro (isEmpty | feed | tag)
      · contradiction
      · exact noFeed (by simpa using feed)
      · obtain ⟨more, whole⟩ := Pattern.exists_behind_tag tag
        obtain ⟨isMark, behind⟩ := List.cons.inj whole
        exact noTag more isMark behind

theorem isFirstCut_endsLine_iff {text : Text} {length : Nat} :
    IsFirstCut (fun _ => EndsLine) text length ↔ lineCommentExtent text = length := by
  have isFirst := isFirstCut_lineCommentExtent text
  constructor
  · intro also
    exact also.unique isFirst
  · rintro rfl
    exact isFirst

/-- What ends a block comment. -/
def EndsBlock (after : Text) : Prop :=
  ['*', '/'] <+: after

theorem findsCut_blockCommentExtent (text : Text) :
    ∃ first, FindsCut (fun _ => EndsBlock) text first ∧
      blockCommentExtent text = first.map (· + 2) := by
  fun_induction blockCommentExtent text with
  | case1 => exact ⟨none, findsCut_nil (by simp [EndsBlock]), rfl⟩
  | case2 rest => exact ⟨some 0, isFirstCut_zero (List.prefix_append ['*', '/'] rest), rfl⟩
  | case3 first rest noEnd ih =>
      obtain ⟨found, finds, extent⟩ := ih
      refine ⟨found.map (· + 1), FindsCut.cons ?_ finds, ?_⟩
      · rintro ⟨more, whole⟩
        obtain ⟨star, slash⟩ := List.cons.inj whole
        exact noEnd more star.symm slash.symm
      · rw [extent]
        cases found <;> rfl

/-- Texts in which each backslash has a character that it escapes. -/
def escapedTexts : Language Char :=
  (among (· ≠ '\\') + exactly '\\' * among fun _ => true)∗

/-- A quote that no backslash escapes stands behind the first text. -/
def EndsString (quote : Char) (before after : Text) : Prop :=
  before ∈ escapedTexts ∧ [quote] <+: after

theorem nil_mem_escapedTexts : [] ∈ escapedTexts :=
  Language.nil_mem_kstar _

theorem mem_escapedTexts {word : Text} :
    word ∈ escapedTexts ↔ word = [] ∨ word ∈ among (· ≠ '\\') * escapedTexts ∨
      word ∈ exactly '\\' * ((among fun _ => true) * escapedTexts) := by
  conv_lhs => rw [escapedTexts, kstar_eq_optional, add_mul, mul_assoc]
  rfl

theorem cons_mem_escapedTexts {first : Char} {rest : Text} :
    first :: rest ∈ escapedTexts ↔
      (first ≠ '\\' ∧ rest ∈ escapedTexts) ∨
        (first = '\\' ∧ ∃ escaped later, rest = escaped :: later ∧ later ∈ escapedTexts) := by
  rw [mem_escapedTexts]
  simp [exactly, mem_among_mul]

theorem findsCut_quotedExtent {quote : Char} (noBackslash : quote ≠ '\\') (text : Text) :
    ∃ first, FindsCut (EndsString quote) text first ∧
      quotedExtent quote text = first.map (· + 1) := by
  fun_induction quotedExtent quote text with
  | case1 => exact ⟨none, findsCut_nil (by simp [EndsString]), rfl⟩
  | case2 =>
      refine ⟨none, FindsCut.cons ?_ (findsCut_nil ?_), rfl⟩
      · simpa [EndsString] using fun _ => noBackslash
      · simp [EndsString]
  | case3 escaped rest ih =>
      obtain ⟨found, finds, extent⟩ := ih
      refine ⟨(found.map (· + 1)).map (· + 1),
        FindsCut.cons ?_ (FindsCut.cons ?_ (finds.congr ?_)), ?_⟩
      · simpa [EndsString] using fun _ => noBackslash
      · simp [EndsString, cons_mem_escapedTexts]
      · intro before after
        simp [EndsString, cons_mem_escapedTexts]
      · rw [extent]
        cases found <;> rfl
  | case4 rest noEscape noLast =>
      exact ⟨some 0, isFirstCut_zero ⟨nil_mem_escapedTexts, List.prefix_append [quote] rest⟩, rfl⟩
  | case5 first rest noLast noEscape notQuote ih =>
      obtain ⟨found, finds, extent⟩ := ih
      have plain : first ≠ '\\' := by
        intro backslash
        cases rest with
        | nil => exact noLast backslash rfl
        | cons escaped rest => exact noEscape escaped rest backslash rfl
      refine ⟨found.map (· + 1), FindsCut.cons ?_ (finds.congr ?_), ?_⟩
      · simpa [EndsString] using fun _ => Ne.symm notQuote
      · intro before after
        simp [EndsString, cons_mem_escapedTexts, plain]
      · rw [extent]

/-! Heredocs. -/

section Heredoc

variable {label : Text} (named : ∀ character ∈ label, isLabelPart character = true)
  (nonempty : label ≠ [])

/-- Blanks and the label, with no more of a label behind them. -/
def ClosesHeredoc (label after closing : Text) : Prop :=
  ∃ blanks more, closing = blanks ++ label ∧ after = closing ++ more ∧
    (∀ character ∈ blanks, isBlank character = true) ∧ more.head?.any isLabelPart = false

include named nonempty in
theorem closingLabelLength?_of_closes {after closing : Text}
    (closes : ClosesHeredoc label after closing) :
    closingLabelLength? label after = some closing.length := by
  obtain ⟨blanks, more, rfl, rfl, allBlank, stops⟩ := closes
  exact (closingLabelLength?_eq_some_iff named nonempty).mpr
    ⟨blanks, more, List.append_assoc .., allBlank, stops, List.length_append⟩

include named nonempty in
theorem closes_of_closingLabelLength? {after : Text} {length : Nat}
    (closing : closingLabelLength? label after = some length) :
    ClosesHeredoc label after (after.take length) := by
  obtain ⟨blanks, more, rfl, allBlank, stops, rfl⟩ :=
    (closingLabelLength?_eq_some_iff named nonempty).mp closing
  rw [← List.append_assoc, ← List.length_append, List.take_left]
  exact ⟨blanks, more, rfl, rfl, allBlank, stops⟩

/-- Whether the place behind some text is the start of a line, if that behind none is. -/
def IsLineStart (atLineStart : Bool) (before : Text) : Prop :=
  if before = [] then atLineStart = true else before.getLast? = some '\n'

theorem isLineStart_cons (atLineStart : Bool) (first : Char) (before : Text) :
    IsLineStart atLineStart (first :: before) ↔ IsLineStart (first == '\n') before := by
  cases before with
  | nil => simp [IsLineStart]
  | cons second before => simp [IsLineStart]

/-- A line that closes a heredoc starts behind the first text. -/
def StartsClosingLine (label : Text) (atLineStart : Bool) (before after : Text) : Prop :=
  IsLineStart atLineStart before ∧ ∃ closing, ClosesHeredoc label after closing

include named nonempty in
theorem findsCut_heredocBodyExtent (text : Text) (atLineStart : Bool) :
    ∃ first, FindsCut (StartsClosingLine label atLineStart) text first ∧
      heredocBodyExtent label atLineStart text =
        first.bind fun body => (closingLabelLength? label (text.drop body)).map (body + ·) := by
  induction text generalizing atLineStart with
  | nil =>
      refine ⟨none, findsCut_nil ?_, rfl⟩
      rintro ⟨-, closing, blanks, more, rfl, whole, -⟩
      simp [nonempty] at whole
  | cons first rest ih =>
      rw [heredocBodyExtent]
      split
      next length closing =>
        obtain ⟨atStart, closes⟩ := Option.ite_none_right_eq_some.mp closing
        have isClosing := closes_of_closingLabelLength? named nonempty closes
        refine ⟨some 0, isFirstCut_zero ⟨atStart, _, isClosing⟩, ?_⟩
        simp [closes]
      next notHere =>
        obtain ⟨found, finds, extent⟩ := ih (first == '\n')
        refine ⟨found.map (· + 1), FindsCut.cons ?_ (finds.congr ?_), ?_⟩
        · rintro ⟨atStart, closing, closes⟩
          rw [if_pos (show atLineStart = true from atStart),
            closingLabelLength?_of_closes named nonempty closes] at notHere
          contradiction
        · intro before after
          rw [StartsClosingLine, StartsClosingLine, isLineStart_cons]
        · rw [extent]
          cases found with
          | none => rfl
          | some body =>
              simp only [Option.bind_some, Option.map_some, List.drop_succ_cons, Option.map_map]
              congr 1
              funext length
              simp only [Function.comp_apply]
              omega

include named nonempty in
theorem heredocBodyExtent_eq_some_iff {text : Text} {extent : Nat} :
    heredocBodyExtent label true text = some extent ↔
      ∃ body closing, IsFirstCut (StartsClosingLine label true) text body ∧
        ClosesHeredoc label (text.drop body) closing ∧ extent = body + closing.length := by
  obtain ⟨first, finds, found⟩ := findsCut_heredocBodyExtent named nonempty text true
  rw [found]
  simp only [finds.isFirstCut_iff, Option.bind_eq_some_iff, Option.map_eq_some_iff]
  constructor
  · rintro ⟨body, isFirst, length, closing, rfl⟩
    have closes := closes_of_closingLabelLength? named nonempty closing
    have size := closingLabelLength?_of_closes named nonempty closes
    rw [closing, Option.some.injEq] at size
    exact ⟨body, _, isFirst, closes, by rw [← size]⟩
  · rintro ⟨body, closing, isFirst, closes, rfl⟩
    exact ⟨body, isFirst, _, closingLabelLength?_of_closes named nonempty closes, rfl⟩

include named nonempty in
theorem heredocBodyExtent_eq_none_iff {text : Text} :
    heredocBodyExtent label true text = none ↔ HasNoCut (StartsClosingLine label true) text := by
  obtain ⟨first, finds, found⟩ := findsCut_heredocBodyExtent named nonempty text true
  rw [finds.hasNoCut_iff, found]
  cases first with
  | none => simp
  | some body =>
      obtain ⟨-, closing, closes⟩ := finds.cuts
      simp [closingLabelLength?_of_closes named nonempty closes]

end Heredoc

end ConstructorInjection
