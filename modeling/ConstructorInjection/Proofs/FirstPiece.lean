import Mathlib.Data.List.Basic
import Mathlib.Tactic.Common
import ConstructorInjection.Proofs.Lexing

/-!
The first piece of a text. Few patterns can begin with a given character, and what they match is
settled by the characters up to the first one that cannot go on.
-/

namespace ConstructorInjection

namespace Pattern

/-- Whether a text that the pattern describes can begin with the character. -/
def opensWith : Pattern → Char → Bool
  | spelling characters, first => characters.head? == some first
  | blanks, first => isLineSpace first
  | variableName, first => first == '$'
  | name, first => first == '\\' || isLabelStart first
  | radixNumber _, first => first == '0'
  | decimalNumber, first => first.isDigit
  | fraction, first => first == '.'
  | closeTag, first => first == '?'
  | spoiledCloseTag, first => first == '?'

theorem matchLength_eq_zero {pattern : Pattern} {first : Char}
    (closed : pattern.opensWith first = false) (rest : Text) :
    pattern.matchLength (first :: rest) = 0 := by
  cases pattern with
  | spelling characters =>
      rw [matchLength, ite_eq_right_iff]
      intro starts
      cases characters with
      | nil => rfl
      | cons other characters =>
          simp only [List.isPrefixOf, Bool.and_eq_true, beq_iff_eq] at starts
          simp [opensWith, starts.1] at closed
  | blanks =>
      simp only [opensWith] at closed
      simp [matchLength, closed]
  | variableName =>
      rw [matchLength]
      rintro _ ⟨rfl, rfl⟩
      simp [opensWith] at closed
  | name =>
      simp only [opensWith, Bool.or_eq_false_iff, beq_eq_false_iff_ne] at closed
      rw [matchLength]
      · simp [labelLength, closed.2]
      · rintro _ ⟨rfl, rfl⟩
        exact closed.1 rfl
  | radixNumber radix =>
      rw [matchLength]
      rintro _ _ ⟨rfl, rfl⟩
      simp [opensWith] at closed
  | decimalNumber =>
      simp only [opensWith] at closed
      simp [matchLength, closed]
  | fraction =>
      rw [matchLength]
      rintro _ _ ⟨rfl, rfl⟩
      simp [opensWith] at closed
  | closeTag =>
      rw [matchLength]
      all_goals
        rintro _ ⟨rfl, rfl⟩
        simp [opensWith] at closed
  | spoiledCloseTag =>
      rw [matchLength]
      all_goals
        rintro _ ⟨rfl, rfl⟩
        simp [opensWith] at closed

end Pattern

theorem longestAmong_filter {input : Text} {rules : List LexicalRule} (keep : LexicalRule → Bool)
    (dropped : ∀ rule ∈ rules, keep rule = false → rule.pattern.matchLength input = 0) :
    longestAmong input rules = longestAmong input (rules.filter keep) := by
  induction rules with
  | nil => rfl
  | cons rule rules ih =>
      have later := ih fun other member => dropped other (List.mem_cons_of_mem _ member)
      by_cases kept : keep rule = true
      · rw [List.filter_cons_of_pos kept, longestAmong, longestAmong, later]
      · rw [List.filter_cons_of_neg kept, ← later, longestAmong]
        have zero := dropped rule (by simp) (by simpa using kept)
        cases found : longestAmong input rules with
        | none => simp [zero]
        | some other =>
            have positive := longestAmong_length_pos found
            simp [zero, positive]

theorem longestMatch_cons {first : Char} {rules : List LexicalRule}
    (kept : lexicalRules.filter (·.pattern.opensWith first) = rules) (rest : Text) :
    longestMatch (first :: rest) = longestAmong (first :: rest) rules := by
  rw [longestMatch, longestAmong_filter (·.pattern.opensWith first), kept]
  intro rule _ closed
  exact Pattern.matchLength_eq_zero closed rest

theorem takeWhile_append_of_stop {α : Type} {test : α → Bool} {front rest : List α}
    (all : ∀ element ∈ front, test element = true) (stop : rest.head?.any test = false) :
    (front ++ rest).takeWhile test = front := by
  rw [List.takeWhile_append_of_pos all]
  cases rest with
  | nil => simp
  | cons first rest =>
      simp only [List.head?_cons, Option.any_some] at stop
      simp [stop]

theorem isLabelPart_of_isLabelStart {character : Char} (start : isLabelStart character = true) :
    isLabelPart character = true := by
  rw [isLabelPart, start, Bool.true_or]

/-- A text that the lexer would read as one name without a backslash. -/
inductive IsLabel : Text → Prop where
  | mk {first : Char} {rest : Text} (start : isLabelStart first = true)
      (parts : ∀ character ∈ rest, isLabelPart character = true) : IsLabel (first :: rest)

theorem IsLabel.of_all {label : Text} (start : label.head?.any isLabelStart = true)
    (parts : label.all isLabelPart = true) : IsLabel label := by
  cases label with
  | nil => exact absurd start (by simp)
  | cons first rest =>
      exact .mk start fun character inRest =>
        List.all_eq_true.mp parts character (List.mem_cons_of_mem _ inRest)

theorem IsLabel.exists_cons {label : Text} (isLabel : IsLabel label) :
    ∃ first rest, label = first :: rest ∧ isLabelStart first = true := by
  cases isLabel with
  | mk start _ => exact ⟨_, _, rfl, start⟩

theorem IsLabel.ne_nil {label : Text} (isLabel : IsLabel label) : label ≠ [] := by
  cases isLabel
  simp

theorem IsLabel.parts {label : Text} (isLabel : IsLabel label) :
    ∀ character ∈ label, isLabelPart character = true := by
  cases isLabel with
  | mk start parts =>
      exact List.forall_mem_cons.mpr ⟨isLabelPart_of_isLabelStart start, parts⟩

theorem IsLabel.labelLength_append {label rest : Text} (isLabel : IsLabel label)
    (stop : rest.head?.any isLabelPart = false) : labelLength (label ++ rest) = label.length := by
  cases isLabel with
  | mk start parts =>
      rw [List.cons_append, labelLength, if_pos start, takeWhile_append_of_stop parts stop,
        List.length_cons]

/-- The text is read as one piece of the kind when the rest follows it. -/
def Leads (memberName : Bool) (text : Text) (kind : TokenKind) (rest : Text) : Prop :=
  ∃ piece, Piece.ofCode memberName (text ++ rest) = .ok piece ∧ piece.kind = kind ∧
    piece.length = text.length

theorem Piece.ofCode_of_longestMatch {memberName : Bool} {input : Text} {found : LexicalMatch}
    (result : longestMatch input = some found) :
    Piece.ofCode memberName input =
      Piece.ofMatch memberName input found (longestMatch_length_pos result) := by
  unfold Piece.ofCode
  split
  next other otherResult =>
    have same : other = found := Option.some.inj (otherResult.symm.trans result)
    subst same
    rfl
  next missing =>
    rw [missing] at result
    contradiction

theorem Leads.whole {memberName : Bool} {text rest : Text} {kind : TokenKind}
    (result : longestMatch (text ++ rest) = some ⟨.whole kind, text.length⟩) :
    Leads memberName text kind rest :=
  ⟨_, Piece.ofCode_of_longestMatch result, rfl, rfl⟩

theorem Leads.name {memberName : Bool} {text rest : Text}
    (result : longestMatch (text ++ rest) = some ⟨.name, text.length⟩) :
    Leads memberName text (nameKind memberName text) rest := by
  refine ⟨_, Piece.ofCode_of_longestMatch result, ?_, rfl⟩
  simp

section Characters

variable {memberName : Bool} {rest : Text}

theorem filter_rules_of_isLineSpace {first : Char} (space : isLineSpace first = true) :
    lexicalRules.filter (·.pattern.opensWith first) = [⟨.blanks, .whole .whitespace⟩] := by
  simp only [isLineSpace, isBlank, Bool.or_eq_true, beq_iff_eq] at space
  rcases space with ((rfl | rfl) | rfl) | rfl <;> rfl

theorem leads_blanks {blanks : Text} (nonempty : blanks ≠ [])
    (all : ∀ character ∈ blanks, isLineSpace character = true)
    (stop : rest.head?.any isLineSpace = false) : Leads memberName blanks .whitespace rest := by
  cases blanks with
  | nil => contradiction
  | cons first others =>
      apply Leads.whole
      rw [List.cons_append,
        longestMatch_cons (filter_rules_of_isLineSpace (all first (by simp)))]
      simp only [longestAmong, Pattern.matchLength, ← List.cons_append,
        takeWhile_append_of_stop all stop, List.length_cons, Nat.succ_ne_zero, if_false]

theorem leads_variable {label : Text} (isLabel : IsLabel label)
    (stop : rest.head?.any isLabelPart = false) :
    Leads memberName ('$' :: label) .variableName rest := by
  have positive := List.length_pos_iff.mpr isLabel.ne_nil
  have kept : lexicalRules.filter (·.pattern.opensWith '$') =
      [⟨.variableName, .whole .variableName⟩, ⟨.spelling ['$'], .whole .dollar⟩] := rfl
  apply Leads.whole
  rw [List.cons_append, longestMatch_cons kept]
  simp only [longestAmong, Pattern.matchLength, isLabel.labelLength_append stop, List.isPrefixOf,
    beq_self_eq_true, Bool.and_self, if_true, List.length_cons, List.length_nil]
  rw [if_neg (by omega), if_neg (by omega)]
  simp

theorem isDigit_eq_false_of_isLabelStart {first : Char} (start : isLabelStart first = true) :
    first.isDigit = false := by
  rw [Bool.eq_false_iff]
  intro digit
  rw [isLabelStart] at start
  delta Char.isAlpha Char.isUpper Char.isLower at start
  simp only [Char.isDigit, Bool.or_eq_true, Bool.and_eq_true, decide_eq_true_eq, beq_iff_eq,
    Char.toNat, UInt32.le_iff_toNat_le] at start digit
  have codes : '0'.val.toNat = 48 ∧ '9'.val.toNat = 57 ∧ 'A'.val.toNat = 65 ∧
      'Z'.val.toNat = 90 ∧ 'a'.val.toNat = 97 ∧ 'z'.val.toNat = 122 := by
    decide
  rcases start with (letter | rfl) | beyond
  · omega
  · exact absurd digit (by decide)
  · omega

/-- Whether the pattern is the one of names. -/
def Pattern.isName : Pattern → Bool
  | name => true
  | _ => false

/-- Whether the pattern spells out something that begins like a name. -/
def Pattern.spellsName : Pattern → Bool
  | spelling characters => characters.head?.any isLabelStart
  | _ => false

theorem filter_rules_of_isLabelStart {first : Char} (start : isLabelStart first = true) :
    lexicalRules.filter (·.pattern.opensWith first) = [⟨.name, .name⟩] := by
  have spelled : ∀ rule ∈ lexicalRules, rule.pattern.spellsName = false := by decide
  have different {other : Char} (noStart : isLabelStart other = false) : first ≠ other := by
    rintro rfl
    rw [start] at noStart
    contradiction
  have congruent : ∀ rule ∈ lexicalRules, rule.pattern.opensWith first = rule.pattern.isName := by
    intro rule member
    have noName := spelled rule member
    cases pattern : rule.pattern with
    | spelling characters =>
        rw [pattern] at noName
        simp only [Pattern.opensWith, Pattern.isName, beq_eq_false_iff_ne]
        intro head
        rw [Pattern.spellsName, head, Option.any_some, start] at noName
        contradiction
    | blanks =>
        simp only [Pattern.opensWith, Pattern.isName, isLineSpace, isBlank, Bool.or_eq_false_iff,
          beq_eq_false_iff_ne]
        exact ⟨⟨⟨different (by decide), different (by decide)⟩, different (by decide)⟩,
          different (by decide)⟩
    | name => simp [Pattern.opensWith, Pattern.isName, start]
    | decimalNumber => exact isDigit_eq_false_of_isLabelStart start
    | variableName | radixNumber | fraction | closeTag | spoiledCloseTag =>
        simp only [Pattern.opensWith, Pattern.isName, beq_eq_false_iff_ne]
        exact different (by decide)
  rw [List.filter_congr congruent]
  rfl

theorem leads_label {label : Text} (isLabel : IsLabel label)
    (stop : rest.head?.any isLabelPart = false) (noSegment : rest.head? ≠ some '\\') :
    Leads memberName label (nameKind memberName label) rest := by
  apply Leads.name
  have positive := List.length_pos_iff.mpr isLabel.ne_nil
  have length := isLabel.labelLength_append stop
  have noMore : segmentsLength rest = 0 := by
    unfold segmentsLength
    split
    next => simp at noSegment
    next => rfl
  cases isLabel with
  | @mk first parts start all =>
      rw [List.cons_append] at length ⊢
      rw [longestMatch_cons (filter_rules_of_isLabelStart start)]
      have matched : Pattern.matchLength .name (first :: (parts ++ rest)) = (first :: parts).length := by
        rw [Pattern.matchLength, length, if_neg (by omega), ← List.cons_append, List.drop_left,
          noMore, Nat.add_zero]
        rintro _ ⟨rfl, rfl⟩
        contradiction
      simp only [longestAmong, matched, List.length_cons, Nat.succ_ne_zero, if_false]

/-- Delimiters and separators with which nothing else begins. -/
theorem leads_mark {mark : Char} {kind : TokenKind}
    (kept : lexicalRules.filter (·.pattern.opensWith mark) = [⟨.spelling [mark], .whole kind⟩]) :
    Leads memberName [mark] kind rest := by
  apply Leads.whole
  rw [List.cons_append, longestMatch_cons kept]
  simp [longestAmong, Pattern.matchLength, List.isPrefixOf]

theorem leads_arrow : Leads memberName ['-', '>'] .objectOperator rest := by
  have kept : lexicalRules.filter (·.pattern.opensWith '-') =
      [⟨.spelling ['-', '>'], .whole .objectOperator⟩, ⟨.spelling ['-', '-'], .whole .operator⟩,
        ⟨.spelling ['-', '='], .whole .operator⟩, ⟨.spelling ['-'], .whole .operator⟩] := rfl
  apply Leads.whole
  rw [List.cons_append, longestMatch_cons kept]
  simp [longestAmong, Pattern.matchLength, List.isPrefixOf]

theorem leads_doubleColon : Leads memberName [':', ':'] .doubleColon rest := by
  have kept : lexicalRules.filter (·.pattern.opensWith ':') =
      [⟨.spelling [':', ':'], .whole .doubleColon⟩, ⟨.spelling [':'], .whole .operator⟩] := rfl
  apply Leads.whole
  rw [List.cons_append, longestMatch_cons kept]
  simp [longestAmong, Pattern.matchLength, List.isPrefixOf]

theorem leads_assign (noEqual : rest.head? ≠ some '=') (noArrow : rest.head? ≠ some '>') :
    Leads memberName ['='] .assign rest := by
  have kept : lexicalRules.filter (·.pattern.opensWith '=') =
      [⟨.spelling ['=', '>'], .whole .doubleArrow⟩, ⟨.spelling ['='], .whole .assign⟩,
        ⟨.spelling ['=', '='], .whole .operator⟩, ⟨.spelling ['=', '=', '='], .whole .operator⟩] := rfl
  apply Leads.whole
  rw [List.cons_append, longestMatch_cons kept]
  cases rest with
  | nil => simp [longestAmong, Pattern.matchLength, List.isPrefixOf]
  | cons next rest =>
      simp only [List.head?_cons, ne_eq, Option.some.injEq] at noEqual noArrow
      have notEqual : ('=' == next) = false := beq_eq_false_iff_ne.mpr (Ne.symm noEqual)
      have notArrow : ('>' == next) = false := beq_eq_false_iff_ne.mpr (Ne.symm noArrow)
      simp [longestAmong, Pattern.matchLength, List.isPrefixOf, notEqual, notArrow]

end Characters

theorem blockCommentExtent_append {text : Text} (noEnd : '*' ∉ text) (rest : Text) :
    blockCommentExtent (text ++ ' ' :: '*' :: '/' :: rest) = some (text.length + 3) := by
  induction text with
  | nil => rfl
  | cons first text ih =>
      have further := ih fun member => noEnd (List.mem_cons_of_mem _ member)
      rw [List.cons_append, blockCommentExtent, further]
      · simp only [Option.map_some, List.length_cons]
      · rintro _ ⟨rfl, _⟩
        simp at noEnd

theorem Text.length_le_byteLength (text : Text) : text.length ≤ text.byteLength := by
  induction text with
  | nil => exact Nat.le_refl _
  | cons first rest ih =>
      have positive := first.utf8Size_pos
      rw [List.length_cons, byteLength]
      omega

/-- A comment in the manner of documentation, up to its first end. -/
theorem leads_docComment {memberName : Bool} {text rest : Text} (noEnd : '*' ∉ text) :
    Leads memberName ('/' :: '*' :: '*' :: ' ' :: (text ++ [' ', '*', '/'])) .docComment rest := by
  have kept : lexicalRules.filter (·.pattern.opensWith '/') =
      [⟨.spelling ['/', '/'], .lineComment⟩, ⟨.spelling ['/', '*'], .blockComment⟩,
        ⟨.spelling ['/', '='], .whole .operator⟩, ⟨.spelling ['/'], .whole .operator⟩] := rfl
  have opened : longestMatch ('/' :: '*' :: '*' :: ' ' :: (text ++ [' ', '*', '/']) ++ rest) =
      some ⟨.blockComment, 2⟩ := by
    rw [List.cons_append, longestMatch_cons kept]
    simp [longestAmong, Pattern.matchLength, List.isPrefixOf]
  have extent : blockCommentExtent
      (('/' :: '*' :: '*' :: ' ' :: (text ++ [' ', '*', '/']) ++ rest).drop 2) =
        some (text.length + 5) := by
    have inner := blockCommentExtent_append noEnd rest
    have shape : ('/' :: '*' :: '*' :: ' ' :: (text ++ [' ', '*', '/']) ++ rest).drop 2 =
        '*' :: ' ' :: (text ++ ' ' :: '*' :: '/' :: rest) := by
      simp
    rw [shape, blockCommentExtent, blockCommentExtent, inner]
    · rfl
    · simp
    · simp
  have long := Text.length_le_byteLength ('/' :: '*' :: '*' :: ' ' :: (text ++ [' ', '*', '/']))
  have whole : ('/' :: '*' :: '*' :: ' ' :: (text ++ [' ', '*', '/']) ++ rest).take
      (2 + (text.length + 5)) = '/' :: '*' :: '*' :: ' ' :: (text ++ [' ', '*', '/']) := by
    apply List.take_left'
    simp only [List.length_cons, List.length_append, List.length_nil]
    omega
  refine ⟨⟨.docComment, 2 + (text.length + 5), by omega⟩, ?_, rfl, ?_⟩
  · rw [Piece.ofCode_of_longestMatch opened]
    simp only [Piece.ofMatch, extent, whole]
    have kind : blockCommentKind ('/' :: '*' :: '*' :: ' ' :: (text ++ [' ', '*', '/'])) =
        .docComment := by
      simp only [blockCommentKind]
      rw [if_pos]
      simp only [List.length_cons, List.length_append, List.length_nil] at long
      simp only [Bool.and_eq_true, decide_eq_true_eq]
      exact ⟨by omega, by decide⟩
    rw [kind]
  · simp only [List.length_cons, List.length_append, List.length_nil]
    omega

end ConstructorInjection
