import ConstructorInjection.Proofs.PatternLanguages

/-!
The longest match of a text. No two rules have a word in common, so that the longest match belongs
to one rule only.
-/

namespace ConstructorInjection

open scoped Computability

/-- The pattern that a word has if it is none of the spelled ones. -/
def Pattern.ofWord : Text → Pattern
  | [] => .blanks
  | first :: rest =>
    if isLineSpace first then .blanks
    else if first = '$' then .variableName
    else if first = '.' then .fraction
    else if first = '?' then .closeTag
    else if first.isDigit then
      if rest.head?.any Radix.hexadecimal.isMarker then .radixNumber .hexadecimal
      else if rest.head?.any Radix.binary.isMarker then .radixNumber .binary
      else if rest.head?.any Radix.octal.isMarker then .radixNumber .octal
      else .decimalNumber
    else .name

theorem Radix.isMarker_digit (radix : Radix) {character : Char}
    (digit : isDigitOrUnderscore character = true) : radix.isMarker character = false := by
  rw [Bool.eq_false_iff]
  intro marks
  cases radix <;> simp only [isMarker, Bool.or_eq_true, beq_iff_eq] at marks <;>
    rcases marks with rfl | rfl <;> exact absurd digit (by decide)

theorem Radix.isMarker_exponent (radix : Radix) {character : Char}
    (marks : isExponentMarker character = true) : radix.isMarker character = false := by
  simp only [isExponentMarker, Bool.or_eq_true, beq_iff_eq] at marks
  cases radix <;> rcases marks with rfl | rfl <;> decide

/-- A decimal number does not go on behind its first digit as the others do. -/
theorem avoids_marker (radix : Radix) :
    Avoids radix.isMarker
      ((among isDigitOrUnderscore)∗ * (optional decimals * optional exponents)) := by
  refine Avoids.mul (Avoids.kstar (avoids_among fun _ => radix.isMarker_digit) ?_) fun _ =>
    Avoids.mul (avoids_among_mul ?_ _).optional fun _ =>
      avoids_exponents fun _ => radix.isMarker_exponent
  · rintro ⟨character, -, whole⟩
    contradiction
  · intro character point
    rw [beq_iff_eq.mp point]
    cases radix <;> decide

namespace Pattern

def spelled? : Pattern → Option Text
  | spelling characters => some characters
  | _ => none

/-- What a spelled pattern matches begins like its spelling. -/
theorem prefix_of_matchLength {pattern : Pattern} {characters input : Text}
    (spells : pattern.spelled? = some characters) (matched : pattern.matchLength input ≠ 0) :
    characters <+: input ∧ pattern.matchLength input = characters.length := by
  cases pattern with
  | spelling =>
      cases spells
      rw [matchLength] at matched ⊢
      split at matched
      next starts => exact ⟨List.isPrefixOf_iff_prefix.mp starts, if_pos starts⟩
      next => contradiction
  | _ => contradiction

theorem eq_of_spelled {pattern : Pattern} {characters word : Text}
    (spells : pattern.spelled? = some characters) (isWord : word ∈ pattern.language) :
    word = characters := by
  cases pattern with
  | spelling =>
      cases spells
      exact isWord
  | _ => contradiction

theorem ofWord_of_isLabelStart {first : Char} (start : isLabelStart first = true) (rest : Text) :
    ofWord (first :: rest) = name := by
  have different {other : Char} (noStart : isLabelStart other = false) : first ≠ other := by
    rintro rfl
    rw [start] at noStart
    contradiction
  have noSpace := isLineSpace_eq_false_of_isLabelPart (isLabelPart_of_isLabelStart start)
  rw [ofWord, noSpace, isDigit_eq_false_of_isLabelStart start]
  simp only [different (by decide : isLabelStart '$' = false),
    different (by decide : isLabelStart '.' = false),
    different (by decide : isLabelStart '?' = false), if_false, Bool.false_eq_true]

theorem ofWord_of_isDigit {first : Char} (digit : first.isDigit = true) (rest : Text) :
    ofWord (first :: rest) =
      if rest.head?.any Radix.hexadecimal.isMarker then radixNumber .hexadecimal
      else if rest.head?.any Radix.binary.isMarker then radixNumber .binary
      else if rest.head?.any Radix.octal.isMarker then radixNumber .octal
      else decimalNumber := by
  have different {other : Char} (noDigit : other.isDigit = false) : first ≠ other := by
    rintro rfl
    rw [digit] at noDigit
    contradiction
  have noSpace : isLineSpace first = false := by
    refine isLineSpace_eq_false_of_isDigitOrUnderscore ?_
    rw [isDigitOrUnderscore, digit, Bool.true_or]
  rw [ofWord, noSpace, if_pos digit]
  simp only [different (by decide : Char.isDigit '$' = false),
    different (by decide : Char.isDigit '.' = false),
    different (by decide : Char.isDigit '?' = false), if_false, Bool.false_eq_true]

theorem eq_ofWord {pattern : Pattern} {word : Text} (isWord : word ∈ pattern.language)
    (noSpelling : pattern.spelled? = none) : pattern = ofWord word := by
  cases pattern with
  | spelling characters => contradiction
  | blanks =>
      obtain ⟨first, rest, rfl, isFirst, -⟩ := mem_among_mul.mp isWord
      rw [ofWord, if_pos isFirst]
  | variableName =>
      obtain ⟨first, rest, rfl, isFirst, -⟩ := mem_among_mul.mp isWord
      cases beq_iff_eq.mp isFirst
      rfl
  | name =>
      rw [language, optional_mul] at isWord
      rcases isWord with isWord | isWord
      · rw [labels, mul_assoc] at isWord
        obtain ⟨first, rest, rfl, isFirst, -⟩ := mem_among_mul.mp isWord
        exact (ofWord_of_isLabelStart isFirst rest).symm
      · obtain ⟨first, rest, rfl, isFirst, -⟩ := mem_among_mul.mp isWord
        cases beq_iff_eq.mp isFirst
        rfl
  | radixNumber radix =>
      obtain ⟨first, rest, rfl, isFirst, isRest⟩ := mem_among_mul.mp isWord
      obtain ⟨marker, digits, rfl, marks, -⟩ := mem_among_mul.mp isRest
      cases beq_iff_eq.mp isFirst
      rw [ofWord_of_isDigit (by decide)]
      cases radix <;> simp only [Radix.isMarker, Bool.or_eq_true, beq_iff_eq] at marks <;>
        rcases marks with rfl | rfl <;> rfl
  | decimalNumber =>
      obtain ⟨first, rest, rfl, isFirst, isRest⟩ := mem_among_mul.mp isWord
      rw [ofWord_of_isDigit isFirst]
      simp only [(avoids_marker _).head?_any isRest, Bool.false_eq_true, if_false]
  | fraction =>
      obtain ⟨first, rest, rfl, isFirst, -⟩ := mem_among_mul.mp isWord
      cases beq_iff_eq.mp isFirst
      rfl
  | closeTag =>
      obtain ⟨first, rest, rfl, isFirst, -⟩ := mem_among_mul.mp isWord
      cases beq_iff_eq.mp isFirst
      rfl
  | spoiledCloseTag => exact absurd isWord (Language.notMem_zero word)

end Pattern

theorem LexicalRule.eq_of_spelled :
    ∀ rule ∈ lexicalRules, ∀ characters ∈ rule.pattern.spelled?, '\r' ∉ characters ∧
      ∀ other ∈ lexicalRules,
        other.pattern.matchLength characters = characters.length → other = rule := by
  decide +kernel

theorem LexicalRule.eq_of_pattern :
    ∀ rule ∈ lexicalRules, ∀ other ∈ lexicalRules,
      rule.pattern = other.pattern → rule = other := by
  decide +kernel

theorem LexicalRule.eq_of_spelled_mem {rule other : LexicalRule} (isRule : rule ∈ lexicalRules)
    (isOther : other ∈ lexicalRules) {characters : Text}
    (spells : characters ∈ rule.pattern.spelled?) (isWord : characters ∈ other.pattern.language) :
    other = rule := by
  obtain ⟨noReturn, unique⟩ := eq_of_spelled rule isRule characters spells
  have sound : ¬ IsSpoiled characters := by
    rintro ⟨rest, rfl, -⟩
    simp at noReturn
  exact unique other isOther ((other.finds isOther sound).eq_length isWord)

/-- No two rules have a word in common. -/
theorem LexicalRule.eq_of_mem {rule other : LexicalRule} (isRule : rule ∈ lexicalRules)
    (isOther : other ∈ lexicalRules) {word : Text} (isWord : word ∈ rule.pattern.language)
    (also : word ∈ other.pattern.language) : rule = other := by
  cases spells : rule.pattern.spelled? with
  | some characters =>
      cases Pattern.eq_of_spelled spells isWord
      exact (eq_of_spelled_mem isRule isOther spells also).symm
  | none =>
      cases spellsOther : other.pattern.spelled? with
      | some characters =>
          cases Pattern.eq_of_spelled spellsOther also
          exact eq_of_spelled_mem isOther isRule spellsOther isWord
      | none =>
          refine eq_of_pattern rule isRule other isOther ?_
          rw [Pattern.eq_ofWord isWord spells, Pattern.eq_ofWord also spellsOther]

/-! The longest match. -/

/-- So many characters at the start of a text are a word of a rule, and no rule has a longer word
there. -/
structure IsLongestMatch (input : Text) (rule : LexicalRule) (length : Nat) : Prop where
  isRule : rule ∈ lexicalRules
  inside : length ≤ input.length
  mem : input.take length ∈ rule.pattern.language
  longest : ∀ other ∈ lexicalRules, ∀ size ≤ input.length,
    input.take size ∈ other.pattern.language → size ≤ length

/-- No rule has a word at the start of a text. -/
def NoMatch (input : Text) : Prop :=
  ∀ rule ∈ lexicalRules, NoneStarts rule.pattern.language input

theorem IsLongestMatch.unique {input : Text} {rule other : LexicalRule} {length size : Nat}
    (longest : IsLongestMatch input rule length) (also : IsLongestMatch input other size) :
    other = rule ∧ size = length := by
  have same : size = length :=
    Nat.le_antisymm (longest.longest other also.isRule size also.inside also.mem)
      (also.longest rule longest.isRule length longest.inside longest.mem)
  subst same
  exact ⟨LexicalRule.eq_of_mem also.isRule longest.isRule also.mem longest.mem, rfl⟩

theorem IsLongestMatch.not_noMatch {input : Text} {rule : LexicalRule} {length : Nat}
    (longest : IsLongestMatch input rule length) : ¬ NoMatch input :=
  fun none => none rule longest.isRule length longest.mem

theorem isLongestMatch_of_longestMatch {input : Text} (sound : ¬ IsSpoiled input)
    {found : LexicalMatch} (result : longestMatch input = some found) :
    ∃ rule, rule.lexeme = found.lexeme ∧ IsLongestMatch input rule found.length := by
  obtain ⟨rule, isRule, lexeme, length⟩ := longestAmong_mem result
  have whole := rule.finds isRule sound
  rw [length, Finds, if_neg (Nat.ne_of_gt (longestMatch_length_pos result))] at whole
  refine ⟨rule, lexeme, isRule, whole.inside, whole.mem, ?_⟩
  intro other isOther size inside isWord
  have bounded : ∀ best, longestAmong input lexicalRules = some best →
      best.length ≤ found.length := by
    intro best also
    rw [longestMatch] at result
    cases result.symm.trans also
    exact Nat.le_refl _
  exact ((other.finds isOther sound).le inside isWord).trans
    (matchLength_le_longestAmong bounded other isOther)

theorem noMatch_of_longestMatch {input : Text} (sound : ¬ IsSpoiled input)
    (none : longestMatch input = none) : NoMatch input := by
  intro rule isRule
  have zero : rule.pattern.matchLength input = 0 := by
    refine Nat.le_zero.mp (matchLength_le_longestAmong ?_ rule isRule)
    intro found also
    cases none.symm.trans also
  have found := rule.finds isRule sound
  rwa [zero, Finds, if_pos rfl] at found

end ConstructorInjection
