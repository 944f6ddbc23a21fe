import ConstructorInjection.Proofs.LongestPrefixes
import ConstructorInjection.Proofs.PatternContexts

/-!
The languages of the patterns, written as the regular expressions that they are. Each pattern finds
the longest of its words.
-/

namespace ConstructorInjection

open scoped Computability

def labels : Language Char :=
  among isLabelStart * (among isLabelPart)∗

def segments : Language Char :=
  (exactly '\\' * labels)∗

def decimals : Language Char :=
  exactly '.' * (among isDigitOrUnderscore)∗

def isSign (character : Char) : Bool :=
  character == '+' || character == '-'

def isExponentMarker (character : Char) : Bool :=
  character == 'e' || character == 'E'

def exponents : Language Char :=
  among isExponentMarker * (optional (among isSign) * many isDigitOrUnderscore)

def Pattern.language : Pattern → Language Char
  | spelling characters => {characters}
  | blanks => many isLineSpace
  | variableName => exactly '$' * labels
  | name => optional (exactly '\\') * (labels * segments)
  | radixNumber radix => exactly '0' * (among radix.isMarker * many radix.isDigit)
  | decimalNumber =>
    among Char.isDigit * ((among isDigitOrUnderscore)∗ * (optional decimals * optional exponents))
  | fraction =>
    exactly '.' * (among Char.isDigit * ((among isDigitOrUnderscore)∗ * optional exponents))
  | closeTag => exactly '?' * (exactly '>' * optional (optional (exactly '\r') * exactly '\n'))
  | spoiledCloseTag => 0

theorem finds_labels (text : Text) : Finds labels text (labelLength text) := by
  cases text with
  | nil => exact noneStarts_among_mul rfl _
  | cons first rest =>
      rw [labelLength]
      split
      next isStart => exact (isLongest_kstar_among isLabelPart rest).among_mul isStart
      next fails => exact noneStarts_among_mul (by simpa using fails) _

theorem goesOn_labels : GoesOn isLabelPart labels :=
  (goesOn_kstar_among isLabelPart).among_mul

theorem avoids_segments : Avoids isLabelPart segments := by
  refine Avoids.kstar (avoids_among_mul ?_ labels) (nil_notMem_among_mul _ _)
  intro character same
  rw [beq_iff_eq.mp same]
  decide

theorem isLongest_segments (text : Text) : IsLongest segments text (segmentsLength text) := by
  fun_induction segmentsLength text with
  | case1 rest label none =>
      have found := (finds_labels rest).exactly_mul '\\'
      rw [if_pos none] at found
      exact NoneStarts.kstar found
  | case2 rest label named ih =>
      have found := (finds_labels rest).exactly_mul '\\'
      rw [if_neg named] at found
      exact IsLongest.kstar found ih goesOn_labels.among_mul avoids_segments
  | case3 text noBackslash =>
      refine NoneStarts.kstar (noneStarts_among_mul ?_ labels)
      cases text with
      | nil => rfl
      | cons first rest => simpa using fun same => noBackslash rest (by rw [same])

theorem isLongest_sign (text : Text) :
    IsLongest (optional (among isSign)) text
      (if text.head? = some '+' ∨ text.head? = some '-' then 1 else 0) := by
  cases text with
  | nil => exact (noneStarts_among rfl).optional
  | cons first rest =>
      simp only [List.head?_cons, Option.some.injEq]
      split
      next signs => exact (isLongest_among (by simpa [isSign] using signs) rest).optional
      next fails => exact (noneStarts_among (by simpa [isSign] using fails)).optional

theorem isSign_of_digit {character : Char} (isDigit : isDigitOrUnderscore character = true) :
    isSign character = false := by
  by_contra signs
  simp only [isSign, Bool.not_eq_false, Bool.or_eq_true, beq_iff_eq] at signs
  rcases signs with rfl | rfl <;> simp [isDigitOrUnderscore] at isDigit

theorem finds_exponents (text : Text) : Finds exponents text (exponentLength text) := by
  cases text with
  | nil => exact noneStarts_among_mul rfl _
  | cons marker rest =>
      rw [exponentLength_cons]
      split
      next marks =>
        have digits := Finds.mul (isLongest_sign rest) (finds_many isDigitOrUnderscore _)
          (goesOn_optional_among isSign) (avoids_among_mul (fun _ => isSign_of_digit) _)
        have found := digits.among_mul (show isExponentMarker marker = true by
          simpa [isExponentMarker] using marks)
        refine found.of_eq ?_
        simp only
        split_ifs <;> omega
      next fails => exact noneStarts_among_mul (by simpa [isExponentMarker] using fails) _

/-! The numbers. -/

theorem isDigitOrUnderscore_of_marker {character : Char}
    (marks : isExponentMarker character = true) : isDigitOrUnderscore character = false := by
  simp only [isExponentMarker, Bool.or_eq_true, beq_iff_eq] at marks
  rcases marks with rfl | rfl <;> decide

theorem ne_point_of_marker {character : Char} (marks : isExponentMarker character = true) :
    (isDigitOrUnderscore character || character == '.') = false := by
  simp only [isExponentMarker, Bool.or_eq_true, beq_iff_eq] at marks
  rcases marks with rfl | rfl <;> decide

theorem isLongest_decimals (text : Text) :
    IsLongest (optional decimals) text (decimalsLength text) := by
  cases text with
  | nil => exact (noneStarts_among_mul rfl _).optional
  | cons first rest =>
      by_cases point : first = '.'
      · subst point
        exact ((isLongest_kstar_among isDigitOrUnderscore rest).among_mul rfl).optional
      · rw [decimalsLength_of_ne (by simpa using point)]
        exact (noneStarts_among_mul (by simpa using point) _).optional

theorem goesOn_decimals :
    GoesOn (fun character => isDigitOrUnderscore character || character == '.')
      (optional decimals) := by
  refine goesOn_of_within (Within.mul (within_among ?_) (within_among ?_).kstar).optional
  · intro character isPoint
    rw [isPoint, Bool.or_true]
  · intro character isDigit
    rw [isDigit, Bool.true_or]

theorem avoids_exponents {test : Char → Bool}
    (apart : ∀ character, isExponentMarker character = true → test character = false) :
    Avoids test (optional exponents) :=
  (avoids_among_mul apart _).optional

theorem isLongest_fraction_exponent (text : Text) :
    IsLongest (optional decimals * optional exponents) text
      (andThen decimalsLength exponentLength text) :=
  (isLongest_decimals text).mul (finds_exponents _).optional goesOn_decimals
    (avoids_exponents fun _ => ne_point_of_marker)

theorem andThen_assoc (first second third : Text → Nat) (text : Text) :
    andThen (andThen first second) third text = andThen first (andThen second third) text := by
  simp only [andThen, List.drop_drop, Nat.add_assoc]

/-- A text that starts with `?>` and with a carriage return that no line feed follows. -/
def IsSpoiled (input : Text) : Prop :=
  ∃ rest, input = '?' :: '>' :: '\r' :: rest ∧ rest.head? ≠ some '\n'

namespace Pattern

variable (input : Text)

theorem finds_labels_segments (text : Text) :
    Finds (labels * segments) text
      (if labelLength text = 0 then 0 else andThen labelLength segmentsLength text) := by
  have found := finds_labels text
  split
  next none =>
    rw [Finds, if_pos none] at found
    exact found.mul_of_first segments
  next named =>
    rw [Finds, if_neg named] at found
    refine (found.mul (isLongest_segments _) goesOn_labels avoids_segments).finds ?_
    omega

theorem finds_name : Finds name.language input (name.matchLength input) := by
  rw [language, optional_mul]
  by_cases backslash : input.head? = some '\\'
  · obtain ⟨rest, rfl⟩ := List.head?_eq_some_iff.mp backslash
    rw [add_comm]
    have noLabel : NoneStarts (labels * segments) ('\\' :: rest) :=
      (noneStarts_among_mul rfl _).mul_of_first segments
    have found := ((finds_labels_segments rest).exactly_mul '\\').add noLabel
    have size : matchLength name ('\\' :: rest) =
        if labelLength rest = 0 then 0
        else labelLength rest + 1 + segmentsLength (rest.drop (labelLength rest)) := by
      rw [matchLength, segmentsLength]
    rw [size]
    refine found.of_eq ?_
    rw [andThen]
    split_ifs <;> omega
  · rw [matchLength_name backslash]
    exact (finds_labels_segments input).add (noneStarts_exactly_mul backslash _)

theorem finds_decimalNumber :
    Finds decimalNumber.language input (decimalNumber.matchLength input) := by
  cases input with
  | nil => exact noneStarts_among_mul rfl _
  | cons first rest =>
      rw [matchLength_decimalNumber]
      split
      next isDigit =>
        have point : Avoids isDigitOrUnderscore (optional decimals) :=
          (avoids_among_mul (by simp; decide) _).optional
        have parts := (isLongest_kstar_among isDigitOrUnderscore rest).mul
          (isLongest_fraction_exponent _) (goesOn_kstar_among _)
          (point.mul fun _ => avoids_exponents fun _ => isDigitOrUnderscore_of_marker)
        rw [andThen_assoc]
        exact (parts.among_mul isDigit).finds (Nat.succ_ne_zero _)
      next fails => exact noneStarts_among_mul (by simpa using fails) _

theorem finds_fraction : Finds fraction.language input (fraction.matchLength input) := by
  by_cases point : input.head? = some '.'
  · obtain ⟨rest, rfl⟩ := List.head?_eq_some_iff.mp point
    cases rest with
    | nil => exact (noneStarts_among_mul rfl _).finds.exactly_mul '.'
    | cons first rest =>
        rw [matchLength_fraction]
        split
        next isDigit =>
          have parts := (isLongest_kstar_among isDigitOrUnderscore rest).mul
            (finds_exponents _).optional (goesOn_kstar_among _)
            (avoids_exponents fun _ => isDigitOrUnderscore_of_marker)
          exact ((parts.among_mul isDigit).among_mul rfl).finds (Nat.succ_ne_zero _)
        next fails =>
          have none : (first :: rest).head?.any Char.isDigit = false := by simpa using fails
          exact (noneStarts_among_mul none _).finds.exactly_mul '.'
  · have size : matchLength fraction input = 0 := by
      rw [matchLength]
      rintro _ _ rfl
      exact point rfl
    rw [size]
    exact (noneStarts_exactly_mul point _).finds

theorem finds_variableName :
    Finds variableName.language input (variableName.matchLength input) := by
  by_cases dollar : input.head? = some '$'
  · obtain ⟨rest, rfl⟩ := List.head?_eq_some_iff.mp dollar
    exact (finds_labels rest).exactly_mul '$'
  · have size : matchLength variableName input = 0 := by
      rw [matchLength]
      rintro _ rfl
      exact dollar rfl
    rw [size]
    exact (noneStarts_exactly_mul dollar _).finds

theorem finds_radixNumber (radix : Radix) :
    Finds (radixNumber radix).language input ((radixNumber radix).matchLength input) := by
  by_cases zero : input.head? = some '0'
  · obtain ⟨rest, rfl⟩ := List.head?_eq_some_iff.mp zero
    cases rest with
    | nil => exact (noneStarts_among_mul rfl _).finds.exactly_mul '0'
    | cons marker rest =>
        rw [matchLength]
        by_cases marks : radix.isMarker marker = true
        · have found := ((finds_many radix.isDigit rest).among_mul marks).exactly_mul '0'
          refine found.of_eq ?_
          simp only [marks, Bool.true_and, decide_eq_true_eq]
          split_ifs <;> omega
        · have none : (marker :: rest).head?.any radix.isMarker = false := by simpa using marks
          rw [if_neg (by simp [marks])]
          exact (noneStarts_among_mul none _).finds.exactly_mul '0'
  · have size : matchLength (radixNumber radix) input = 0 := by
      rw [matchLength]
      rintro _ _ rfl
      exact zero rfl
    rw [size]
    exact (noneStarts_exactly_mul zero _).finds

theorem isLongest_lineBreak (text : Text) :
    IsLongest (optional (optional (exactly '\r') * exactly '\n')) text
      (if text.head? = some '\r' then if text.tail.head? = some '\n' then 2 else 0
        else if text.head? = some '\n' then 1 else 0) := by
  rw [optional_mul]
  refine Finds.optional ?_
  by_cases returns : text.head? = some '\r'
  · obtain ⟨rest, rfl⟩ := List.head?_eq_some_iff.mp returns
    rw [add_comm]
    refine (((finds_exactly '\n' rest).exactly_mul '\r').add (noneStarts_among rfl)).of_eq ?_
    by_cases feed : rest.head? = some '\n' <;> simp [feed]
  · rw [if_neg returns]
    exact (finds_exactly '\n' text).add (noneStarts_exactly_mul returns _)

theorem exists_behind_tag {input : Text} (tag : input.take 2 = ['?', '>']) :
    ∃ more, input = '?' :: '>' :: more :=
  ⟨input.drop 2, by rw [← List.take_append_drop 2 input, tag]; rfl⟩

theorem finds_closeTag (sound : ¬ IsSpoiled input) :
    Finds closeTag.language input (closeTag.matchLength input) := by
  by_cases tag : input.take 2 = ['?', '>']
  · obtain ⟨more, rfl⟩ := exists_behind_tag tag
    rw [(matchLength_tags more).1]
    have found := ((isLongest_lineBreak more).exactly_mul '>').exactly_mul '?'
    refine (found.finds (Nat.succ_ne_zero _)).of_eq ?_
    split_ifs with returns feed
    · rfl
    · obtain ⟨rest, rfl⟩ := List.head?_eq_some_iff.mp returns
      exact absurd ⟨rest, rfl, feed⟩ sound
    · rfl
    · rfl
  · rw [(tags_eq_zero tag).1]
    cases input with
    | nil => exact (noneStarts_among_mul rfl _).finds
    | cons first rest =>
        by_cases question : first = '?'
        · subst question
          have noBracket : rest.head? ≠ some '>' := by
            intro bracket
            obtain ⟨more, rfl⟩ := List.head?_eq_some_iff.mp bracket
            exact tag rfl
          exact (noneStarts_exactly_mul noBracket _).finds.exactly_mul '?'
        · exact (noneStarts_exactly_mul (by simpa using question) _).finds

theorem finds_spelling (characters : Text) (nonempty : characters ≠ []) :
    Finds (spelling characters).language input ((spelling characters).matchLength input) := by
  rw [matchLength, language]
  split
  next starts =>
    have starts := List.isPrefixOf_iff_prefix.mp starts
    refine IsLongest.finds ⟨starts.length_le, ?_, ?_⟩ (by simpa using nonempty)
    · exact (List.prefix_iff_eq_take.mp starts).symm
    · intro other within isWord
      rw [← Set.mem_singleton_iff.mp isWord, List.length_take_of_le within]
  next fails =>
    refine NoneStarts.finds fun length isWord => fails ?_
    rw [← Set.mem_singleton_iff.mp isWord]
    exact List.isPrefixOf_iff_prefix.mpr (List.take_prefix length input)

theorem finds_spoiledCloseTag (sound : ¬ IsSpoiled input) :
    Finds spoiledCloseTag.language input (spoiledCloseTag.matchLength input) := by
  have size : spoiledCloseTag.matchLength input = 0 := by
    by_cases tag : input.take 2 = ['?', '>']
    · obtain ⟨more, rfl⟩ := exists_behind_tag tag
      rw [(matchLength_tags more).2]
      split_ifs with returns feed
      · rfl
      · obtain ⟨rest, rfl⟩ := List.head?_eq_some_iff.mp returns
        exact absurd ⟨rest, rfl, feed⟩ sound
      · rfl
    · exact (tags_eq_zero tag).2
  rw [size]
  exact NoneStarts.finds fun length => Language.notMem_zero _

end Pattern

theorem nonempty_of_spelling :
    ∀ rule ∈ lexicalRules, rule.pattern ≠ .spelling [] := by
  decide

/-- Every pattern finds the longest of its words. -/
theorem LexicalRule.finds {rule : LexicalRule} (isRule : rule ∈ lexicalRules) {input : Text}
    (sound : ¬ IsSpoiled input) :
    Finds rule.pattern.language input (rule.pattern.matchLength input) := by
  have nonempty := nonempty_of_spelling rule isRule
  cases equal : rule.pattern with
  | spelling characters =>
      rw [equal] at nonempty
      exact Pattern.finds_spelling input characters fun none => nonempty (by rw [none])
  | blanks => exact finds_many isLineSpace input
  | variableName => exact Pattern.finds_variableName input
  | name => exact Pattern.finds_name input
  | radixNumber radix => exact Pattern.finds_radixNumber input radix
  | decimalNumber => exact Pattern.finds_decimalNumber input
  | fraction => exact Pattern.finds_fraction input
  | closeTag => exact Pattern.finds_closeTag input sound
  | spoiledCloseTag => exact Pattern.finds_spoiledCloseTag input sound

end ConstructorInjection
