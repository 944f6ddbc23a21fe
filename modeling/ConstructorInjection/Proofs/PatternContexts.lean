import Mathlib.Data.List.Basic
import Mathlib.Tactic.Common
import ConstructorInjection.Proofs.FirstPiece
import ConstructorInjection.Proofs.TokenTexts

/-!
How far the patterns look. A match depends on the characters that it covers, and behind them only on
characters with which a piece can go on.
-/

namespace ConstructorInjection

/-- Characters with which pieces begin and none goes on. -/
def freshCharacters : Text :=
  ['$', '(', ')', ']', '\x7b', '\x7d', ';', ',']

def isFresh (character : Char) : Bool :=
  freshCharacters.contains character

/-- The text is empty or begins a piece of its own. -/
def Fresh (text : Text) : Prop :=
  ∀ character ∈ text.head?, isFresh character = true

theorem Fresh.head?_any {text : Text} {test : Char → Bool} (fresh : Fresh text)
    (fails : freshCharacters.any test = false) : text.head?.any test = false := by
  cases text with
  | nil => rfl
  | cons first rest =>
      have isFirst := List.contains_iff_mem.mp (fresh first rfl)
      rw [List.any_eq_false] at fails
      rw [List.head?_cons, Option.any_some]
      simpa using fails first isFirst

theorem Fresh.head?_ne {text : Text} {character : Char} (fresh : Fresh text)
    (notFresh : isFresh character = false) : text.head? ≠ some character := by
  intro begins
  rw [fresh character begins] at notFresh
  contradiction

/-- What is measured at the start of a text does not reach behind the common part. -/
def Settles (measure : Text → Nat) (common rest : Text) : Prop :=
  Fresh rest ∨ measure (common ++ rest) ≤ common.length

/-- A measure that depends on what it covers, and else only on what does not begin afresh. -/
def Contextual (measure : Text → Nat) : Prop :=
  ∀ common rest, Settles measure common rest → measure (common ++ rest) = measure common

/-- One measure at the start of a text and a second one from there on. -/
def andThen (first second : Text → Nat) (text : Text) : Nat :=
  first text + second (text.drop (first text))

theorem Contextual.andThen {first second : Text → Nat} (near : Contextual first)
    (further : Contextual second) (bounded : ∀ text, first text ≤ text.length) :
    Contextual (andThen first second) := by
  intro common rest settles
  have same := near common rest (settles.imp_right (Nat.le_trans (Nat.le_add_right _ _)))
  simp only [Settles, ConstructorInjection.andThen, same] at settles ⊢
  rw [List.drop_append_of_le_length (bounded common)] at settles ⊢
  rw [further _ rest (settles.imp_right fun short => by rw [List.length_drop]; omega)]

theorem andThen_le_length {first second : Text → Nat} (near : ∀ text, first text ≤ text.length)
    (further : ∀ text, second text ≤ text.length) (text : Text) :
    andThen first second text ≤ text.length := by
  have bound := near text
  have more := further (text.drop (first text))
  rw [List.length_drop] at more
  rw [andThen]
  omega

def spanLength (test : Char → Bool) (text : Text) : Nat :=
  (text.takeWhile test).length

theorem spanLength_le_length (test : Char → Bool) (text : Text) :
    spanLength test text ≤ text.length :=
  (List.takeWhile_prefix test).length_le

theorem contextual_spanLength {test : Char → Bool}
    (fails : freshCharacters.any test = false) : Contextual (spanLength test) := by
  intro common rest settles
  have whole : (common ++ rest).takeWhile test = _ := List.takeWhile_append
  simp only [Settles, spanLength, whole] at settles ⊢
  split
  next all =>
    rw [if_pos all, List.length_append] at settles
    have noMore : rest.takeWhile test = [] := by
      rcases settles with fresh | short
      · exact @takeWhile_append_of_stop _ _ [] rest (by simp) (fresh.head?_any fails)
      · exact List.length_eq_zero_iff.mp (by omega)
    rw [noMore, List.append_nil, all]
  next => rfl

theorem labelLength_le_length (text : Text) : labelLength text ≤ text.length := by
  cases text with
  | nil => exact Nat.le_refl _
  | cons first rest =>
      rw [labelLength]
      split
      · exact Nat.succ_le_succ (List.takeWhile_prefix _).length_le
      · exact Nat.zero_le _

theorem contextual_labelLength : Contextual labelLength := by
  intro common rest settles
  cases common with
  | nil =>
      rcases settles with fresh | short
      · have stops := @Fresh.head?_any _ isLabelStart fresh (by decide)
        cases rest with
        | nil => rfl
        | cons first rest =>
            rw [List.head?_cons, Option.any_some] at stops
            simp [labelLength, stops]
      · exact Nat.le_zero.mp short
  | cons first others =>
      simp only [Settles, List.cons_append, labelLength, List.length_cons] at settles ⊢
      split
      next start =>
        rw [if_pos start] at settles
        have parts := @contextual_spanLength isLabelPart (by decide) others rest
          (settles.imp_right Nat.le_of_succ_le_succ)
        rw [spanLength, spanLength] at parts
        rw [parts]
      next => rfl

theorem segmentsLength_le_length (text : Text) : segmentsLength text ≤ text.length := by
  fun_induction segmentsLength text with
  | case1 rest label none => exact Nat.zero_le _
  | case2 rest label named ih =>
      have inside := labelLength_le_length rest
      rw [List.length_drop] at ih
      rw [List.length_cons]
      omega
  | case3 => exact Nat.zero_le _

theorem contextual_segmentsLength : Contextual segmentsLength := by
  intro common rest settles
  generalize size : common.length = length
  induction length using Nat.strongRecOn generalizing common with
  | ind length ih =>
      cases common with
      | nil =>
          rcases settles with fresh | short
          · have stops := @Fresh.head?_ne _ '\\' fresh (by decide)
            rw [List.nil_append, segmentsLength, segmentsLength]
            · rintro _ ⟨⟩
            · rintro _ rfl
              exact stops rfl
          · exact (Nat.le_zero.mp short).trans (by rw [segmentsLength]; rintro _ ⟨⟩)
      | cons first others =>
          by_cases backslash : first = '\\'
          · subst backslash
            simp only [Settles, List.cons_append, segmentsLength, List.length_cons] at settles ⊢
            have named : labelLength (others ++ rest) = labelLength others :=
              contextual_labelLength others rest
                (settles.imp_right fun short => by split at short <;> omega)
            rw [named] at settles ⊢
            split
            next => rfl
            next labeled =>
              rw [if_neg labeled] at settles
              have inside := labelLength_le_length others
              rw [List.drop_append_of_le_length inside] at settles ⊢
              have shorter : (others.drop (labelLength others)).length < length := by
                rw [← size, List.length_cons, List.length_drop]
                omega
              rw [ih _ shorter _ (settles.imp_right fun short => by
                rw [List.length_drop]
                omega) rfl]
          · rw [List.cons_append, segmentsLength, segmentsLength]
            · rintro _ ⟨rfl, _⟩
              exact backslash rfl
            · rintro _ ⟨rfl, _⟩
              exact backslash rfl

theorem exponentLength_cons {marker : Char} (rest : Text) :
    exponentLength (marker :: rest) =
      if marker = 'e' ∨ marker = 'E' then
        let sign := if rest.head? = some '+' ∨ rest.head? = some '-' then 1 else 0
        let digits := ((rest.drop sign).takeWhile isDigitOrUnderscore).length
        if digits = 0 then 0 else digits + sign + 1
      else 0 := by
  by_cases marks : marker = 'e' ∨ marker = 'E'
  · rw [if_pos marks]
    have signed : exponentLength (marker :: rest) = exponentLength ('e' :: rest) := by
      rcases marks with rfl | rfl <;> rfl
    rw [signed]
    cases rest with
    | nil => rfl
    | cons first rest =>
        by_cases plus : first = '+'
        · subst plus
          rfl
        · by_cases minus : first = '-'
          · subst minus
            rfl
          · simp [exponentLength, plus, minus]
  · rw [if_neg marks, exponentLength]
    · rintro _ ⟨rfl, _⟩
      exact marks (.inl rfl)
    · rintro _ ⟨rfl, _⟩
      exact marks (.inr rfl)

theorem contextual_exponentLength : Contextual exponentLength := by
  intro common rest settles
  cases common with
  | nil =>
      rcases settles with fresh | short
      · have stops : rest.head? ≠ some 'e' ∧ rest.head? ≠ some 'E' :=
          ⟨fresh.head?_ne (by decide), fresh.head?_ne (by decide)⟩
        cases rest with
        | nil => rfl
        | cons first rest =>
            rw [List.nil_append, exponentLength_cons, if_neg]
            · rfl
            · rintro (rfl | rfl)
              · exact stops.1 rfl
              · exact stops.2 rfl
      · exact Nat.le_zero.mp short
  | cons marker others =>
      simp only [Settles, List.cons_append, exponentLength_cons, List.length_cons] at settles ⊢
      split
      next marks =>
        rw [if_pos marks] at settles
        -- The sign is part of the common text, unless the marker is all of it.
        by_cases signed : others = []
        · subst signed
          simp only [List.nil_append, List.length_nil, Nat.zero_add] at settles ⊢
          rw [if_neg (by simp : ¬ ((([] : Text).head? = some '+') ∨ ([] : Text).head? = some '-'))]
          rcases settles with fresh | short
          · have stops := @Fresh.head?_any _ isDigitOrUnderscore fresh (by decide)
            have noSign : ¬ (rest.head? = some '+' ∨ rest.head? = some '-') := by
              rintro (plus | minus)
              · exact fresh.head?_ne (by decide) plus
              · exact fresh.head?_ne (by decide) minus
            rw [if_neg noSign, if_pos]
            · rfl
            · exact List.length_eq_zero_iff.mpr (@takeWhile_append_of_stop _ _ [] rest (by simp) stops)
          · generalize (if rest.head? = some '+' ∨ rest.head? = some '-' then 1 else 0) = sign
              at short ⊢
            have noDigits : ((rest.drop sign).takeWhile isDigitOrUnderscore).length = 0 := by
              split at short <;> omega
            rw [if_pos noDigits]
            rfl
        · have same : (others ++ rest).head? = others.head? := by
            obtain ⟨second, more, rfl⟩ := List.exists_cons_of_ne_nil signed
            rfl
          rw [same] at settles ⊢
          have bound : (if others.head? = some '+' ∨ others.head? = some '-' then 1 else 0) ≤
              others.length := by
            have positive := List.length_pos_iff.mpr signed
            split <;> omega
          generalize (if others.head? = some '+' ∨ others.head? = some '-' then 1 else 0) = sign
            at settles bound ⊢
          rw [List.drop_append_of_le_length bound] at settles ⊢
          have digits := @contextual_spanLength isDigitOrUnderscore (by decide) (others.drop sign)
            rest (settles.imp_right fun short => by
              rw [spanLength, List.length_drop]
              split at short <;> omega)
          rw [spanLength, spanLength] at digits
          rw [digits]
      next => rfl

/-- Characters of a point and the digits behind it. -/
def decimalsLength : Text → Nat
  | '.' :: decimals => (decimals.takeWhile isDigitOrUnderscore).length + 1
  | _ => 0

theorem decimalsLength_of_ne {text : Text} (noPoint : text.head? ≠ some '.') :
    decimalsLength text = 0 := by
  rw [decimalsLength]
  rintro _ rfl
  exact noPoint rfl

theorem decimalsLength_le_length (text : Text) : decimalsLength text ≤ text.length := by
  rw [decimalsLength.eq_def]
  split
  · exact Nat.succ_le_succ (List.takeWhile_prefix _).length_le
  · exact Nat.zero_le _

theorem contextual_decimalsLength : Contextual decimalsLength := by
  intro common rest settles
  cases common with
  | nil =>
      rcases settles with fresh | short
      · rw [List.nil_append, decimalsLength_of_ne (fresh.head?_ne (by decide))]
        rfl
      · exact Nat.le_zero.mp short
  | cons first others =>
      by_cases point : first = '.'
      · subst point
        simp only [Settles, List.cons_append, decimalsLength, List.length_cons] at settles ⊢
        have digits := @contextual_spanLength isDigitOrUnderscore (by decide) others rest
          (settles.imp_right Nat.le_of_succ_le_succ)
        rw [spanLength, spanLength] at digits
        rw [digits]
      · rw [List.cons_append, decimalsLength_of_ne (by simpa using point),
          decimalsLength_of_ne (by simpa using point)]

namespace Pattern

theorem matchLength_name {text : Text} (noBackslash : text.head? ≠ some '\\') :
    matchLength name text =
      if labelLength text = 0 then 0 else andThen labelLength segmentsLength text := by
  rw [matchLength]
  · rfl
  · rintro _ rfl
    exact noBackslash rfl

theorem matchLength_name_le_length (text : Text) : matchLength name text ≤ text.length := by
  by_cases backslash : text.head? = some '\\'
  · obtain ⟨rest, rfl⟩ := List.head?_eq_some_iff.mp backslash
    exact segmentsLength_le_length _
  · rw [matchLength_name backslash]
    split
    · exact Nat.zero_le _
    · exact andThen_le_length labelLength_le_length segmentsLength_le_length text

theorem matchLength_decimalNumber (first : Char) (rest : Text) :
    matchLength decimalNumber (first :: rest) =
      if first.isDigit then
        andThen (andThen (spanLength isDigitOrUnderscore) decimalsLength) exponentLength rest + 1
      else 0 := by
  have whole : matchLength decimalNumber (first :: rest) =
      if first.isDigit then
        let whole := spanLength isDigitOrUnderscore rest + 1
        let number := whole + decimalsLength ((first :: rest).drop whole)
        number + exponentLength ((first :: rest).drop number)
      else 0 := rfl
  rw [whole]
  simp only [List.drop_succ_cons, Nat.add_right_comm _ 1]
  rfl

theorem matchLength_fraction (first : Char) (rest : Text) :
    matchLength fraction ('.' :: first :: rest) =
      if first.isDigit then
        andThen (spanLength isDigitOrUnderscore) exponentLength rest + 2
      else 0 := by
  rw [matchLength]
  split
  · rw [andThen, spanLength, Nat.add_right_comm]
  · rfl

theorem contextual_name : Contextual name.matchLength := by
  intro common rest settles
  have named := contextual_labelLength.andThen contextual_segmentsLength labelLength_le_length
  by_cases backslash : (common ++ rest).head? = some '\\'
  · cases common with
    | nil =>
        rcases settles with fresh | short
        · exact absurd backslash (fresh.head?_ne (by decide))
        · exact Nat.le_zero.mp short
    | cons first others =>
        simp only [List.cons_append, List.head?_cons, Option.some.injEq] at backslash
        subst backslash
        simp only [Settles, List.cons_append, matchLength] at settles ⊢
        exact contextual_segmentsLength ('\\' :: others) rest settles
  · have noBackslash : common.head? ≠ some '\\' := by
      intro begins
      rw [List.head?_append, begins] at backslash
      contradiction
    simp only [Settles, matchLength_name backslash, matchLength_name noBackslash] at settles ⊢
    have label := contextual_labelLength common rest (settles.imp_right fun short => by
      split at short
      · omega
      · exact Nat.le_trans (Nat.le_add_right _ _) short)
    rw [label] at settles ⊢
    split
    next => rfl
    next labeled =>
      rw [if_neg labeled] at settles
      exact named common rest settles

theorem radixNumber_context {radix : Radix} {common rest : Text} (nonempty : common ≠ [])
    (settles : Settles (radixNumber radix).matchLength common rest) :
    (radixNumber radix).matchLength (common ++ rest) = (radixNumber radix).matchLength common := by
  obtain ⟨first, others, rfl⟩ := List.exists_cons_of_ne_nil nonempty
  by_cases zero : first = '0'
  · subst zero
    cases others with
    | nil =>
        cases rest with
        | nil => rfl
        | cons marker more =>
            simp only [Settles, List.singleton_append, matchLength, List.length_singleton] at settles ⊢
            rw [if_neg]
            intro marked
            rcases settles with fresh | short
            · have noMarker := @Fresh.head?_any _ radix.isMarker fresh (by cases radix <;> decide)
              rw [List.head?_cons, Option.any_some] at noMarker
              simp [noMarker] at marked
            · rw [if_pos marked] at short
              omega
    | cons marker more =>
        have digits := @contextual_spanLength radix.isDigit (by cases radix <;> decide) more rest
        rw [spanLength, spanLength] at digits
        simp only [Settles, List.cons_append, matchLength, List.length_cons] at settles ⊢
        by_cases marks : radix.isMarker marker = true
        · simp only [marks, Bool.true_and, decide_eq_true_eq] at settles ⊢
          rw [digits (settles.imp_right fun short => by rw [spanLength]; split at short <;> omega)]
        · simp [marks]
  · rw [List.cons_append, matchLength_eq_zero (by simpa [opensWith] using zero),
      matchLength_eq_zero (by simpa [opensWith] using zero)]

theorem variableName_context {common rest : Text} (nonempty : common ≠ [])
    (settles : Settles variableName.matchLength common rest) :
    variableName.matchLength (common ++ rest) = variableName.matchLength common := by
  obtain ⟨first, others, rfl⟩ := List.exists_cons_of_ne_nil nonempty
  by_cases dollar : first = '$'
  · subst dollar
    simp only [Settles, List.cons_append, matchLength, List.length_cons] at settles ⊢
    rw [contextual_labelLength others rest (settles.imp_right fun short => by
      split at short <;> omega)]
  · rw [List.cons_append, matchLength_eq_zero (by simpa [opensWith] using dollar),
      matchLength_eq_zero (by simpa [opensWith] using dollar)]

theorem decimalNumber_context {common rest : Text} (nonempty : common ≠ [])
    (settles : Settles decimalNumber.matchLength common rest) :
    decimalNumber.matchLength (common ++ rest) = decimalNumber.matchLength common := by
  obtain ⟨first, others, rfl⟩ := List.exists_cons_of_ne_nil nonempty
  have digits := @contextual_spanLength isDigitOrUnderscore (by decide)
  have number := digits.andThen contextual_decimalsLength (spanLength_le_length _)
  have whole := number.andThen contextual_exponentLength
    (andThen_le_length (spanLength_le_length _) decimalsLength_le_length)
  simp only [Settles, List.cons_append, matchLength_decimalNumber, List.length_cons] at settles ⊢
  split
  next digit =>
    rw [if_pos digit] at settles
    rw [whole others rest (settles.imp_right Nat.le_of_succ_le_succ)]
  next => rfl

theorem fraction_context {common rest : Text} (nonempty : common ≠ [])
    (settles : Settles fraction.matchLength common rest) :
    fraction.matchLength (common ++ rest) = fraction.matchLength common := by
  obtain ⟨first, others, rfl⟩ := List.exists_cons_of_ne_nil nonempty
  by_cases point : first = '.'
  · subst point
    cases others with
    | nil =>
        cases rest with
        | nil => rfl
        | cons second more =>
            simp only [Settles, List.singleton_append, matchLength_fraction,
              List.length_singleton] at settles ⊢
            rw [if_neg]
            · rfl
            · intro digit
              rcases settles with fresh | short
              · have noDigit := @Fresh.head?_any _ Char.isDigit fresh (by decide)
                rw [List.head?_cons, Option.any_some, digit] at noDigit
                contradiction
              · rw [if_pos digit] at short
                omega
    | cons second more =>
        have whole := (@contextual_spanLength isDigitOrUnderscore (by decide)).andThen
          contextual_exponentLength (spanLength_le_length _)
        simp only [Settles, List.cons_append, matchLength_fraction, List.length_cons] at settles ⊢
        split
        next digit =>
          rw [if_pos digit] at settles
          rw [whole more rest (settles.imp_right (by omega))]
        next => rfl
  · rw [List.cons_append, matchLength_eq_zero (by simpa [opensWith] using point),
      matchLength_eq_zero (by simpa [opensWith] using point)]

/-- A tag that is cut behind its question mark, its bracket or its carriage return may become another. -/
structure TagSettles (common rest : Text) : Prop where
  bracket : common = ['?', '>'] → rest.head? ≠ some '\r'
  feed : common = ['?', '>', '\r'] → rest.head? ≠ some '\n'

/-- The two readings of `?>`, by what follows it. -/
theorem matchLength_tags (more : Text) :
    closeTag.matchLength ('?' :: '>' :: more) =
        (if more.head? = some '\r' then if more.tail.head? = some '\n' then 4 else 0
          else if more.head? = some '\n' then 3 else 2) ∧
      spoiledCloseTag.matchLength ('?' :: '>' :: more) =
        (if more.head? = some '\r' then if more.tail.head? = some '\n' then 0 else 2 else 0) := by
  cases more with
  | nil => exact ⟨rfl, rfl⟩
  | cons first rest =>
      by_cases isReturn : first = '\r'
      · subst isReturn
        cases rest with
        | nil => exact ⟨rfl, rfl⟩
        | cons second rest =>
            by_cases feed : second = '\n'
            · subst feed
              exact ⟨rfl, rfl⟩
            · simp [matchLength, feed]
      · by_cases feed : first = '\n'
        · subst feed
          exact ⟨rfl, rfl⟩
        · simp [matchLength, isReturn, feed]

theorem tags_eq_zero {text : Text} (noTag : text.take 2 ≠ ['?', '>']) :
    closeTag.matchLength text = 0 ∧ spoiledCloseTag.matchLength text = 0 := by
  constructor
  all_goals
    rw [matchLength]
    all_goals
      rintro _ rfl
      exact noTag rfl

theorem tags_context {common rest : Text} (nonempty : common ≠ [])
    (settles : Settles closeTag.matchLength common rest)
    (settlesSpoiled : Settles spoiledCloseTag.matchLength common rest)
    (tag : TagSettles common rest) :
    closeTag.matchLength (common ++ rest) = closeTag.matchLength common ∧
      spoiledCloseTag.matchLength (common ++ rest) = spoiledCloseTag.matchLength common := by
  by_cases isTag : (common ++ rest).take 2 = ['?', '>']
  · match common, nonempty with
    | [mark], _ =>
        exfalso
        cases rest with
        | nil => simp at isTag
        | cons bracket more =>
            simp only [List.singleton_append, List.take_succ_cons, List.take_zero, List.cons.injEq,
              and_true] at isTag
            obtain ⟨rfl, rfl⟩ := isTag
            rcases settles with fresh | short
            · exact fresh.head?_ne (by decide) rfl
            · rcases settlesSpoiled with fresh | shortSpoiled
              · exact fresh.head?_ne (by decide) rfl
              · rw [List.singleton_append, (matchLength_tags more).1, List.length_singleton] at short
                rw [List.singleton_append, (matchLength_tags more).2, List.length_singleton]
                  at shortSpoiled
                split at short <;> split at short <;> simp_all
    | mark :: bracket :: [], _ =>
        simp only [List.cons_append, List.nil_append, List.take_succ_cons, List.take_zero,
          List.cons.injEq, and_true] at isTag
        obtain ⟨rfl, rfl⟩ := isTag
        have noReturn := tag.bracket rfl
        have noFeed : rest.head? ≠ some '\n' := by
          rcases settles with fresh | short
          · exact fresh.head?_ne (by decide)
          · intro feed
            rw [List.cons_append, List.cons_append, List.nil_append, (matchLength_tags rest).1,
              if_neg noReturn, if_pos feed] at short
            contradiction
        simp [matchLength_tags, noReturn, noFeed]
    | mark :: bracket :: [third], _ =>
        simp only [List.cons_append, List.nil_append, List.take_succ_cons, List.take_zero,
          List.cons.injEq, and_true] at isTag
        obtain ⟨rfl, rfl⟩ := isTag
        by_cases isReturn : third = '\r'
        · subst isReturn
          simp [matchLength_tags, tag.feed rfl]
        · simp [matchLength_tags, isReturn]
    | mark :: bracket :: third :: fourth :: more, _ =>
        simp only [List.cons_append, List.take_succ_cons, List.take_zero, List.cons.injEq,
          and_true] at isTag
        obtain ⟨rfl, rfl⟩ := isTag
        simp [matchLength_tags]
  · have noTag : common.take 2 ≠ ['?', '>'] := by
      intro starts
      have long : 2 ≤ common.length := by
        have length := congrArg List.length starts
        rw [List.length_take, List.length_cons, List.length_singleton] at length
        omega
      rw [List.take_append_of_le_length long] at isTag
      exact isTag starts
    rw [(tags_eq_zero isTag).1, (tags_eq_zero isTag).2, (tags_eq_zero noTag).1,
      (tags_eq_zero noTag).2]
    exact ⟨rfl, rfl⟩

theorem spelling_context {characters common rest : Text} (nonempty : common ≠ [])
    (noFresh : ∀ character ∈ characters.tail, isFresh character = false)
    (settles : Settles (spelling characters).matchLength common rest) :
    (spelling characters).matchLength (common ++ rest) =
      (spelling characters).matchLength common := by
  have same : characters.isPrefixOf (common ++ rest) = characters.isPrefixOf common := by
    rw [Bool.eq_iff_iff, List.isPrefixOf_iff_prefix, List.isPrefixOf_iff_prefix]
    refine ⟨fun starts => ?_, fun starts => starts.trans (List.prefix_append common rest)⟩
    obtain ⟨more, whole⟩ := starts
    rcases List.append_eq_append_iff.mp whole with ⟨within, rfl, _⟩ | ⟨beyond, rfl, rfl⟩
    · exact List.prefix_append _ _
    · cases beyond with
      | nil => simp
      | cons next beyond =>
          exfalso
          rcases settles with fresh | short
          · have isFresh := fresh next rfl
            rw [noFresh next (by
              obtain ⟨first, others, rfl⟩ := List.exists_cons_of_ne_nil nonempty
              simp)] at isFresh
            contradiction
          · have starts : (common ++ next :: beyond).isPrefixOf (common ++ (next :: beyond ++ more)) =
                true := by simp
            rw [matchLength, if_pos starts, List.length_append, List.length_cons] at short
            omega
  rw [matchLength, matchLength, same]

/-- What a pattern spells out behind its first character. -/
def spelledBehind : Pattern → Text
  | spelling characters => characters.tail
  | _ => []

/-- The patterns match the same with and without what follows the common text. -/
theorem matchLength_context {common rest : Text} (nonempty : common ≠ [])
    (settles : ∀ rule ∈ lexicalRules, Settles rule.pattern.matchLength common rest)
    (tag : TagSettles common rest) :
    ∀ rule ∈ lexicalRules,
      rule.pattern.matchLength (common ++ rest) = rule.pattern.matchLength common := by
  have spelled : lexicalRules.all
      (fun rule => rule.pattern.spelledBehind.all (!isFresh ·)) = true := by decide
  simp only [List.all_eq_true, Bool.not_eq_true'] at spelled
  have closeTags : (⟨closeTag, .whole .closeTag⟩ : LexicalRule) ∈ lexicalRules ∧
      (⟨spoiledCloseTag, .whole .question⟩ : LexicalRule) ∈ lexicalRules := by
    simp [lexicalRules]
  have tags := tags_context nonempty (settles _ closeTags.1) (settles _ closeTags.2) tag
  intro rule member
  have settled := settles rule member
  have noFresh := spelled rule member
  obtain ⟨pattern, lexeme⟩ := rule
  cases pattern with
  | spelling characters => exact spelling_context nonempty noFresh settled
  | blanks => exact @contextual_spanLength isLineSpace (by decide) common rest settled
  | variableName => exact variableName_context nonempty settled
  | name => exact contextual_name common rest settled
  | radixNumber radix => exact radixNumber_context nonempty settled
  | decimalNumber => exact decimalNumber_context nonempty settled
  | fraction => exact fraction_context nonempty settled
  | closeTag => exact tags.1
  | spoiledCloseTag => exact tags.2

end Pattern

theorem longestAmong_congr {input other : Text} {rules : List LexicalRule}
    (same : ∀ rule ∈ rules, rule.pattern.matchLength input = rule.pattern.matchLength other) :
    longestAmong input rules = longestAmong other rules := by
  induction rules with
  | nil => rfl
  | cons rule rules ih =>
      rw [longestAmong, longestAmong, ih fun rule member => same rule (List.mem_cons_of_mem _ member),
        same rule (by simp)]

/-- No pattern matches more than the longest match. -/
theorem matchLength_le_longestAmong {input : Text} {rules : List LexicalRule} {bound : Nat}
    (bounded : ∀ found, longestAmong input rules = some found → found.length ≤ bound) :
    ∀ rule ∈ rules, rule.pattern.matchLength input ≤ bound := by
  induction rules with
  | nil => simp
  | cons rule rules ih =>
      rw [longestAmong] at bounded
      cases later : longestAmong input rules with
      | none =>
          rw [later] at bounded ih
          simp only at bounded
          refine List.forall_mem_cons.mpr ⟨?_, ih (by simp)⟩
          by_cases zero : rule.pattern.matchLength input = 0
          · rw [zero]
            exact Nat.zero_le _
          · exact bounded _ (if_neg zero)
      | some found =>
          rw [later] at bounded ih
          simp only at bounded
          by_cases shorter : rule.pattern.matchLength input < found.length
          · have inside := bounded found (if_pos shorter)
            refine List.forall_mem_cons.mpr ⟨by omega, ih ?_⟩
            rintro _ ⟨⟩
            exact inside
          · have inside : rule.pattern.matchLength input ≤ bound := bounded _ (if_neg shorter)
            refine List.forall_mem_cons.mpr ⟨inside, ih ?_⟩
            rintro _ ⟨⟩
            omega

theorem filter_rules_questionMark :
    lexicalRules.filter (·.pattern.opensWith '?') =
      [⟨.closeTag, .whole .closeTag⟩, ⟨.spoiledCloseTag, .whole .question⟩,
        ⟨.spelling ['?', '-', '>'], .whole .nullsafeObjectOperator⟩,
        ⟨.spelling ['?'], .whole .question⟩, ⟨.spelling ['?', '?'], .whole .operator⟩,
        ⟨.spelling ['?', '?', '='], .whole .operator⟩] :=
  rfl

/-- A carriage return alone behind `?>` leaves a question mark of two characters. -/
theorem longestMatch_returnBehindTag (more : Text) :
    longestMatch ('?' :: '>' :: '\r' :: more) =
      some (if more.head? = some '\n' then ⟨.whole .closeTag, 4⟩ else ⟨.whole .question, 2⟩) := by
  rw [longestMatch_cons filter_rules_questionMark]
  simp only [longestAmong, (Pattern.matchLength_tags _).1, (Pattern.matchLength_tags _).2,
    List.head?_cons, List.tail_cons, if_true]
  by_cases feed : more.head? = some '\n' <;> simp [feed, Pattern.matchLength, List.isPrefixOf]

/-- The longest match does not see what begins afresh, nor what it could have reached and did not. -/
theorem longestMatch_context {common rest : Text} (nonempty : common ≠ [])
    (inside : Fresh rest ∨ ∀ found, longestMatch (common ++ rest) = some found →
      found.length ≤ common.length)
    (noReturn : common = ['?', '>'] → rest.head? ≠ some '\r') :
    longestMatch (common ++ rest) = longestMatch common := by
  have settles : ∀ rule ∈ lexicalRules, Settles rule.pattern.matchLength common rest := by
    intro rule member
    exact inside.imp_right fun bounded => matchLength_le_longestAmong bounded rule member
  refine longestAmong_congr (Pattern.matchLength_context nonempty settles ⟨noReturn, ?_⟩)
  rintro rfl feed
  obtain ⟨more, rfl⟩ := List.head?_eq_some_iff.mp feed
  have closeTag : (⟨.closeTag, .whole .closeTag⟩ : LexicalRule) ∈ lexicalRules := by
    simp [lexicalRules]
  rcases settles _ closeTag with fresh | short
  · exact fresh.head?_ne (by decide) rfl
  · exact absurd short (by simp [(Pattern.matchLength_tags _).1])

end ConstructorInjection
