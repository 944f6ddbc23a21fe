import Mathlib.Computability.Language
import Mathlib.Data.List.TakeWhile
import Mathlib.Tactic.Common
import ConstructorInjection.Text

/-!
The longest words of a language at the start of a text. Along a product of languages they are found
one after the other, where the second language begins with none of the characters that the words of
the first one go on with.
-/

namespace ConstructorInjection

open scoped Computability

/-- So many characters at the start of a text are the longest word of a language there. -/
structure IsLongest (language : Language Char) (text : Text) (length : Nat) : Prop where
  inside : length ≤ text.length
  mem : text.take length ∈ language
  longest : ∀ other ≤ text.length, text.take other ∈ language → other ≤ length

/-- No word of a language stands at the start of a text. -/
def NoneStarts (language : Language Char) (text : Text) : Prop :=
  ∀ length, text.take length ∉ language

/-- The characters of a class, each a word of its own. -/
def among (test : Char → Bool) : Language Char :=
  {word | ∃ character, test character = true ∧ word = [character]}

def exactly (character : Char) : Language Char :=
  among (· == character)

/-- One or more characters of a class. -/
def many (test : Char → Bool) : Language Char :=
  among test * (among test)∗

def optional (language : Language Char) : Language Char :=
  1 + language

/-- Words of a language consist of characters of a class. -/
def Within (test : Char → Bool) (language : Language Char) : Prop :=
  ∀ word ∈ language, ∀ character ∈ word, test character = true

/-- Words of a language go on to other words only with characters of a class. -/
def GoesOn (test : Char → Bool) (language : Language Char) : Prop :=
  ∀ word character rest, word ∈ language → word ++ character :: rest ∈ language →
    test character = true

/-- Words of a language do not begin with characters of a class. -/
def Avoids (test : Char → Bool) (language : Language Char) : Prop :=
  ∀ character rest, character :: rest ∈ language → test character = false

section Products

variable {first second : Language Char} {test : Char → Bool} {text : Text} {size more : Nat}

/-- A word of a product ends within the longest word of the first language, or begins with it. -/
theorem split_of_take_mem_mul {length : Nat} (longest : IsLongest first text size)
    (goesOn : GoesOn test first) (avoids : Avoids test second) (inside : length ≤ text.length)
    (isWord : text.take length ∈ first * second) :
    (length ≤ size ∧ [] ∈ second) ∨
      (size ≤ length ∧ (text.drop size).take (length - size) ∈ second) := by
  obtain ⟨front, isFront, later, isLater, whole⟩ := Language.mem_mul.mp isWord
  have cut : text = front ++ (later ++ text.drop length) := by
    rw [← List.append_assoc, whole, List.take_append_drop]
  have lengths : length = front.length + later.length := by
    rw [← List.length_append, whole, List.length_take_of_le inside]
  have short : front.length ≤ size := by
    refine longest.longest front.length (by omega) ?_
    rw [cut, List.take_left]
    exact isFront
  obtain shorter | same := Nat.lt_or_eq_of_le short
  · cases later with
    | nil => exact .inl ⟨by simp at lengths; omega, isLater⟩
    | cons character later =>
        have whole := longest.mem
        obtain ⟨missing, rfl⟩ := Nat.exists_eq_add_of_lt shorter
        rw [cut, Nat.add_assoc, List.take_length_add_append, List.cons_append,
          List.take_succ_cons] at whole
        have goes := goesOn front character _ isFront whole
        simp [avoids character later isLater] at goes
  · refine .inr ⟨by omega, ?_⟩
    rw [← same, cut, List.drop_left, lengths, Nat.add_sub_cancel_left, List.take_left]
    exact isLater

theorem IsLongest.mul (head : IsLongest first text size)
    (tail : IsLongest second (text.drop size) more) (goesOn : GoesOn test first)
    (avoids : Avoids test second) : IsLongest (first * second) text (size + more) := by
  have inside := tail.inside
  rw [List.length_drop] at inside
  refine ⟨by have := head.inside; omega, ?_, ?_⟩
  · rw [List.take_add]
    exact Language.append_mem_mul head.mem tail.mem
  · intro length within isWord
    obtain ⟨short, -⟩ | ⟨long, isLater⟩ :=
      split_of_take_mem_mul head goesOn avoids within isWord
    · omega
    · have := tail.longest (length - size) (by rw [List.length_drop]; omega) isLater
      omega

theorem NoneStarts.mul_of_first (none : NoneStarts first text) (second : Language Char) :
    NoneStarts (first * second) text := by
  intro length isWord
  obtain ⟨front, isFront, later, -, whole⟩ := Language.mem_mul.mp isWord
  refine none (min front.length length) ?_
  rw [← List.take_take, ← whole, List.take_left]
  exact isFront

theorem NoneStarts.mul_of_second (head : IsLongest first text size)
    (none : NoneStarts second (text.drop size)) (goesOn : GoesOn test first)
    (avoids : Avoids test second) : NoneStarts (first * second) text := by
  intro length isWord
  rw [List.take_eq_take_min] at isWord
  obtain ⟨-, isEmpty⟩ | ⟨-, isLater⟩ :=
    split_of_take_mem_mul head goesOn avoids (Nat.min_le_right ..) isWord
  · exact none 0 isEmpty
  · exact none _ isLater

end Products

section Contained

variable {first second language : Language Char} {test : Char → Bool}

theorem within_among {other : Char → Bool}
    (isIn : ∀ character, other character = true → test character = true) :
    Within test (among other) := by
  rintro _ ⟨character, isOther, rfl⟩
  simpa using isIn character isOther

theorem Within.mul (head : Within test first) (tail : Within test second) :
    Within test (first * second) := by
  rintro _ ⟨front, isFront, later, isLater, rfl⟩
  exact List.forall_mem_append.mpr ⟨head front isFront, tail later isLater⟩

theorem Within.optional (within : Within test language) : Within test (optional language) := by
  rintro _ (rfl | isWord)
  · simp
  · exact within _ isWord

theorem Within.kstar (within : Within test language) : Within test language∗ := by
  intro word isWord character isIn
  obtain ⟨parts, rfl, areParts⟩ := Language.mem_kstar.mp isWord
  obtain ⟨part, isPart, inPart⟩ := List.mem_flatten.mp isIn
  exact within part (areParts part isPart) character inPart

end Contained

section Classes

variable {language : Language Char} {test : Char → Bool} {text : Text} {size : Nat}

theorem singleton_mem_among {character : Char} :
    [character] ∈ among test ↔ test character = true := by
  constructor
  · rintro ⟨_, isIn, ⟨⟩⟩
    exact isIn
  · intro isIn
    exact ⟨character, isIn, rfl⟩

theorem goesOn_among (test other : Char → Bool) : GoesOn other (among test) := by
  rintro _ character rest ⟨first, -, rfl⟩ ⟨second, -, whole⟩
  simp at whole

theorem isLongest_among {first : Char} (isIn : test first = true) (rest : Text) :
    IsLongest (among test) (first :: rest) 1 where
  inside := by simp
  mem := singleton_mem_among.mpr isIn
  longest other within isWord := by
    obtain ⟨_, -, whole⟩ := isWord
    have := congrArg List.length whole
    rw [List.length_take_of_le within] at this
    exact this.le

theorem noneStarts_among (fails : text.head?.any test = false) :
    NoneStarts (among test) text := by
  rintro length ⟨character, isIn, whole⟩
  cases text with
  | nil => simp at whole
  | cons first rest =>
      cases length with
      | zero => simp at whole
      | succ length =>
          rw [List.take_succ_cons] at whole
          cases (List.cons.inj whole).1
          simp [isIn] at fails

theorem mem_kstar_among {word : Text} :
    word ∈ (among test)∗ ↔ ∀ character ∈ word, test character = true := by
  constructor
  · intro isWord
    exact (within_among fun _ => id).kstar word isWord
  · intro areIn
    refine Language.mem_kstar.mpr ⟨word.map fun character => [character], ?_, ?_⟩
    · rw [← List.flatMap_def]
      simp
    · intro part isPart
      obtain ⟨character, isIn, rfl⟩ := List.mem_map.mp isPart
      exact singleton_mem_among.mpr (areIn character isIn)

theorem isLongest_kstar_among (test : Char → Bool) (text : Text) :
    IsLongest (among test)∗ text (text.takeWhile test).length where
  inside := (List.takeWhile_prefix test).length_le
  mem := by
    rw [← List.prefix_iff_eq_take.mp (List.takeWhile_prefix test)]
    exact mem_kstar_among.mpr fun character isIn => List.mem_takeWhile_imp isIn
  longest other within isWord := by
    have areIn := mem_kstar_among.mp isWord
    rw [← text.take_append_drop other, List.takeWhile_append_of_pos areIn, List.length_append,
      List.length_take_of_le within]
    exact Nat.le_add_right _ _

end Classes

section Choices

variable {first second : Language Char} {text : Text} {size : Nat}

theorem IsLongest.add (longest : IsLongest first text size) (none : NoneStarts second text) :
    IsLongest (first + second) text size where
  inside := longest.inside
  mem := .inl longest.mem
  longest other within isWord :=
    isWord.elim (longest.longest other within) fun isSecond => absurd isSecond (none other)

theorem NoneStarts.add (none : NoneStarts first text) (also : NoneStarts second text) :
    NoneStarts (first + second) text :=
  fun length isWord => isWord.elim (none length) (also length)

end Choices

section Optional

variable {language : Language Char} {test : Char → Bool} {text : Text} {size : Nat}

theorem nil_mem_optional (language : Language Char) : [] ∈ optional language :=
  .inl rfl

theorem mem_optional {word : Text} : word ∈ optional language ↔ word = [] ∨ word ∈ language :=
  Iff.rfl

theorem IsLongest.optional (longest : IsLongest language text size) :
    IsLongest (optional language) text size where
  inside := longest.inside
  mem := .inr longest.mem
  longest other within isWord := by
    obtain isEmpty | isWord := mem_optional.mp isWord
    · have := congrArg List.length isEmpty
      rw [List.length_take_of_le within] at this
      exact this.le.trans (Nat.zero_le _)
    · exact longest.longest other within isWord

theorem NoneStarts.optional (none : NoneStarts language text) :
    IsLongest (optional language) text 0 where
  inside := Nat.zero_le _
  mem := nil_mem_optional language
  longest other within isWord := by
    obtain isEmpty | isWord := mem_optional.mp isWord
    · have := congrArg List.length isEmpty
      rw [List.length_take_of_le within] at this
      exact this.le
    · exact absurd isWord (none other)

theorem optional_mul (first second : Language Char) :
    optional first * second = second + first * second := by
  rw [ConstructorInjection.optional, add_mul, one_mul]

end Optional

section Repetition

variable {language : Language Char} {test : Char → Bool} {text : Text} {size more : Nat}

theorem kstar_eq_optional (language : Language Char) :
    language∗ = optional (language * language∗) :=
  (Language.one_add_self_mul_kstar_eq_kstar language).symm

theorem IsLongest.kstar (head : IsLongest language text size)
    (tail : IsLongest language∗ (text.drop size) more) (goesOn : GoesOn test language)
    (avoids : Avoids test language∗) : IsLongest language∗ text (size + more) := by
  rw [kstar_eq_optional]
  exact (head.mul tail goesOn avoids).optional

theorem NoneStarts.kstar (none : NoneStarts language text) : IsLongest language∗ text 0 := by
  rw [kstar_eq_optional]
  exact (none.mul_of_first _).optional

end Repetition

/-! Which characters words begin and go on with. -/

section Characters

variable {first second language : Language Char} {test : Char → Bool}

theorem goesOn_of_within (within : Within test language) : GoesOn test language := by
  intro word character rest _ isWord
  exact within _ isWord character (by simp)

theorem GoesOn.among_mul {start : Char → Bool} (goesOn : GoesOn test language) :
    GoesOn test (among start * language) := by
  rintro word character rest ⟨_, ⟨begins, -, rfl⟩, later, isLater, rfl⟩
    ⟨_, ⟨_, -, rfl⟩, longer, isLonger, whole⟩
  obtain ⟨rfl, rfl⟩ := List.cons.inj whole
  exact goesOn later character rest isLater isLonger

theorem avoids_among {other : Char → Bool}
    (apart : ∀ character, other character = true → test character = false) :
    Avoids test (among other) := by
  rintro character rest ⟨_, isIn, whole⟩
  rw [(List.cons.inj whole).1]
  exact apart _ isIn

theorem Avoids.mul (avoidsFirst : Avoids test first) (avoidsSecond : [] ∈ first → Avoids test second) :
    Avoids test (first * second) := by
  rintro character rest ⟨front, isFront, later, isLater, whole⟩
  cases front with
  | nil =>
      change later = character :: rest at whole
      exact avoidsSecond isFront character rest (whole ▸ isLater)
  | cons begins front =>
      rw [← (List.cons.inj whole).1]
      exact avoidsFirst begins front isFront

theorem Avoids.optional (avoids : Avoids test language) :
    Avoids test (ConstructorInjection.optional language) := by
  rintro character rest (⟨⟨⟩⟩ | isWord)
  exact avoids character rest isWord

theorem Avoids.kstar (avoids : Avoids test language) (nonempty : [] ∉ language) :
    Avoids test language∗ := by
  rw [kstar_eq_optional]
  exact (avoids.mul fun isEmpty => absurd isEmpty nonempty).optional

end Characters

theorem mem_among_mul {test : Char → Bool} {language : Language Char} {word : Text} :
    word ∈ among test * language ↔
      ∃ first rest, word = first :: rest ∧ test first = true ∧ rest ∈ language := by
  constructor
  · rintro ⟨_, ⟨first, isFirst, rfl⟩, rest, isRest, rfl⟩
    exact ⟨first, rest, rfl, isFirst, isRest⟩
  · rintro ⟨first, rest, rfl, isFirst, isRest⟩
    exact Language.append_mem_mul (singleton_mem_among.mpr isFirst) isRest

theorem nil_notMem_among_mul (test : Char → Bool) (language : Language Char) :
    [] ∉ among test * language := by
  rintro ⟨_, ⟨character, -, rfl⟩, later, -, whole⟩
  simp at whole

theorem avoids_among_mul {test other : Char → Bool}
    (apart : ∀ character, other character = true → test character = false)
    (language : Language Char) : Avoids test (among other * language) := by
  refine (avoids_among apart).mul ?_
  rintro ⟨character, -, whole⟩
  contradiction

theorem Avoids.head?_any {test : Char → Bool} {language : Language Char} {word : Text}
    (avoids : Avoids test language) (isWord : word ∈ language) :
    word.head?.any test = false := by
  cases word with
  | nil => rfl
  | cons first rest => exact avoids first rest isWord

theorem goesOn_kstar_among (test : Char → Bool) : GoesOn test (among test)∗ :=
  goesOn_of_within (within_among fun _ => id).kstar

theorem goesOn_optional_among (test : Char → Bool) : GoesOn test (optional (among test)) :=
  goesOn_of_within (within_among fun _ => id).optional

/-! Finding the longest words. -/

/-- A length that is that of the longest word of a language at the start of a text, or zero where
no word stands. -/
def Finds (language : Language Char) (text : Text) (length : Nat) : Prop :=
  if length = 0 then NoneStarts language text else IsLongest language text length

section Classes

variable {test : Char → Bool} {language : Language Char} {first : Char} {rest text : Text}
  {size : Nat}

theorem avoids_nothing (language : Language Char) : Avoids (fun _ => false) language :=
  fun _ _ _ => rfl

theorem IsLongest.among_mul (tail : IsLongest language rest size) (isIn : test first = true) :
    IsLongest (among test * language) (first :: rest) (size + 1) := by
  rw [Nat.add_comm]
  exact (isLongest_among isIn rest).mul tail (goesOn_among test _) (avoids_nothing language)

theorem IsLongest.exactly_mul (tail : IsLongest language rest size) (character : Char) :
    IsLongest (exactly character * language) (character :: rest) (size + 1) :=
  tail.among_mul (beq_self_eq_true character)

theorem noneStarts_among_mul (fails : text.head?.any test = false) (language : Language Char) :
    NoneStarts (among test * language) text :=
  (noneStarts_among fails).mul_of_first language

theorem noneStarts_exactly_mul {character : Char} (differs : text.head? ≠ some character)
    (language : Language Char) : NoneStarts (exactly character * language) text := by
  refine noneStarts_among_mul ?_ language
  cases text with
  | nil => rfl
  | cons first rest => simpa using differs

theorem NoneStarts.finds (none : NoneStarts language text) : Finds language text 0 := by
  rwa [Finds, if_pos rfl]

theorem IsLongest.finds (longest : IsLongest language text size) (positive : size ≠ 0) :
    Finds language text size := by
  rwa [Finds, if_neg positive]

theorem Finds.of_eq {other : Nat} (found : Finds language text size) (same : size = other) :
    Finds language text other :=
  same ▸ found

theorem Finds.mul {head tail : Language Char} {more : Nat} {other : Char → Bool}
    (longest : IsLongest head text size) (found : Finds tail (text.drop size) more)
    (goesOn : GoesOn other head) (avoids : Avoids other tail) :
    Finds (head * tail) text (if more = 0 then 0 else size + more) := by
  by_cases none : more = 0
  · rw [if_pos none]
    rw [Finds, if_pos none] at found
    exact NoneStarts.mul_of_second longest found goesOn avoids
  · rw [if_neg none, Finds, if_neg (by omega)]
    rw [Finds, if_neg none] at found
    exact longest.mul found goesOn avoids

theorem Finds.among_mul (tail : Finds language rest size) (isIn : test first = true) :
    Finds (among test * language) (first :: rest) (if size = 0 then 0 else size + 1) := by
  rw [Nat.add_comm]
  exact Finds.mul (isLongest_among isIn rest) tail (goesOn_among test _) (avoids_nothing language)

theorem Finds.exactly_mul (tail : Finds language rest size) (character : Char) :
    Finds (exactly character * language) (character :: rest) (if size = 0 then 0 else size + 1) :=
  tail.among_mul (beq_self_eq_true character)

theorem Finds.add {other : Language Char} (found : Finds language text size)
    (none : NoneStarts other text) : Finds (language + other) text size := by
  rw [Finds] at found ⊢
  split_ifs at found ⊢
  · exact NoneStarts.add found none
  · exact IsLongest.add found none

theorem Finds.optional (found : Finds language text size) :
    IsLongest (ConstructorInjection.optional language) text size := by
  rw [Finds] at found
  split at found
  next none => exact none ▸ NoneStarts.optional found
  next => exact IsLongest.optional found

theorem finds_many (test : Char → Bool) (text : Text) :
    Finds (many test) text (text.takeWhile test).length := by
  cases text with
  | nil => exact noneStarts_among_mul rfl _
  | cons first rest =>
      by_cases isIn : test first = true
      · rw [List.takeWhile_cons_of_pos isIn]
        exact (isLongest_kstar_among test rest).among_mul isIn
      · rw [List.takeWhile_cons_of_neg isIn]
        exact noneStarts_among_mul (by simpa using isIn) _

end Classes

theorem finds_exactly (character : Char) (text : Text) :
    Finds (exactly character) text (if text.head? = some character then 1 else 0) := by
  cases text with
  | nil => exact (noneStarts_among rfl).finds
  | cons first rest =>
      simp only [List.head?_cons, Option.some.injEq]
      split
      next same => exact (isLongest_among (by simpa using same) rest).finds Nat.one_ne_zero
      next differs => exact (noneStarts_among (by simpa using differs)).finds

theorem Finds.eq_length {language : Language Char} {word : Text} {size : Nat}
    (found : Finds language word size) (isWord : word ∈ language) : size = word.length := by
  have whole : word.take word.length ∈ language := by rwa [List.take_length]
  rw [Finds] at found
  split at found
  · exact absurd whole (found word.length)
  · exact Nat.le_antisymm found.inside (found.longest word.length (Nat.le_refl _) whole)

theorem Finds.le {language : Language Char} {text : Text} {size other : Nat}
    (found : Finds language text size) (inside : other ≤ text.length)
    (isWord : text.take other ∈ language) : other ≤ size := by
  rw [Finds] at found
  split at found
  · exact absurd isWord (found other)
  · exact found.longest other inside isWord

end ConstructorInjection
