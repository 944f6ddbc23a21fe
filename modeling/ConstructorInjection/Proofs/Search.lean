import Mathlib.Data.List.Basic
import Mathlib.Tactic.Common
import ConstructorInjection.ClassDeclaration

/-!
What the searches in a token stream find: the first or the last index of a range that passes a test.
-/

namespace ConstructorInjection

namespace TokenStream

theorem getElem?_slice (stream : TokenStream) (range : IndexRange) (index : Nat) :
    (stream.slice range)[index]? =
      if range.start + index < range.stop then stream[range.start + index]? else none := by
  rw [slice, List.getElem?_drop, List.getElem?_take]

theorem length_slice (stream : TokenStream) (range : IndexRange) :
    (stream.slice range).length = min range.stop stream.length - range.start := by
  rw [slice, List.length_drop, List.length_take]

theorem slice_append_slice (stream : TokenStream) {first second third : Nat}
    (lower : first ≤ second) (upper : second ≤ third) :
    stream.slice ⟨first, second⟩ ++ stream.slice ⟨second, third⟩ = stream.slice ⟨first, third⟩ := by
  apply List.ext_getElem?
  intro index
  rw [List.getElem?_append, getElem?_slice, getElem?_slice, getElem?_slice, length_slice]
  simp only
  by_cases inside : index < min second stream.length - first
  · rw [if_pos inside, if_pos (by omega), if_pos (by omega)]
  · rw [if_neg inside]
    by_cases long : second ≤ stream.length
    · have same : second + (index - (min second stream.length - first)) = first + index := by omega
      rw [same]
    · have beyond : stream[second + (index - (min second stream.length - first))]? = none :=
        List.getElem?_eq_none (by omega)
      have alsoBeyond : stream[first + index]? = none := List.getElem?_eq_none (by omega)
      simp [beyond, alsoBeyond]

theorem take_append_slice (stream : TokenStream) {start stop : Nat} (ordered : start ≤ stop) :
    stream.take start ++ stream.slice ⟨start, stop⟩ = stream.take stop := by
  have joined := stream.slice_append_slice (Nat.zero_le start) ordered
  simpa only [slice, List.drop_zero] using joined

theorem slice_eq_cons {stream : TokenStream} {token : Token} {first stop : Nat}
    (found : stream[first]? = some token) (nonempty : first < stop) :
    stream.slice ⟨first, stop⟩ = token :: stream.slice ⟨first + 1, stop⟩ := by
  obtain ⟨inside, rfl⟩ := List.getElem?_eq_some_iff.mp found
  have bound : first < (stream.take stop).length := by
    rw [List.length_take]
    omega
  rw [slice, List.drop_eq_getElem_cons bound, List.getElem_take, slice]

/-- The first token of a slice, and what is behind it. -/
theorem parts_of_slice_eq_cons {stream : TokenStream} {token : Token} {rest : List Token}
    {first stop : Nat} (cut : stream.slice ⟨first, stop⟩ = token :: rest) :
    first < stop ∧ stream[first]? = some token ∧ stream.slice ⟨first + 1, stop⟩ = rest := by
  have size := congrArg List.length cut
  rw [length_slice, List.length_cons] at size
  simp only at size
  have there := List.getElem?_eq_getElem (show first < stream.length by omega)
  rw [slice_eq_cons there (by omega), List.cons.injEq] at cut
  exact ⟨by omega, there.trans (congrArg some cut.1), cut.2⟩

theorem slice_eq_nil {stream : TokenStream} {range : IndexRange}
    (outside : range.stop ≤ range.start ∨ stream.length ≤ range.start) :
    stream.slice range = [] := by
  rw [← List.length_eq_zero_iff, length_slice]
  omega

theorem slice_succ {stream : TokenStream} {token : Token} {start index : Nat} (ordered : start ≤ index)
    (found : stream[index]? = some token) :
    stream.slice ⟨start, index + 1⟩ = stream.slice ⟨start, index⟩ ++ [token] := by
  have last : stream.slice ⟨index, index + 1⟩ = [token] := by
    rw [slice_eq_cons found (Nat.lt_succ_self index), slice_eq_nil (.inl (Nat.le_refl _))]
  rw [← stream.slice_append_slice ordered (Nat.le_succ index), last]

theorem mem_slice_iff {stream : TokenStream} {range : IndexRange} {token : Token} :
    token ∈ stream.slice range ↔
      ∃ index, range.start ≤ index ∧ index < range.stop ∧ stream[index]? = some token := by
  rw [List.mem_iff_getElem?]
  simp only [getElem?_slice]
  constructor
  · rintro ⟨distance, found⟩
    split at found
    next inside => exact ⟨range.start + distance, by omega, inside, found⟩
    next => contradiction
  · rintro ⟨index, lower, upper, found⟩
    refine ⟨index - range.start, ?_⟩
    rw [if_pos (by omega), Nat.add_sub_cancel' lower, found]

/-- Whether the token at an index passes a test. -/
def Passes (stream : TokenStream) (test : Token → Bool) (index : Nat) : Prop :=
  stream[index]?.any test = true

theorem findIdx?_eq_some_iff_getElem? {tokens : List Token} {test : Token → Bool} {found : Nat} :
    tokens.findIdx? test = some found ↔
      tokens[found]?.any test = true ∧ ∀ index < found, ¬ tokens[index]?.any test = true := by
  rw [List.findIdx?_eq_some_iff_getElem]
  constructor
  · rintro ⟨bound, passes, earlier⟩
    refine ⟨by simpa [List.getElem?_eq_getElem bound] using passes, ?_⟩
    intro index before
    have inside : index < tokens.length := by omega
    simpa [List.getElem?_eq_getElem inside] using earlier index before
  · rintro ⟨passes, earlier⟩
    have bound : found < tokens.length := by
      by_contra beyond
      rw [List.getElem?_eq_none (by omega)] at passes
      simp at passes
    refine ⟨bound, by simpa [List.getElem?_eq_getElem bound] using passes, ?_⟩
    intro index before
    have inside : index < tokens.length := by omega
    simpa [List.getElem?_eq_getElem inside] using earlier index before

theorem firstIn?_eq_some_iff {stream : TokenStream} {range : IndexRange} {test : Token → Bool}
    {found : Nat} :
    stream.firstIn? range test = some found ↔
      (range.start ≤ found ∧ found < range.stop ∧ stream.Passes test found) ∧
        ∀ index, range.start ≤ index → index < found → ¬ stream.Passes test index := by
  simp only [firstIn?, Option.map_eq_some_iff, findIdx?_eq_some_iff_getElem?, getElem?_slice,
    Passes]
  constructor
  · rintro ⟨distance, ⟨passes, earlier⟩, rfl⟩
    by_cases inside : range.start + distance < range.stop
    · rw [if_pos inside] at passes
      refine ⟨⟨by omega, inside, passes⟩, ?_⟩
      intro index lower upper
      have before := earlier (index - range.start) (by omega)
      rwa [if_pos (by omega), Nat.add_sub_cancel' lower] at before
    · rw [if_neg inside] at passes
      simp at passes
  · rintro ⟨⟨lower, upper, passes⟩, earlier⟩
    refine ⟨found - range.start, ⟨?_, ?_⟩, by omega⟩
    · rwa [if_pos (by omega), Nat.add_sub_cancel' lower]
    · intro distance before
      rw [if_pos (by omega)]
      exact earlier _ (by omega) (by omega)

theorem firstIn?_eq_none_iff {stream : TokenStream} {range : IndexRange} {test : Token → Bool} :
    stream.firstIn? range test = none ↔
      ∀ index, range.start ≤ index → index < range.stop → ¬ stream.Passes test index := by
  simp only [firstIn?, Option.map_eq_none_iff, List.findIdx?_eq_none_iff, mem_slice_iff, Passes]
  constructor
  · intro all index lower upper passes
    cases token : stream[index]? with
    | none => simp [token] at passes
    | some found =>
        rw [token, Option.any_some, all found ⟨index, lower, upper, token⟩] at passes
        contradiction
  · rintro all token ⟨index, lower, upper, found⟩
    simpa [found] using all index lower upper

theorem isSome_firstIn?_iff {stream : TokenStream} {range : IndexRange} {test : Token → Bool} :
    (stream.firstIn? range test).isSome = true ↔
      ∃ index, range.start ≤ index ∧ index < range.stop ∧ stream.Passes test index := by
  rw [← Option.ne_none_iff_isSome, ne_eq, firstIn?_eq_none_iff]
  simp only [not_forall, not_not]
  constructor
  · rintro ⟨index, lower, upper, passes⟩
    exact ⟨index, lower, upper, passes⟩
  · rintro ⟨index, lower, upper, passes⟩
    exact ⟨index, lower, upper, passes⟩

theorem hasKind_unique {stream : TokenStream} {left right : TokenKind} {index : Nat}
    (first : stream.hasKind left index = true) (second : stream.hasKind right index = true) :
    left = right := by
  simp only [hasKind, beq_iff_eq] at first second
  exact Option.some.inj (first.symm.trans second)

theorem nextOfKind?_eq_some_iff {stream : TokenStream} {kind : TokenKind} {index found : Nat} :
    stream.nextOfKind? kind index = some found ↔
      stream.nextSignificant? index = some found ∧ stream.hasKind kind found = true := by
  rw [nextOfKind?, Option.filter_eq_some_iff]

theorem isKeyword_unique {stream : TokenStream} {left right : Text} {index : Nat}
    (first : stream.isKeyword left index = true) (second : stream.isKeyword right index = true) :
    left.map Char.toLower = right.map Char.toLower := by
  rw [isKeyword] at first second
  cases token : stream[index]? with
  | none =>
      rw [token] at first
      contradiction
  | some found =>
      rw [token] at first second
      simp only [Option.any_some, Token.isKeyword, Text.equalIgnoringCase, Bool.and_eq_true,
        beq_iff_eq] at first second
      exact first.2.symm.trans second.2

theorem methodName?_eq_some_iff {stream : TokenStream} {function name : Nat} :
    stream.methodName? function = some name ↔
      stream.nextOfKind? .identifier function = some name ∨
        ∃ ampersand, stream.nextOfKind? .ampersand function = some ampersand ∧
          stream.nextOfKind? .identifier ampersand = some name := by
  simp only [nextOfKind?_eq_some_iff]
  rw [methodName?]
  cases next : stream.nextSignificant? function with
  | none => simp
  | some first =>
      by_cases isAmpersand : stream.hasKind .ampersand first = true
      · have noIdentifier : stream.hasKind .identifier first = false := by
          rw [Bool.eq_false_iff]
          intro isIdentifier
          exact absurd (hasKind_unique isAmpersand isIdentifier) (by decide)
        have reserved : first = name → stream.hasKind .identifier name ≠ true := by
          rintro rfl
          simp [noIdentifier]
        simp only [Option.bind_eq_bind, Option.bind_some, isAmpersand, if_true,
          Option.bind_eq_some_iff, Option.some.injEq]
        constructor
        · rintro ⟨found, second, identifier⟩
          split at identifier
          next isIdentifier =>
            cases identifier
            exact .inr ⟨first, ⟨rfl, isAmpersand⟩, second, isIdentifier⟩
          next => contradiction
        · rintro (⟨rfl, isIdentifier⟩ | ⟨_, ⟨rfl, _⟩, second, isIdentifier⟩)
          · exact absurd isIdentifier (reserved rfl)
          · exact ⟨name, second, by rw [if_pos isIdentifier]⟩
      · simp only [Option.bind_eq_bind, Option.bind_some, isAmpersand, Bool.false_eq_true, if_false,
          Option.some.injEq]
        constructor
        · intro identifier
          split at identifier
          next isIdentifier =>
            cases identifier
            exact .inl ⟨rfl, isIdentifier⟩
          next => contradiction
        · rintro (⟨rfl, isIdentifier⟩ | ⟨_, ⟨rfl, another⟩, _, _⟩)
          · rw [if_pos isIdentifier]
          · contradiction

end TokenStream

end ConstructorInjection
