import Mathlib.Data.List.Basic
import Mathlib.Tactic.Common
import ConstructorInjection.Proofs.PatternContexts

/-!
Seams of a text: places behind which any other text may stand without a change to the longest match
in front of it. There is one in front of what begins afresh, in front of blanks, behind a mark and
behind the first two characters of a comment.
-/

namespace ConstructorInjection

/-- The longest match at the start of a text does not see the text behind it. -/
def Parted (text behind : Text) : Prop :=
  longestMatch (text ++ behind) = longestMatch text

theorem takeWhile_append_length_le {test : Char → Bool} {text : Text} (behind : Text)
    (stops : ∃ character ∈ text, test character = false) :
    ((text ++ behind).takeWhile test).length ≤ text.length := by
  obtain ⟨character, member, fails⟩ := stops
  rw [List.takeWhile_append, if_neg]
  · exact (List.takeWhile_prefix test).length_le
  · intro all
    have whole := (List.takeWhile_prefix test).eq_of_length all
    rw [← whole] at member
    have passes := List.all_eq_true.mp List.all_takeWhile character member
    rw [fails] at passes
    contradiction

namespace Parted

variable {text behind : Text} {first : Char} {rest : Text}

theorem of_fresh (nonempty : text ≠ []) (fresh : Fresh behind) : Parted text behind :=
  longestMatch_context nonempty (.inl fresh) fun _ => fresh.head?_ne (by decide)

/-- Only blanks and tags go on with a blank. -/
theorem of_space (space : behind.head?.any isLineSpace = true)
    (inked : ∃ character ∈ text, isLineSpace character = false)
    (noTag : text.take 2 ≠ ['?', '>']) : Parted text behind := by
  obtain ⟨first, rest, rfl, isSpace⟩ :
      ∃ first rest, behind = first :: rest ∧ isLineSpace first = true := by
    cases behind with
    | nil => contradiction
    | cons first rest => exact ⟨first, rest, rfl, space⟩
  have nonempty : text ≠ [] := by
    rintro rfl
    obtain ⟨_, member, _⟩ := inked
    contradiction
  have kinds : ∀ rule ∈ lexicalRules, rule.pattern.isSolid = true ∨ rule.pattern = .blanks ∨
      rule.pattern = .closeTag := by decide
  have noTagAhead : (text ++ first :: rest).take 2 ≠ ['?', '>'] := by
    match text, nonempty, noTag with
    | [mark], _, _ =>
        rw [List.singleton_append, List.take_succ_cons, List.take_succ_cons, List.take_zero]
        rintro ⟨⟩
        exact Bool.false_ne_true isSpace
    | mark :: second :: more, _, noTag => exact noTag
  refine longestMatch_context nonempty (.inr fun found result => ?_) ?_
  · obtain ⟨rule, isRule, _, length⟩ := longestAmong_mem result
    rw [← length]
    rcases kinds rule isRule with solid | isBlanks | isTag
    · by_contra further
      have covered := Pattern.solid_matchLength solid (text ++ first :: rest)
      obtain ⟨more, size⟩ := Nat.exists_eq_add_of_lt (Nat.lt_of_not_le further)
      have passes := covered first (by
        rw [size, Nat.add_assoc, List.take_length_add_append]
        simp)
      rw [isSpace] at passes
      contradiction
    · rw [isBlanks]
      exact takeWhile_append_length_le _ inked
    · rw [isTag, (Pattern.tags_eq_zero noTagAhead).1]
      exact Nat.zero_le _
  · rintro rfl
    exact absurd rfl noTag

theorem of_blanks (begins : text.head?.any isLineSpace = true)
    (stop : behind.head?.any isLineSpace = false) : Parted text behind := by
  cases text with
  | nil => contradiction
  | cons first rest =>
      rw [List.head?_cons, Option.any_some] at begins
      have kept := filter_rules_of_isLineSpace begins
      have same : ((first :: rest) ++ behind).takeWhile isLineSpace =
          (first :: rest).takeWhile isLineSpace := by
        rw [List.takeWhile_append]
        split
        next all =>
          rw [← List.nil_append behind, takeWhile_append_of_stop (by simp) stop, List.append_nil]
          exact ((List.takeWhile_prefix _).eq_of_length all).symm
        next => rfl
      rw [List.cons_append] at same
      rw [Parted, List.cons_append, longestMatch_cons kept, longestMatch_cons kept]
      simp only [longestAmong, Pattern.matchLength, same]
      rfl

/-- A mark is the only token that begins with its character. -/
theorem of_mark {kind : TokenKind}
    (kept : lexicalRules.filter (·.pattern.opensWith first) = [⟨.spelling [first], .whole kind⟩]) :
    Parted (first :: rest) behind := by
  rw [Parted, List.cons_append, longestMatch_cons kept, longestMatch_cons kept]
  simp [longestAmong, Pattern.matchLength, List.isPrefixOf]

/-- Two characters decide whether a comment begins. -/
theorem of_comment {second : Char} (begins : first = '/' ∨ first = '#') :
    Parted (first :: second :: rest) behind := by
  have slash : lexicalRules.filter (·.pattern.opensWith '/') =
      [⟨.spelling ['/', '/'], .lineComment⟩, ⟨.spelling ['/', '*'], .blockComment⟩,
        ⟨.spelling ['/', '='], .whole .operator⟩, ⟨.spelling ['/'], .whole .operator⟩] := rfl
  have hash : lexicalRules.filter (·.pattern.opensWith '#') =
      [⟨.spelling ['#'], .lineComment⟩, ⟨.spelling ['#', '['], .attributeOrComment⟩] := rfl
  rcases begins with rfl | rfl
  · rw [Parted, List.cons_append, List.cons_append, longestMatch_cons slash, longestMatch_cons slash]
    simp only [longestAmong, Pattern.matchLength, List.isPrefixOf, Bool.and_true]
  · rw [Parted, List.cons_append, List.cons_append, longestMatch_cons hash, longestMatch_cons hash]
    simp only [longestAmong, Pattern.matchLength, List.isPrefixOf, Bool.and_true]

end Parted

end ConstructorInjection
