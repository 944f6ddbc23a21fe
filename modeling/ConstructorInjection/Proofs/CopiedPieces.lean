import Mathlib.Data.List.Basic
import Mathlib.Tactic.Common
import ConstructorInjection.Proofs.CopiedExtents
import ConstructorInjection.Proofs.MatchSeams

/-!
Pieces of copied code. What is read first of a source is read first of its copy.
-/

namespace ConstructorInjection

namespace Piece

theorem length_ofMatch {memberName : Bool} {input : Text} {found : LexicalMatch}
    {positive : 0 < found.length} {piece : Piece}
    (result : ofMatch memberName input found positive = .ok piece) : found.length ≤ piece.length := by
  unfold ofMatch at result
  extract_lets rest at result
  split at result
  case h_1 | h_2 | h_3 =>
    cases result
    simp
  case h_4 =>
    split at result <;> cases result <;> simp
  case h_5 | h_6 =>
    split at result
    · cases result
      simp
    · contradiction
  case h_7 =>
    split at result
    · cases result
      simp
    · contradiction
    · contradiction

variable {memberName : Bool} {text source copy : Text} {piece : Piece}

/-- What the end of a piece depends on behind the piece. -/
structure GoesOn (piece : Piece) (source copy : Text) : Prop where
  noAttribute : piece.kind ≠ .attributeStart
  comment : piece.kind = .lineComment → EndsComment copy
  label : piece.kind = .heredoc → source.head?.any isLabelPart = false →
    copy.head?.any isLabelPart = false

theorem ofMatch_copied {found : LexicalMatch} {positive : 0 < found.length}
    (result : ofMatch memberName (text ++ source) found positive = .ok piece)
    (size : piece.length = text.length) (goesOn : piece.GoesOn source copy) :
    ofMatch memberName (text ++ copy) found positive = .ok piece := by
  obtain ⟨lexeme, length⟩ := found
  obtain ⟨opener, body, rfl, rfl⟩ : ∃ opener body, text = opener ++ body ∧ opener.length = length :=
    ⟨text.take length, text.drop length, (List.take_append_drop _ _).symm,
      List.length_take_of_le (size ▸ length_ofMatch result)⟩
  unfold ofMatch at result ⊢
  simp only [List.append_assoc, List.drop_left, List.take_left, List.length_append] at result size ⊢
  cases lexeme with
  | whole kind => exact result
  | name => exact result
  | lineComment =>
      cases result
      rw [Nat.add_left_cancel_iff] at size
      simp only [lineCommentExtent_copied size (goesOn.comment rfl), size]
  | attributeOrComment =>
      simp only at result ⊢
      split at result
      next =>
        cases result
        exact absurd rfl goesOn.noAttribute
      next noAttribute =>
        cases result
        rw [Nat.add_left_cancel_iff] at size
        have copied := lineCommentExtent_copied size (goesOn.comment rfl)
        have same : closesAttribute (body ++ copy) = closesAttribute (body ++ source) := by
          simp only [closesAttribute, copied, size, List.take_left]
        simp only [same, if_neg noAttribute, copied, size]
  | blockComment =>
      simp only at result ⊢
      split at result
      next extent closed =>
        cases result
        rw [Nat.add_left_cancel_iff] at size
        subst size
        simp only [blockCommentExtent_copied copy closed (Nat.le_refl _), ← List.append_assoc,
          ← List.length_append, List.take_left]
      next => contradiction
  | quoted quote =>
      simp only at result ⊢
      split at result
      next extent closed =>
        cases result
        rw [Nat.add_left_cancel_iff] at size
        simp only [quotedExtent_copied copy closed (Nat.le_of_eq size)]
      next => contradiction
  | heredoc =>
      simp only at result ⊢
      split at result
      next extent closed =>
        cases result
        rw [Nat.add_left_cancel_iff] at size
        subst size
        obtain ⟨stops, further⟩ := heredocExtent_copied copy closed
        simp only [further (goesOn.label rfl stops)]
      next => contradiction
      next => contradiction

/-- A piece that ends in what a copy has in common with its source is read of the copy. -/
theorem ofCode_parted {common copyRest sourceRest : Text}
    (next : ofCode memberName (text ++ (common ++ sourceRest)) = .ok piece)
    (size : piece.length = text.length) (parted : Parted (text ++ common) copyRest)
    (noReturn : text ++ common = ['?', '>'] → sourceRest.head? ≠ some '\r')
    (goesOn : piece.GoesOn (common ++ sourceRest) (common ++ copyRest)) :
    ofCode memberName (text ++ (common ++ copyRest)) = .ok piece := by
  obtain ⟨found, result, matched⟩ := ofCode_eq_ok next
  have inside : found.length ≤ text.length := size ▸ length_ofMatch matched
  have nonempty : text ++ common ≠ [] := by
    refine List.append_ne_nil_of_left_ne_nil (List.length_pos_iff.mp ?_) _
    exact Nat.lt_of_lt_of_le (longestMatch_length_pos result) inside
  have same : longestMatch (text ++ (common ++ copyRest)) = some found := by
    rw [← List.append_assoc, parted, ← result, ← List.append_assoc,
      longestMatch_context nonempty (.inr fun other isOther => ?_) noReturn]
    rw [List.append_assoc, result] at isOther
    cases isOther
    rw [List.length_append]
    omega
  rw [ofCode_of_longestMatch same]
  exact ofMatch_copied matched size goesOn

theorem ofCode_copied (next : ofCode memberName (text ++ source) = .ok piece)
    (size : piece.length = text.length) (copies : Copies copy source)
    (noAttribute : piece.kind ≠ .attributeStart)
    (comment : piece.kind = .lineComment → EndsComment copy)
    (unspoiled : piece.kind = .question → text ≠ ['?', '>']) :
    ofCode memberName (text ++ copy) = .ok piece := by
  have goesOn : piece.GoesOn source copy := by
    refine ⟨noAttribute, comment, fun _ stops => ?_⟩
    rcases copies.head? with same | fresh
    · rw [same, stops]
    · exact fresh.head?_any (by decide)
  obtain ⟨common, copyRest, sourceRest, rfl, rfl, fresh⟩ := copies
  have nonempty : text ++ common ≠ [] := by
    refine List.append_ne_nil_of_left_ne_nil (List.length_pos_iff.mp ?_) _
    exact size ▸ piece.length_pos
  refine ofCode_parted next size (.of_fresh nonempty fresh) ?_ goesOn
  intro tag isReturn
  obtain ⟨found, result, matched⟩ := ofCode_eq_ok next
  have inside : found.length ≤ text.length := size ▸ length_ofMatch matched
  obtain ⟨more, rfl⟩ := List.head?_eq_some_iff.mp isReturn
  have whole : text ++ (common ++ '\r' :: more) = '?' :: '>' :: '\r' :: more := by
    rw [← List.append_assoc, tag]
    rfl
  have short := congrArg List.length tag
  rw [List.length_append] at short
  simp only [List.length_cons, List.length_nil] at short
  rw [whole, longestMatch_returnBehindTag] at result
  split at result
  next =>
    cases result
    simp only at inside
    omega
  next =>
    cases result
    have noMore : common = [] := List.length_eq_zero_iff.mp (by simp only at inside; omega)
    rw [noMore, List.append_nil] at tag
    cases matched
    exact unspoiled rfl tag

end Piece

/-- Markup is the same in front of a tag. -/
theorem Piece.ofHtml_copied {text source copy : Text}
    (isHtml : (Piece.ofHtml (text ++ source)).kind = .inlineHtml)
    (size : (Piece.ofHtml (text ++ source)).length = text.length) (more : source ≠ [])
    (copyTag : (openTagAt? copy).isSome = true) :
    (Piece.ofHtml (text ++ copy)).kind = .inlineHtml ∧
      (Piece.ofHtml (text ++ copy)).length = text.length := by
  have atSource := Piece.behindHtml (by rwa [size, List.drop_left]) isHtml
  rw [size, List.drop_left] at atSource
  obtain ⟨sourceTag, sourceFound⟩ := Option.isSome_iff_exists.mp atSource
  obtain ⟨tag, copyFound⟩ := Option.isSome_iff_exists.mp copyTag
  have begins := (openTagAt?_ends sourceFound).1
  obtain ⟨noTag, length⟩ := Piece.openTagAt?_of_html isHtml
  cases text with
  | nil => exact absurd size (Nat.ne_of_gt (Piece.ofHtml source).length_pos)
  | cons first body =>
      rw [size, List.length_cons, List.cons_append, List.drop_succ_cons, List.drop_zero,
        Nat.add_right_cancel_iff] at length
      have extent := htmlExtent_copied length.symm begins copyTag
      rw [openTagAt?_before (List.cons_ne_nil first body) begins (openTagAt?_ends copyFound).1]
        at noTag
      rcases Piece.ofHtml_cases (first :: body ++ copy) with ⟨other, found, _⟩ | ⟨_, kind, whole⟩
      · rw [noTag] at found
        contradiction
      · rw [List.cons_append, List.drop_succ_cons, List.drop_zero, extent] at whole
        exact ⟨kind, whole⟩

end ConstructorInjection
