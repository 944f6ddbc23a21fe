import Mathlib.Data.List.Basic
import Mathlib.Tactic.Common
import ConstructorInjection.Proofs.CopiedTokens
import ConstructorInjection.Proofs.LongestTokens

/-!
Tokens that are read from their own texts. What is read depends on the text behind the tokens only
where the last of them ends, so that tokens can be moved in front of another text.
-/

namespace ConstructorInjection

theorem TokenKind.isMarkup_of_isWord {kind : TokenKind} (isWord : kind.isWord = true) :
    kind.isMarkup = false := by
  cases kind <;> first | rfl | contradiction

theorem LexicalRule.lexeme_of_isWord : ∀ rule ∈ lexicalRules, ∀ kind : TokenKind,
    kind.isWord = true → rule.lexeme.gives kind = true → rule.lexeme = .name := by
  intro rule isRule kind isWord
  revert rule
  cases kind <;> first | contradiction | decide

theorem Piece.kind_of_isWord {memberName : Bool} {input : Text} {piece : Piece}
    (next : Piece.ofCode memberName input = .ok piece) (isWord : piece.kind.isWord = true) :
    piece.kind = nameKind memberName (input.take piece.length) := by
  obtain ⟨rule, isRule, gives, matched, extent, _, _, _, total, kind⟩ := Piece.exists_rule next
  rw [LexicalRule.lexeme_of_isWord rule isRule _ isWord gives, ← total] at kind
  exact kind

namespace Token

/-- In front of a text, the token is the piece that is read first. -/
def IsRead (token : Token) (mode : LexMode) (memberName : Bool) (behind : Text) : Prop :=
  ∃ piece, Piece.next mode memberName (token.text ++ behind) = .ok piece ∧
    piece.kind = token.kind ∧ piece.length = token.text.length

/-- What a token needs to be read in front of a copy as in front of its source. -/
structure Seam (token : Token) (source copy : Text) : Prop where
  noHtml : token.kind ≠ .inlineHtml
  comment : token.kind = .lineComment → EndsComment copy
  label : token.kind = .heredoc → copy.head?.any isLabelPart = false
  feed : token.kind.isMarkup = true →
    source ≠ [] ∧ (copy.head? = some '\n' → source.head? = some '\n')
  unspoiled : token.text = ['?', '>'] → source.head? ≠ some '\r'

variable {token : Token} {mode : LexMode} {memberName : Bool} {behind source copy common : Text}

theorem IsRead.text_ne_nil (isRead : token.IsRead mode memberName behind) : token.text ≠ [] := by
  obtain ⟨piece, _, _, size⟩ := isRead
  exact List.length_pos_iff.mp (size ▸ piece.length_pos)

theorem IsRead.mode_of_isMarkup (isRead : token.IsRead mode memberName behind)
    (isCode : token.kind.isMarkup = false) : mode = .code := by
  obtain ⟨piece, next, kind, _⟩ := isRead
  exact Piece.mode_of_isMarkup next (kind ▸ isCode)

/-- What was read before decides only on words without a backslash. -/
theorem IsRead.remember (isRead : token.IsRead mode memberName behind)
    (qualified : token.kind.isWord = true → token.kind = .qualifiedName) (other : Bool) :
    token.IsRead mode other behind := by
  obtain ⟨piece, next, kind, size⟩ := isRead
  obtain ⟨renamed, again, length, kinds⟩ := Piece.next_rename next other
  refine ⟨renamed, again, ?_, length.trans size⟩
  rcases kinds with same | ⟨renamedWord, isWord⟩
  · exact same.trans kind
  · have isCode := Piece.mode_of_isMarkup next (TokenKind.isMarkup_of_isWord isWord)
    subst isCode
    have isKind := Piece.kind_of_isWord next isWord
    have isRenamed := Piece.kind_of_isWord again renamedWord
    rw [kind] at isWord isKind
    rw [qualified isWord] at isKind ⊢
    rw [isRenamed, length]
    rw [nameKind] at isKind ⊢
    split at isKind
    next backslash => rw [if_pos backslash]
    next =>
      split at isKind <;> contradiction

/-- A tag in code is read as its two characters at least. -/
theorem IsRead.text_of_tag (isRead : token.IsRead .code memberName behind)
    (isTag : (token.text ++ behind).take 2 = ['?', '>']) : token.text.take 2 = ['?', '>'] := by
  obtain ⟨piece, next, _, size⟩ := isRead
  obtain ⟨rest, whole⟩ : ∃ rest, token.text ++ behind = '?' :: '>' :: rest := by
    refine ⟨(token.text ++ behind).drop 2, ?_⟩
    conv_lhs => rw [← List.take_append_drop 2 (token.text ++ behind), isTag]
    rfl
  rw [whole] at next
  have long := (Piece.of_tagMark next).1
  rw [← isTag, List.take_append_of_le_length (size ▸ long)]

theorem IsRead.begins_comment (isRead : token.IsRead .code memberName behind)
    (comment : token.kind = .lineComment) : behind = [] ∨ EndsComment behind := by
  obtain ⟨piece, next, kind, size⟩ := isRead
  have ends := Piece.ends_lineComment next (kind.trans comment)
  rwa [size, List.drop_left] at ends

/-- A line comment ends in front of what the token behind it begins with. -/
theorem IsRead.endsComment {next : Token} {nextMemberName : Bool}
    (isRead : token.IsRead .code memberName (next.text ++ behind))
    (comment : token.kind = .lineComment) (isNext : next.IsRead .code nextMemberName behind) :
    EndsComment next.text := by
  have nonempty := isNext.text_ne_nil
  have more : next.text ++ behind ≠ [] := List.append_ne_nil_of_left_ne_nil nonempty _
  rcases (isRead.begins_comment comment).resolve_left more with feed | tag
  · rw [List.head?_append_of_ne_nil _ nonempty] at feed
    exact .inl feed
  · exact .inr (isNext.text_of_tag tag)

/-- HTML ends in front of an open tag. -/
theorem IsRead.opensTag (isRead : token.IsRead .html memberName behind)
    (isHtml : token.kind = .inlineHtml) (more : behind ≠ []) :
    (openTagAt? behind).isSome = true := by
  obtain ⟨piece, next, kind, size⟩ := isRead
  cases next
  have opens := @Piece.behindHtml (token.text ++ behind)
  rw [size, List.drop_left] at opens
  exact opens more (kind.trans isHtml)

theorem IsRead.isSome_openTagAt?_iff (isRead : token.IsRead .html memberName behind) :
    (openTagAt? (token.text ++ behind)).isSome = true ↔ token.kind ≠ .inlineHtml := by
  obtain ⟨piece, next, kind, _⟩ := isRead
  cases next
  rw [← kind]
  rcases Piece.ofHtml_cases (token.text ++ behind) with ⟨tag, found, isTag, _⟩ | ⟨none, isHtml, _⟩
  · rw [found, isTag]
    rcases (openTagAt?_ends found).2.1 with isOpen | isOpen <;> simp [isOpen]
  · simp [none, isHtml]

theorem IsRead.parted (isRead : token.IsRead .code memberName (common ++ source))
    (noAttribute : token.kind ≠ .attributeStart) (parted : Parted (token.text ++ common) copy)
    (noReturn : token.text ++ common = ['?', '>'] → source.head? ≠ some '\r')
    (comment : token.kind = .lineComment → EndsComment (common ++ copy))
    (label : token.kind = .heredoc → (common ++ source).head?.any isLabelPart = false →
      (common ++ copy).head?.any isLabelPart = false) :
    token.IsRead .code memberName (common ++ copy) := by
  obtain ⟨piece, next, kind, size⟩ := isRead
  rw [← kind] at noAttribute comment label
  exact ⟨piece, Piece.ofCode_parted next size parted noReturn ⟨noAttribute, comment, label⟩, kind,
    size⟩

theorem IsRead.tag (isRead : token.IsRead .html memberName source) (isTag : token.kind ≠ .inlineHtml)
    (more : source ≠ []) (feed : copy.head? = some '\n' → source.head? = some '\n') :
    token.IsRead .html memberName copy := by
  obtain ⟨piece, next, kind, size⟩ := isRead
  cases next
  refine ⟨_, rfl, ?_⟩
  rcases Piece.ofHtml_cases (token.text ++ source) with ⟨tag, found, isOpen, long⟩ | ⟨_, isHtml, _⟩
  · have again := openTagAt?_copied found (long.symm.trans size) more feed
    rcases Piece.ofHtml_cases (token.text ++ copy) with ⟨other, isOther, same, length⟩ | ⟨none, _, _⟩
    · cases again.symm.trans isOther
      exact ⟨same.trans (isOpen.symm.trans kind), length.trans (long.symm.trans size)⟩
    · cases again.symm.trans none
  · exact absurd (kind.symm.trans isHtml) isTag

theorem IsRead.html (isRead : token.IsRead .html memberName source) (isHtml : token.kind = .inlineHtml)
    (more : source ≠ []) (opens : (openTagAt? copy).isSome = true) :
    token.IsRead .html memberName copy := by
  obtain ⟨piece, next, kind, size⟩ := isRead
  cases next
  obtain ⟨same, length⟩ := Piece.ofHtml_copied (kind.trans isHtml) size more opens
  exact ⟨_, rfl, same.trans isHtml.symm, length⟩

/-- The last token in front of a seam. -/
theorem IsRead.move (isRead : token.IsRead mode memberName source)
    (noAttribute : token.kind ≠ .attributeStart) (parted : Parted token.text copy)
    (seam : token.Seam source copy) : token.IsRead mode memberName copy := by
  cases mode with
  | code =>
      refine @IsRead.parted _ _ source copy [] isRead noAttribute ?_ ?_ seam.comment
        fun isHeredoc _ => seam.label isHeredoc
      · rwa [List.append_nil]
      · rw [List.append_nil]
        exact seam.unspoiled
  | html =>
      have isMarkup : token.kind.isMarkup = true := by
        obtain ⟨piece, next, kind, _⟩ := isRead
        cases next
        rw [← kind]
        exact Piece.isMarkup_ofHtml _
      obtain ⟨more, feed⟩ := seam.feed isMarkup
      exact isRead.tag seam.noHtml more feed

end Token

/-- In front of a text, tokens are read one after the other as they are spelled. Whether `#[` opens
an attribute is left open: that depends on the line behind it. -/
inductive Legible (behind : Text) : LexMode → Bool → List Token → Prop where
  | nil {mode : LexMode} {memberName : Bool} : Legible behind mode memberName []
  | plain {mode : LexMode} {memberName : Bool} {token : Token} {rest : List Token}
      (noAttribute : token.kind ≠ .attributeStart)
      (isRead : token.IsRead mode memberName (textOf rest ++ behind))
      (later : Legible behind (mode.after token.kind)
        (memberNameAfter memberName token.kind token.text) rest) :
      Legible behind mode memberName (token :: rest)
  | opener {memberName : Bool} {token : Token} {rest : List Token}
      (isStart : token.kind = .attributeStart) (text : token.text = ['#', '['])
      (later : Legible behind (LexMode.code.after token.kind)
        (memberNameAfter memberName token.kind token.text) rest) :
      Legible behind .code memberName (token :: rest)

namespace Legible

variable {behind source copy : Text} {mode : LexMode} {memberName : Bool}
  {tokens left right : List Token} {first : Token}

theorem tail (legible : Legible behind mode memberName (first :: tokens)) :
    Legible behind (mode.after first.kind) (memberNameAfter memberName first.kind first.text)
      tokens := by
  cases legible with
  | plain _ _ later => exact later
  | opener _ _ later => exact later

theorem isRead (legible : Legible behind mode memberName (first :: tokens))
    (noAttribute : first.kind ≠ .attributeStart) :
    first.IsRead mode memberName (textOf tokens ++ behind) := by
  cases legible with
  | plain _ isRead _ => exact isRead
  | opener isStart _ _ => exact absurd isStart noAttribute

theorem text_ne_nil (legible : Legible behind mode memberName tokens) :
    ∀ token ∈ tokens, token.text ≠ [] := by
  induction legible with
  | nil => simp
  | plain _ isRead _ ih => exact List.forall_mem_cons.mpr ⟨isRead.text_ne_nil, ih⟩
  | opener _ text _ ih => exact List.forall_mem_cons.mpr ⟨by simp [text], ih⟩

theorem textOf_ne_nil (legible : Legible behind mode memberName tokens) (nonempty : tokens ≠ []) :
    textOf tokens ≠ [] := by
  obtain ⟨first, rest, rfl⟩ := List.exists_cons_of_ne_nil nonempty
  rw [textOf_cons]
  exact List.append_ne_nil_of_left_ne_nil (legible.text_ne_nil first (by simp)) _

theorem append_iff :
    Legible behind mode memberName (left ++ right) ↔
      Legible (textOf right ++ behind) mode memberName left ∧
        Legible behind (modeBehind mode left) (memberNameBehind memberName left) right := by
  induction left generalizing mode memberName with
  | nil => exact ⟨fun legible => ⟨.nil, legible⟩, And.right⟩
  | cons token left ih =>
      have texts : textOf (left ++ right) ++ behind = textOf left ++ (textOf right ++ behind) := by
        rw [textOf_append, List.append_assoc]
      constructor
      · intro legible
        obtain ⟨front, back⟩ := ih.mp legible.tail
        refine ⟨?_, back⟩
        cases legible with
        | plain noAttribute isRead _ => exact .plain noAttribute (texts ▸ isRead) front
        | opener isStart text _ => exact .opener isStart text front
      · rintro ⟨front, back⟩
        have later := ih.mpr ⟨front.tail, back⟩
        cases front with
        | plain noAttribute isRead _ => exact .plain noAttribute (texts ▸ isRead) later
        | opener isStart text _ => exact .opener isStart text later

/-- What was read before decides only on words without a backslash. -/
theorem remember (legible : Legible behind mode memberName tokens)
    (qualified : ∀ token ∈ tokens.find? (!·.isTrivia),
      token.kind.isWord = true → token.kind = .qualifiedName) (other : Bool) :
    Legible behind mode other tokens := by
  induction tokens generalizing mode memberName other with
  | nil => exact .nil
  | cons token rest ih =>
      by_cases trivia : token.isTrivia = true
      · rw [List.find?_cons_of_neg (by simp [trivia])] at qualified
        have memory (memberName : Bool) :
            memberNameAfter memberName token.kind token.text = memberName :=
          if_pos trivia
        have later := legible.tail
        rw [memory] at later
        have laterToo := ih later qualified other
        rw [← memory other] at laterToo
        have plain : token.kind ≠ .attributeStart ∧ token.kind.isWord = false := by
          rw [Token.isTrivia] at trivia
          constructor
          · intro isStart
            rw [isStart] at trivia
            contradiction
          · cases isKind : token.kind <;> rw [isKind] at trivia <;> first | rfl | contradiction
        refine .plain plain.1 ((legible.isRead plain.1).remember (fun isWord => ?_) other) laterToo
        rw [plain.2] at isWord
        contradiction
      · have significant : token.kind.isTrivia = false := Bool.eq_false_iff.mpr trivia
        rw [List.find?_cons_of_pos (by simp [trivia])] at qualified
        have memory : memberNameAfter other token.kind token.text =
            memberNameAfter memberName token.kind token.text := by
          rw [memberNameAfter, memberNameAfter, significant]
          rfl
        cases legible with
        | plain noAttribute isRead later =>
            exact .plain noAttribute (isRead.remember (qualified token rfl) other) (memory ▸ later)
        | opener isStart text later => exact .opener isStart text (memory ▸ later)

theorem of_lexes {place : Place} {input : Text}
    (lexes : Lexes mode memberName place input tokens) : Legible [] mode memberName tokens := by
  induction lexes with
  | done => exact .nil
  | @step mode memberName place input piece rest nonempty next later ih =>
      have whole : input.take piece.length ++ (textOf rest ++ []) = input := by
        rw [List.append_nil, later.textOf_eq, List.take_append_drop]
      have size := List.length_take_of_le (Piece.length_le next nonempty)
      by_cases isStart : piece.kind = .attributeStart
      · have isCode := Piece.mode_of_isMarkup next (by rw [isStart]; rfl)
        subst isCode
        exact .opener isStart (Piece.closes_of_attributeStart next isStart).1 ih
      · exact .plain isStart ⟨piece, by rw [whole]; exact next, rfl, size.symm⟩ ih

/-- A token that others follow is read again in front of them, wherever these are read. -/
theorem isRead_inner {token next : Token} {others : List Token}
    (isRead : token.IsRead mode memberName (textOf (next :: others) ++ source))
    (noAttribute : token.kind ≠ .attributeStart)
    (parted : Parted (token.text ++ textOf (next :: others)) copy)
    {nextMode : LexMode} {nextMemberName : Bool} (isMode : mode.after token.kind = nextMode)
    (later : Legible source nextMode nextMemberName (next :: others))
    (again : Legible copy nextMode nextMemberName (next :: others)) :
    token.IsRead mode memberName (textOf (next :: others) ++ copy) := by
  have nonempty := isRead.text_ne_nil
  have behind := later.textOf_ne_nil (List.cons_ne_nil next others)
  have head (text : Text) : (textOf (next :: others) ++ text).head? =
      (textOf (next :: others)).head? := List.head?_append_of_ne_nil _ behind
  cases mode with
  | code =>
      refine isRead.parted noAttribute parted ?_ ?_ fun _ stops => ?_
      · intro tag
        have size := congrArg List.length tag
        have first := List.length_pos_iff.mpr nonempty
        have second := List.length_pos_iff.mpr behind
        rw [List.length_append, List.length_cons, List.length_singleton] at size
        have short := congrArg List.length (isRead.text_of_tag (by
          rw [← List.append_assoc, tag]
          rfl))
        rw [List.length_take, List.length_cons, List.length_singleton] at short
        omega
      · intro comment
        rw [comment] at isMode
        subst isMode
        cases later with
        | plain _ isNext _ =>
            rw [textOf_cons, List.append_assoc] at isRead ⊢
            exact (isRead.endsComment comment isNext).append _
        | opener _ text _ =>
            rcases (isRead.begins_comment comment) with none | ends
            · exact absurd none (List.append_ne_nil_of_left_ne_nil behind _)
            · simp [EndsComment, textOf_cons, text] at ends
      · rwa [head] at stops ⊢
  | html =>
      have more : textOf (next :: others) ++ source ≠ [] :=
        List.append_ne_nil_of_left_ne_nil behind _
      by_cases isHtml : token.kind = .inlineHtml
      · rw [isHtml] at isMode
        subst isMode
        have noNext : next.kind ≠ .attributeStart := by
          intro isStart
          cases later with
          | plain noStart _ _ => exact noStart isStart
        refine isRead.html isHtml more ?_
        have opens := isRead.opensTag isHtml more
        have isNext := later.isRead noNext
        rw [textOf_cons, List.append_assoc] at opens ⊢
        exact (again.isRead noNext).isSome_openTagAt?_iff.mpr (isNext.isSome_openTagAt?_iff.mp opens)
      · refine isRead.tag isHtml more ?_
        rw [head, head]
        exact id

/-- Tokens can be moved in front of another text if no match reaches into that and their last token
ends there. -/
theorem front (legible : Legible source mode memberName tokens)
    (parted : ∀ back, back <:+ tokens → back ≠ [] → Parted (textOf back) copy)
    (seam : ∀ last ∈ tokens.getLast?, last.Seam source copy) :
    Legible copy mode memberName tokens := by
  induction legible with
  | nil => exact .nil
  | @opener _ token rest isStart text later ih =>
      refine .opener isStart text (ih (fun back isBack => parted back (isBack.trans ?_)) ?_)
      · exact List.suffix_cons token rest
      · intro last isLast
        exact seam last (List.mem_getLast?_cons isLast)
  | @plain mode memberName token rest noAttribute isRead later ih =>
      have again := ih (fun back isBack => parted back (isBack.trans (List.suffix_cons token rest)))
        fun last isLast => seam last (List.mem_getLast?_cons isLast)
      have whole := parted (token :: rest) (List.suffix_refl _) (List.cons_ne_nil _ _)
      rw [textOf_cons] at whole
      refine .plain noAttribute ?_ again
      cases rest with
      | nil => exact isRead.move noAttribute (List.append_nil token.text ▸ whole) (seam token rfl)
      | cons next others => exact isRead_inner isRead noAttribute whole rfl later again

end Legible

end ConstructorInjection
