import Mathlib.Data.List.Basic
import Mathlib.Tactic.Common
import ConstructorInjection.Proofs.Generated
import ConstructorInjection.Proofs.Legibility

/-!
Where tokens can be moved in front of another text. Behind a mark any text may stand. Elsewhere the
other text has to begin afresh or with a blank, and the last token has to end there.
-/

namespace ConstructorInjection

/-- The character of a mark. No other token begins with it, and none goes on with it. -/
def TokenKind.sign? : TokenKind → Option Char
  | openBrace => some '\x7b'
  | closeBrace => some '\x7d'
  | openParen => some '('
  | closeParen => some ')'
  | closeBracket => some ']'
  | semicolon => some ';'
  | comma => some ','
  | _ => none

section Signs

variable {kind : TokenKind} {sign : Char}

theorem TokenKind.rules_of_sign (isSign : kind.sign? = some sign) :
    (∀ rule ∈ lexicalRules, rule.lexeme.gives kind = true →
        rule = ⟨.spelling [sign], .whole kind⟩) ∧
      lexicalRules.filter (·.pattern.opensWith sign) = [⟨.spelling [sign], .whole kind⟩] ∧
      isFresh sign = true := by
  cases kind <;> cases isSign <;> exact ⟨by decide, rfl, rfl⟩

theorem TokenKind.plain_of_sign (isSign : kind.sign? = some sign) :
    kind.isMarkup = false ∧ kind.isTrivia = false ∧ kind.isWord = false ∧
      kind.isMemberOperator = false ∧ kind ≠ .attributeStart ∧ kind ≠ .heredoc := by
  cases kind <;> cases isSign <;> decide

theorem TokenKind.after_of_sign (isSign : kind.sign? = some sign) :
    LexMode.code.after kind = .code := by
  cases kind <;> first | rfl | contradiction

theorem TokenKind.isSome_sign?_of_isCloser (closes : kind.isCloser = true) :
    kind.sign?.isSome = true := by
  cases kind <;> first | rfl | contradiction

theorem memberNameAfter_of_sign (isSign : kind.sign? = some sign) (memberName : Bool) (text : Text) :
    memberNameAfter memberName kind text = false := by
  obtain ⟨_, noTrivia, noWord, noOperator, _⟩ := TokenKind.plain_of_sign isSign
  have noKeyword : kind ≠ .keyword := by
    rintro rfl
    contradiction
  rw [memberNameAfter, noTrivia, noOperator, beq_eq_false_iff_ne.mpr noKeyword]
  rfl

theorem Token.IsRead.text_of_sign {token : Token} {mode : LexMode} {memberName : Bool}
    {behind : Text} (isRead : token.IsRead mode memberName behind)
    (isSign : token.kind.sign? = some sign) : token.text = [sign] := by
  have isCode := isRead.mode_of_isMarkup (TokenKind.plain_of_sign isSign).1
  subst isCode
  have nonempty := isRead.text_ne_nil
  obtain ⟨piece, next, kind, size⟩ := isRead
  obtain ⟨rule, isRule, gives, matched, extent, length, positive, scan, total, _⟩ :=
    Piece.exists_rule next
  rw [kind] at gives
  have isOwn := (TokenKind.rules_of_sign isSign).1 rule isRule gives
  subst isOwn
  cases scan
  rw [Pattern.matchLength] at length
  split at length
  next starts =>
    obtain ⟨first, rest, text⟩ := List.exists_cons_of_ne_nil nonempty
    rw [text] at starts size ⊢
    have isFirst : sign = first := by simpa [List.isPrefixOf] using starts
    have short : rest.length = 0 := by
      rw [List.length_cons] at size
      rw [List.length_singleton] at length
      omega
    rw [isFirst, List.length_eq_zero_iff.mp short]
  next => omega

end Signs

namespace Parted

variable {text common behind : Text}

/-- A match that ends in the text does not see what stands behind the common part. -/
theorem through (near : Parted text (common ++ behind)) (alone : Parted text common) :
    Parted (text ++ common) behind := by
  rw [Parted, List.append_assoc]
  exact near.trans alone.symm

/-- Behind a common part, one text is as good as another if no match goes on behind that part. -/
theorem of_common {source : Text} (parted : Parted text (common ++ source))
    (near : Parted (text ++ common) source) (other : Parted (text ++ common) behind) :
    Parted text (common ++ behind) := by
  rw [Parted, ← List.append_assoc, other, ← near, List.append_assoc, parted]

theorem of_sign {kind : TokenKind} {sign : Char} (isSign : kind.sign? = some sign) :
    Parted (text ++ [sign]) behind := by
  obtain ⟨_, kept, isFresh⟩ := TokenKind.rules_of_sign isSign
  cases text with
  | nil => exact .of_mark kept
  | cons first rest =>
      have fresh (others : Text) : Fresh (sign :: others) := by
        intro character isHead
        cases isHead
        exact isFresh
      exact through (.of_fresh (List.cons_ne_nil _ _) (fresh behind))
        (.of_fresh (List.cons_ne_nil _ _) (fresh []))

end Parted

/-- A text that begins neither with a blank nor with a closing tag. -/
structure Inked (text : Text) : Prop where
  nonempty : text ≠ []
  first : text.head?.any isLineSpace = false
  noTag : text.take 2 ≠ ['?', '>']

namespace Inked

variable {text : Text}

theorem head?_ne (inked : Inked text) {character : Char} (space : isLineSpace character = true) :
    text.head? ≠ some character := by
  intro isHead
  have first := inked.first
  rw [isHead, Option.any_some, space] at first
  contradiction

theorem not_endsComment (inked : Inked text) : ¬ EndsComment text := by
  rintro (feed | tag)
  · exact inked.head?_ne rfl feed
  · exact inked.noTag tag

theorem of_fresh (nonempty : text ≠ []) (fresh : Fresh text) : Inked text := by
  refine ⟨nonempty, fresh.head?_any (by decide), fun tag => ?_⟩
  have isHead : text.head? = some '?' := by
    have first := congrArg List.head? tag
    rwa [List.head?_take, if_neg (by decide)] at first
  exact fresh.head?_ne (by decide) isHead

theorem of_beginsName (begins : BeginsName text) : Inked text := by
  cases text with
  | nil => contradiction
  | cons first rest =>
      rw [BeginsName, List.head?_cons, Option.any_some, Bool.or_eq_true, beq_iff_eq] at begins
      refine ⟨List.cons_ne_nil _ _, ?_, ?_⟩
      · rw [List.head?_cons, Option.any_some]
        rcases begins with rfl | start
        · rfl
        · exact isLineSpace_eq_false_of_isLabelPart (isLabelPart_of_isLabelStart start)
      · rw [List.take_succ_cons]
        intro tag
        have isFirst := List.head_eq_of_cons_eq tag
        rw [isFirst] at begins
        rcases begins with same | start
        · contradiction
        · exact absurd start (by decide)

end Inked

namespace Token

variable {token : Token} {mode : LexMode} {memberName : Bool} {source copy : Text}

theorem IsRead.ne_inlineHtml (isRead : token.IsRead .code memberName source) :
    token.kind ≠ .inlineHtml := by
  obtain ⟨piece, next, kind, _⟩ := isRead
  rw [← kind]
  exact Piece.ofCode_kind_ne next

/-- The kind that is read of blanks. -/
theorem IsRead.whitespace (isRead : token.IsRead .code memberName source)
    (space : (token.text ++ source).head?.any isLineSpace = true) : token.kind = .whitespace := by
  obtain ⟨piece, next, kind, _⟩ := isRead
  cases whole : token.text ++ source with
  | nil =>
      rw [whole] at space
      contradiction
  | cons first rest =>
      rw [whole] at next space
      rw [← kind]
      exact Piece.whitespace_of_isLineSpace space next

/-- A token that code follows may be followed by what begins afresh. -/
theorem IsRead.seam_of_fresh (isRead : token.IsRead mode memberName source)
    (isCode : mode.after token.kind = .code) (inked : Inked source) (fresh : Fresh copy) :
    token.Seam source copy where
  noHtml isHtml := by
    rw [isHtml] at isCode
    change mode = .code at isCode
    subst isCode
    exact isRead.ne_inlineHtml isHtml
  comment comment := by
    have isMode := isRead.mode_of_isMarkup (by rw [comment]; rfl)
    subst isMode
    rcases isRead.begins_comment comment with none | ends
    · exact absurd none inked.nonempty
    · exact absurd ends inked.not_endsComment
  label _ := fresh.head?_any (by decide)
  feed _ := ⟨inked.nonempty, fun feed => absurd feed (fresh.head?_ne (by decide))⟩
  unspoiled _ := inked.head?_ne rfl

end Token

theorem Spaces.begins {text : Text} (spaces : Spaces text) (nonempty : text ≠ []) :
    text.head?.any isLineSpace = true := by
  obtain ⟨first, rest, rfl⟩ := List.exists_cons_of_ne_nil nonempty
  exact spaces first (by simp)

/-- No token begins with a closing tag. -/
def Tagless (tokens : List Token) : Prop :=
  ∀ token ∈ tokens, token.text.take 2 ≠ ['?', '>']

theorem LexicalRule.eq_of_markup : ∀ rule ∈ lexicalRules, ∀ kind : TokenKind,
    kind.isMarkup = true → rule.lexeme.gives kind = true →
      kind = .closeTag ∧ rule = ⟨.closeTag, .whole .closeTag⟩ := by
  intro rule isRule kind isMarkup
  revert rule
  cases kind <;> first | contradiction | decide

theorem LexicalRule.pattern_of_comment : ∀ rule ∈ lexicalRules, ∀ kind : TokenKind,
    kind.isTrivia = true → kind ≠ .whitespace → rule.lexeme.gives kind = true →
      ∃ first, (first = '/' ∨ first = '#') ∧ ∃ rest, rule.pattern = .spelling (first :: rest) ∧
        (kind ≠ .lineComment → rest ≠ []) := by
  have openers : ∀ rule ∈ lexicalRules,
      (rule.lexeme.gives .lineComment = true ∨ rule.lexeme.gives .blockComment = true ∨
        rule.lexeme.gives .docComment = true) →
      rule = ⟨.spelling ['/', '/'], .lineComment⟩ ∨ rule = ⟨.spelling ['#'], .lineComment⟩ ∨
        rule = ⟨.spelling ['/', '*'], .blockComment⟩ ∨
        rule = ⟨.spelling ['#', '['], .attributeOrComment⟩ := by decide
  intro rule isRule kind trivia noBlank gives
  have isComment : kind = .lineComment ∨ kind = .blockComment ∨ kind = .docComment := by
    cases kind <;> first | contradiction | simp
  have given : rule.lexeme.gives .lineComment = true ∨ rule.lexeme.gives .blockComment = true ∨
      rule.lexeme.gives .docComment = true := by
    rcases isComment with rfl | rfl | rfl
    · exact .inl gives
    · exact .inr (.inl gives)
    · exact .inr (.inr gives)
  rcases openers rule isRule given with rfl | rfl | rfl | rfl
  · exact ⟨'/', .inl rfl, ['/'], rfl, by simp⟩
  · refine ⟨'#', .inr rfl, [], rfl, fun noLine => ?_⟩
    rcases isComment with rfl | rfl | rfl <;> contradiction
  · exact ⟨'/', .inl rfl, ['*'], rfl, by simp⟩
  · exact ⟨'#', .inr rfl, ['['], rfl, by simp⟩

namespace Token

variable {token : Token} {memberName : Bool} {source copy : Text}

/-- Code is left with a closing tag alone. -/
theorem IsRead.text_of_isMarkup (isRead : token.IsRead .code memberName source)
    (isMarkup : token.kind.isMarkup = true) : token.text.take 2 = ['?', '>'] := by
  have tagged := @text_of_tag _ _ _ isRead
  obtain ⟨piece, next, kind, size⟩ := isRead
  obtain ⟨rule, isRule, gives, matched, extent, length, positive, _⟩ := Piece.exists_rule next
  rw [kind] at gives
  obtain ⟨_, rfl⟩ := LexicalRule.eq_of_markup rule isRule token.kind isMarkup gives
  by_contra noTag
  rw [(Pattern.tags_eq_zero fun tag => noTag (tagged tag)).1] at length
  omega

theorem IsRead.isMarkup_eq_false (isRead : token.IsRead .code memberName source)
    (noTag : token.text.take 2 ≠ ['?', '>']) : token.kind.isMarkup = false :=
  Bool.eq_false_iff.mpr fun isMarkup => noTag (isRead.text_of_isMarkup isMarkup)

theorem seam_of_attributeStart (isStart : token.kind = .attributeStart)
    (text : token.text = ['#', '[']) : token.Seam source copy where
  noHtml isHtml := by simp [isStart] at isHtml
  comment comment := by simp [isStart] at comment
  label isHeredoc := by simp [isStart] at isHeredoc
  feed isMarkup := by simp [isStart, TokenKind.isMarkup] at isMarkup
  unspoiled tag := by simp [text] at tag

theorem plain_of_trivia (trivia : token.isTrivia = true) :
    token.kind ≠ .attributeStart ∧ token.kind.isMarkup = false ∧ token.kind ≠ .heredoc ∧
      token.kind.isWord = false := by
  rw [Token.isTrivia] at trivia
  cases kind : token.kind <;> rw [kind] at trivia <;> first | contradiction | decide

/-- A blank token is all the blanks that there are. -/
theorem IsRead.takeWhile_of_whitespace (isRead : token.IsRead .code memberName source)
    (isBlank : token.kind = .whitespace) :
    (token.text ++ source).takeWhile isLineSpace = token.text := by
  have own : ∀ rule ∈ lexicalRules, rule.lexeme.gives .whitespace = true →
      rule = ⟨.blanks, .whole .whitespace⟩ := by decide
  obtain ⟨piece, next, kind, size⟩ := isRead
  obtain ⟨rule, isRule, gives, matched, extent, length, _, scan, total, _⟩ := Piece.exists_rule next
  rw [kind, isBlank] at gives
  obtain rfl := own rule isRule gives
  cases scan
  rw [Nat.add_zero, size, ← length] at total
  have covered := List.prefix_iff_eq_take.mp
    (List.takeWhile_prefix (p := isLineSpace) (l := token.text ++ source))
  change (token.text ++ source).takeWhile isLineSpace =
    (token.text ++ source).take (Pattern.blanks.matchLength (token.text ++ source)) at covered
  rwa [← total, List.take_left] at covered

theorem IsRead.spaces (isRead : token.IsRead .code memberName source)
    (isBlank : token.kind = .whitespace) : Spaces token.text := by
  intro character member
  rw [← isRead.takeWhile_of_whitespace isBlank] at member
  exact List.all_eq_true.mp List.all_takeWhile character member

theorem IsRead.stop_of_whitespace (isRead : token.IsRead .code memberName source)
    (isBlank : token.kind = .whitespace) : source.head?.any isLineSpace = false := by
  have covered := isRead.takeWhile_of_whitespace isBlank
  rw [List.takeWhile_append_of_pos (isRead.spaces isBlank)] at covered
  cases source with
  | nil => rfl
  | cons first rest =>
      rw [List.head?_cons, Option.any_some]
      refine Bool.eq_false_iff.mpr fun space => ?_
      rw [List.takeWhile_cons_of_pos space] at covered
      simp at covered

/-- How comments begin, and that only those of a line may have one character. -/
theorem IsRead.text_of_comment (isRead : token.IsRead .code memberName source)
    (trivia : token.isTrivia = true) (noBlank : token.kind ≠ .whitespace) :
    ∃ first rest, token.text = first :: rest ∧ (first = '/' ∨ first = '#') ∧
      (token.kind ≠ .lineComment → rest ≠ []) := by
  have nonempty := isRead.text_ne_nil
  obtain ⟨piece, next, kind, size⟩ := isRead
  obtain ⟨rule, isRule, gives, matched, extent, length, positive, _, total, _⟩ :=
    Piece.exists_rule next
  rw [kind] at gives
  obtain ⟨opener, isOpener, rest, isPattern, long⟩ :=
    LexicalRule.pattern_of_comment rule isRule token.kind trivia noBlank gives
  rw [isPattern, Pattern.matchLength] at length
  split at length
  next starts =>
    obtain ⟨first, more, text⟩ := List.exists_cons_of_ne_nil nonempty
    rw [text, List.cons_append, List.isPrefixOf, Bool.and_eq_true, beq_iff_eq] at starts
    rw [starts.1] at isOpener
    refine ⟨first, more, text, isOpener, fun noLine isNil => ?_⟩
    rw [text, isNil] at size
    rw [List.length_cons] at length
    rw [List.length_singleton] at size
    have := List.length_pos_iff.mpr (long noLine)
    omega
  next => omega

theorem IsRead.text_ne_tag (isRead : token.IsRead .code memberName source)
    (trivia : token.isTrivia = true) : token.text ≠ ['?', '>'] := by
  intro tag
  by_cases isBlank : token.kind = .whitespace
  · have space := isRead.spaces isBlank '?' (by simp [tag])
    contradiction
  · obtain ⟨first, rest, text, begins, _⟩ := isRead.text_of_comment trivia isBlank
    rw [tag] at text
    cases text
    rcases begins with same | same <;> contradiction

/-- A token of code without tags needs a seam for comments and heredocs only. -/
theorem IsRead.seam_of_noTag (isRead : token.IsRead .code memberName source)
    (noTag : token.text.take 2 ≠ ['?', '>']) (comment : token.kind = .lineComment → EndsComment copy)
    (label : copy.head?.any isLabelPart = false) : token.Seam source copy where
  noHtml := isRead.ne_inlineHtml
  comment := comment
  label _ := label
  feed isMarkup := by
    rw [isRead.isMarkup_eq_false noTag] at isMarkup
    contradiction
  unspoiled tag := absurd (by rw [tag]; rfl) noTag

end Token

theorem modeBehind_of_blank {tokens : List Token} (blank : Blank tokens) :
    modeBehind .code tokens = .code := by
  induction tokens with
  | nil => rfl
  | cons token rest ih =>
      have trivia := blank token (by simp)
      have stays : LexMode.code.after token.kind = .code := by
        rw [Token.isTrivia] at trivia
        cases kind : token.kind <;> rw [kind] at trivia <;> first | rfl | contradiction
      rw [modeBehind, List.foldl_cons, stays]
      exact ih fun other member => blank other (List.mem_cons_of_mem _ member)

theorem modeBehind_concat (mode : LexMode) (tokens : List Token) (last : Token) :
    modeBehind mode (tokens ++ [last]) = (modeBehind mode tokens).after last.kind := by
  simp [modeBehind]

namespace Legible

variable {source copy : Text} {mode : LexMode} {memberName : Bool} {tokens : List Token}
  {last : Token}

theorem text_of_attributeStart {rest : List Token}
    (legible : Legible source mode memberName (last :: rest))
    (isStart : last.kind = .attributeStart) : last.text = ['#', '['] := by
  cases legible with
  | plain noAttribute _ _ => exact absurd isStart noAttribute
  | opener _ text _ => exact text

theorem isRead_last (legible : Legible source mode memberName (tokens ++ [last]))
    (noAttribute : last.kind ≠ .attributeStart) :
    last.IsRead (modeBehind mode tokens) (memberNameBehind memberName tokens) source := by
  exact (append_iff.mp legible).2.isRead noAttribute

/-- Any text may stand behind a mark. -/
theorem front_of_sign {sign : Char} (legible : Legible source mode memberName (tokens ++ [last]))
    (isSign : last.kind.sign? = some sign) : Legible copy mode memberName (tokens ++ [last]) := by
  obtain ⟨noMarkup, noTrivia, _, _, noAttribute, noHeredoc⟩ := TokenKind.plain_of_sign isSign
  have text := (legible.isRead_last noAttribute).text_of_sign isSign
  refine legible.front (fun back isBack nonempty => ?_) (fun other isLast => ?_)
  · obtain ⟨front, isEnd⟩ := isBack
    obtain ⟨others, final, rfl⟩ := (List.eq_nil_or_concat' back).resolve_left nonempty
    rw [← List.append_assoc] at isEnd
    have isFinal := List.append_inj_right' isEnd rfl
    cases isFinal
    have single : textOf [last] = [sign] := by
      rw [textOf_cons, text]
      rfl
    rw [textOf_append, single]
    exact .of_sign isSign
  · rw [List.getLast?_concat] at isLast
    cases isLast
    exact {
      noHtml isHtml := by simp [isHtml, TokenKind.isMarkup] at noMarkup
      comment comment := by simp [comment, TokenKind.isTrivia] at noTrivia
      label isHeredoc := absurd isHeredoc noHeredoc
      feed isMarkup := by simp [noMarkup] at isMarkup
      unspoiled tag := by simp [text] at tag }

theorem textOf_suffix_ne_nil (legible : Legible source mode memberName tokens) {back : List Token}
    (isBack : back <:+ tokens) (nonempty : back ≠ []) : textOf back ≠ [] := by
  obtain ⟨front, rfl⟩ := isBack
  exact (append_iff.mp legible).2.textOf_ne_nil nonempty

/-- Tokens that code follows may be followed by what begins afresh. -/
theorem front_of_fresh (legible : Legible source mode memberName tokens)
    (isCode : modeBehind mode tokens = .code) (inked : Inked source) (fresh : Fresh copy) :
    Legible copy mode memberName tokens := by
  refine legible.front (fun back isBack nonempty =>
    .of_fresh (legible.textOf_suffix_ne_nil isBack nonempty) fresh) (fun last isLast => ?_)
  obtain ⟨front, rfl⟩ := List.getLast?_eq_some_iff.mp isLast
  rw [modeBehind_concat] at isCode
  by_cases isStart : last.kind = .attributeStart
  · exact Token.seam_of_attributeStart isStart
      ((append_iff.mp legible).2.text_of_attributeStart isStart)
  · exact (legible.isRead_last isStart).seam_of_fresh isCode inked fresh

/-- Code without tags stays code. -/
theorem modeBehind_of_tagless (legible : Legible source .code memberName tokens)
    (tagless : Tagless tokens) : modeBehind .code tokens = .code := by
  induction tokens generalizing memberName with
  | nil => rfl
  | cons token rest ih =>
      have stays : LexMode.code.after token.kind = .code := by
        by_cases isStart : token.kind = .attributeStart
        · rw [isStart]
          rfl
        · have noMarkup := (legible.isRead isStart).isMarkup_eq_false (tagless token (by simp))
          cases kind : token.kind <;> rw [kind] at noMarkup <;> first | rfl | contradiction
      have later := legible.tail
      rw [stays] at later
      have behind := ih later fun other member => tagless other (List.mem_cons_of_mem _ member)
      rw [modeBehind, List.foldl_cons, stays]
      exact behind

/-- The last token of code that has no tags. -/
theorem isRead_of_tagless (legible : Legible source .code memberName (tokens ++ [last]))
    (tagless : Tagless (tokens ++ [last])) (noAttribute : last.kind ≠ .attributeStart) :
    last.IsRead .code (memberNameBehind memberName tokens) source := by
  have front := (append_iff.mp legible).1.modeBehind_of_tagless
    fun token member => tagless token (List.mem_append_left _ member)
  have isRead := legible.isRead_last noAttribute
  rwa [front] at isRead

theorem seam_of_tagless (legible : Legible source .code memberName tokens)
    (tagless : Tagless tokens) (isLast : last ∈ tokens.getLast?)
    (comment : last.kind = .lineComment → EndsComment copy)
    (label : copy.head?.any isLabelPart = false) : last.Seam source copy := by
  obtain ⟨front, rfl⟩ := List.getLast?_eq_some_iff.mp isLast
  by_cases isStart : last.kind = .attributeStart
  · exact Token.seam_of_attributeStart isStart
      ((append_iff.mp legible).2.text_of_attributeStart isStart)
  · exact (legible.isRead_of_tagless tagless isStart).seam_of_noTag (tagless last (by simp)) comment
      label

theorem take_two_ne_tag (legible : Legible source .code memberName tokens)
    (tagless : Tagless tokens) : (textOf tokens).take 2 ≠ ['?', '>'] := by
  intro tag
  cases tokens with
  | nil => simp [textOf] at tag
  | cons first rest =>
      refine tagless first (by simp) ?_
      by_cases isStart : first.kind = .attributeStart
      · rw [textOf_cons, legible.text_of_attributeStart isStart] at tag
        simp at tag
      · refine (legible.isRead isStart).text_of_tag ?_
        have long : 2 ≤ (textOf (first :: rest)).length := by
          have size := congrArg List.length tag
          rw [List.length_take, List.length_cons, List.length_singleton] at size
          omega
        rw [← List.append_assoc, ← textOf_cons, List.take_append_of_le_length long, tag]

/-- No match at the start of tokens reaches behind them. -/
theorem parted (legible : Legible source .code memberName tokens) (nonempty : tokens ≠ [])
    (noReturn : textOf tokens = ['?', '>'] → source.head? ≠ some '\r') :
    Parted (textOf tokens) source := by
  have longer := legible.textOf_ne_nil nonempty
  obtain ⟨first, rest, rfl⟩ := List.exists_cons_of_ne_nil nonempty
  by_cases isStart : first.kind = .attributeStart
  · rw [textOf_cons, legible.text_of_attributeStart isStart]
    exact .of_comment (.inr rfl)
  · obtain ⟨piece, next, _, size⟩ := legible.isRead isStart
    obtain ⟨found, result, matched⟩ := Piece.ofCode_eq_ok next
    refine longestMatch_context longer (.inr fun other isOther => ?_) noReturn
    rw [textOf_cons, List.append_assoc] at isOther
    cases isOther.symm.trans result
    have inside := Piece.length_ofMatch matched
    rw [textOf_cons, List.length_append]
    omega

/-- No match of code without tags goes on with blanks, unless blanks are its last token. -/
theorem parted_of_space (legible : Legible source .code memberName tokens) (tagless : Tagless tokens)
    (nonempty : tokens ≠ []) (content : ∀ last ∈ tokens.getLast?, last.kind ≠ .whitespace)
    (space : copy.head?.any isLineSpace = true) : Parted (textOf tokens) copy := by
  refine .of_space space ?_ (legible.take_two_ne_tag tagless)
  obtain ⟨others, last, rfl⟩ := (List.eq_nil_or_concat' tokens).resolve_left nonempty
  obtain ⟨first, rest, text⟩ := List.exists_cons_of_ne_nil (legible.text_ne_nil last (by simp))
  refine ⟨first, by rw [textOf_append, textOf_cons, text]; simp, ?_⟩
  by_cases isStart : last.kind = .attributeStart
  · have isText := (append_iff.mp legible).2.text_of_attributeStart isStart
    rw [text] at isText
    cases isText
    rfl
  · refine Bool.eq_false_iff.mpr fun isSpace => content last (by simp) ?_
    refine (legible.isRead_of_tagless tagless isStart).whitespace ?_
    rw [text]
    exact isSpace

/-- The tokens at the end of code without tags. -/
theorem of_suffix (legible : Legible source .code memberName tokens) (tagless : Tagless tokens)
    {back : List Token} (isBack : back <:+ tokens) :
    Tagless back ∧ ∃ memory, Legible source .code memory back := by
  obtain ⟨front, rfl⟩ := isBack
  obtain ⟨legibleFront, legibleBack⟩ := append_iff.mp legible
  rw [legibleFront.modeBehind_of_tagless fun token member => tagless token (by simp [member])]
    at legibleBack
  exact ⟨fun token member => tagless token (by simp [member]), _, legibleBack⟩

theorem not_isLabelPart_of_space (space : copy.head?.any isLineSpace = true) :
    copy.head?.any isLabelPart = false := by
  cases copy with
  | nil => rfl
  | cons first rest =>
      rw [List.head?_cons, Option.any_some] at space ⊢
      refine Bool.eq_false_iff.mpr fun part => ?_
      rw [isLineSpace_eq_false_of_isLabelPart part] at space
      contradiction

/-- Blanks may be put behind code without tags that ends in other tokens. -/
theorem front_of_space (legible : Legible source .code memberName tokens) (tagless : Tagless tokens)
    (space : copy.head?.any isLineSpace = true)
    (content : ∀ last ∈ tokens.getLast?,
      last.kind ≠ .whitespace ∧ (last.kind = .lineComment → EndsComment copy)) :
    Legible copy .code memberName tokens := by
  refine legible.front (fun back isBack nonempty => ?_) fun last isLast =>
    legible.seam_of_tagless tagless isLast (content last isLast).2 (not_isLabelPart_of_space space)
  obtain ⟨taglessBack, memory, legibleBack⟩ := legible.of_suffix tagless isBack
  refine legibleBack.parted_of_space taglessBack nonempty (fun last isLast => ?_) space
  obtain ⟨front, rfl⟩ := isBack
  exact (content last (List.mem_getLast?_append_of_mem_getLast? isLast)).1

/-- Of the tokens in front of one that stays, it makes no difference which blanks stand behind that
one. -/
theorem front_of_common (legible : Legible source .code memberName (tokens ++ [last]))
    (tagless : Tagless (tokens ++ [last])) (content : last.kind ≠ .whitespace)
    (space : source.head?.any isLineSpace = true) (spaceCopy : copy.head?.any isLineSpace = true)
    (noComment : ¬ EndsComment (last.text ++ source))
    (label : (last.text ++ copy).head?.any isLabelPart = false) :
    Legible (last.text ++ copy) .code memberName tokens := by
  have taglessFront : Tagless tokens := fun token member => tagless token (by simp [member])
  have single : textOf [last] = last.text := List.append_nil _
  have legibleFront := (append_iff.mp legible).1
  rw [single] at legibleFront
  refine legibleFront.front (fun back isBack nonempty => ?_) fun final isFinal =>
    legibleFront.seam_of_tagless taglessFront isFinal (fun comment => ?_) label
  · obtain ⟨taglessBack, memory, legibleBack⟩ := legibleFront.of_suffix taglessFront isBack
    have isWhole : back ++ [last] <:+ tokens ++ [last] := by
      obtain ⟨front, rfl⟩ := isBack
      exact ⟨front, (List.append_assoc _ _ _).symm⟩
    obtain ⟨taglessWhole, other, legibleWhole⟩ := legible.of_suffix tagless isWhole
    have atBlank {behind : Text} (isSpace : behind.head?.any isLineSpace = true) :
        Parted (textOf back ++ last.text) behind := by
      have parted := legibleWhole.parted_of_space taglessWhole (by simp)
        (fun final isFinal => by
          rw [List.getLast?_concat] at isFinal
          cases isFinal
          exact content) isSpace
      rwa [textOf_append, single] at parted
    refine Parted.of_common (legibleBack.parted nonempty fun tag => ?_) (atBlank space)
      (atBlank spaceCopy)
    exact absurd (by rw [tag]; rfl) (legibleBack.take_two_ne_tag taglessBack)
  · obtain ⟨front, rfl⟩ := List.getLast?_eq_some_iff.mp isFinal
    have isRead := legibleFront.isRead_of_tagless taglessFront (by simp [comment])
    rcases isRead.begins_comment comment with none | ends
    · exact absurd none (List.append_ne_nil_of_left_ne_nil (legible.text_ne_nil last (by simp)) _)
    · exact absurd ends noComment

/-- Behind blanks and comments of which the last is no line comment, there may be any text that does
not begin with a blank. -/
theorem front_of_blank (legible : Legible source .code memberName tokens) (blank : Blank tokens)
    (stop : copy.head?.any isLineSpace = false)
    (noLine : ∀ last ∈ tokens.getLast?, last.kind ≠ .lineComment) :
    Legible copy .code memberName tokens := by
  refine legible.front (fun back isBack nonempty => ?_) (fun last isLast => ?_)
  · obtain ⟨front, rfl⟩ := isBack
    obtain ⟨first, rest, rfl⟩ := List.exists_cons_of_ne_nil nonempty
    have legibleBack := (append_iff.mp legible).2
    rw [modeBehind_of_blank fun token member => blank token (by simp [member])] at legibleBack
    have trivia := blank first (by simp)
    have isRead := legibleBack.isRead (Token.plain_of_trivia trivia).1
    by_cases isBlank : first.kind = .whitespace
    · refine .of_blanks ?_ stop
      rw [textOf_cons, List.head?_append_of_ne_nil _ isRead.text_ne_nil]
      exact (isRead.spaces isBlank).begins isRead.text_ne_nil
    · obtain ⟨character, more, text, begins, long⟩ := isRead.text_of_comment trivia isBlank
      have further : more ++ textOf rest ≠ [] := by
        cases rest with
        | nil => exact List.append_ne_nil_of_left_ne_nil (long (noLine first (by simp))) _
        | cons next others =>
            refine List.append_ne_nil_of_right_ne_nil _ (legibleBack.tail.textOf_ne_nil ?_)
            exact List.cons_ne_nil _ _
      obtain ⟨second, others, isMore⟩ := List.exists_cons_of_ne_nil further
      rw [textOf_cons, text, List.cons_append, isMore]
      exact .of_comment begins
  · obtain ⟨front, rfl⟩ := List.getLast?_eq_some_iff.mp isLast
    have plain := Token.plain_of_trivia (blank last (by simp))
    have isRead := legible.isRead_last plain.1
    rw [modeBehind_of_blank fun token member => blank token (by simp [member])] at isRead
    exact {
      noHtml := isRead.ne_inlineHtml
      comment := fun comment => absurd comment (noLine last isLast)
      label := fun isHeredoc => absurd isHeredoc plain.2.2.1
      feed := fun isMarkup => by simp [plain.2.1] at isMarkup
      unspoiled := fun tag => absurd tag (isRead.text_ne_tag (blank last (by simp))) }

end Legible

end ConstructorInjection
