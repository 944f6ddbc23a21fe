import Mathlib.Data.List.Basic
import Mathlib.Tactic.Common
import ConstructorInjection.Proofs.BareTokens
import ConstructorInjection.Proofs.CopiedPieces
import ConstructorInjection.Proofs.Lossless

/-!
Tokens of copied code. What a text is read as is put together token by token, from the end on, up to
blanks, comments, lines and the kinds of words.
-/

namespace ConstructorInjection

theorem isWord_nameKind (memberName : Bool) (text : Text) :
    (nameKind memberName text).isWord = true := by
  rcases nameKind_isName memberName text with isName | isKeyword
  · simp [TokenKind.isWord, isName]
  · simp [TokenKind.isWord, isKeyword]

theorem Piece.ofMatch_rename {memberName : Bool} {input : Text} {found : LexicalMatch}
    {positive : 0 < found.length} {piece : Piece}
    (result : Piece.ofMatch memberName input found positive = .ok piece) (other : Bool) :
    ∃ renamed, Piece.ofMatch other input found positive = .ok renamed ∧
      renamed.length = piece.length ∧
      (renamed.kind = piece.kind ∨ renamed.kind.isWord = true ∧ piece.kind.isWord = true) := by
  obtain ⟨lexeme, length⟩ := found
  cases lexeme with
  | name =>
      cases result
      exact ⟨_, rfl, rfl, .inr ⟨isWord_nameKind _ _, isWord_nameKind _ _⟩⟩
  | whole kind | lineComment | attributeOrComment | blockComment | quoted quote | heredoc =>
      exact ⟨piece, result, rfl, .inl rfl⟩

theorem Piece.next_rename {mode : LexMode} {memberName : Bool} {input : Text} {piece : Piece}
    (next : Piece.next mode memberName input = .ok piece) (other : Bool) :
    ∃ renamed, Piece.next mode other input = .ok renamed ∧ renamed.length = piece.length ∧
      (renamed.kind = piece.kind ∨ renamed.kind.isWord = true ∧ piece.kind.isWord = true) := by
  cases mode with
  | html => exact ⟨piece, next, rfl, .inl rfl⟩
  | code =>
      obtain ⟨found, result, matched⟩ := Piece.ofCode_eq_ok next
      obtain ⟨renamed, again, length, kinds⟩ := Piece.ofMatch_rename matched other
      exact ⟨renamed, (Piece.ofCode_of_longestMatch result).trans again, length, kinds⟩

/-- Neither the words before a text nor its place decide on its code. -/
theorem Lexes.rename {mode : LexMode} {memberName : Bool} {place : Place} {input : Text}
    {tokens : List Token} (lexes : Lexes mode memberName place input tokens) (other : Bool)
    (elsewhere : Place) :
    ∃ renamed, Lexes mode other elsewhere input renamed ∧ codeOf renamed = codeOf tokens := by
  induction lexes generalizing other elsewhere with
  | done => exact ⟨[], .done, rfl⟩
  | @step mode memberName place input piece rest nonempty next later ih =>
      obtain ⟨renamed, again, length, kinds⟩ := Piece.next_rename next other
      have mode_eq : mode.after renamed.kind = mode.after piece.kind := by
        rcases kinds with same | ⟨word, otherWord⟩
        · rw [same]
        · rw [(TokenKind.plain_of_isWord word).2.2, (TokenKind.plain_of_isWord otherWord).2.2]
      obtain ⟨others, lexesOthers, same⟩ :=
        ih (memberNameAfter other renamed.kind (input.take piece.length))
          (elsewhere.after (input.take piece.length))
      rw [← length, ← mode_eq] at lexesOthers
      refine ⟨_, .step nonempty again lexesOthers, ?_⟩
      rw [codeOf_cons, same, length, codeOf_of_kind kinds _ _ place.line, ← codeOf_cons]

/-- The text is read in the mode, and the tokens are its code. -/
def Reads (mode : LexMode) (text : Text) (tokens : List Token) : Prop :=
  ∃ memberName place lexed, Lexes mode memberName place text lexed ∧ codeOf lexed = tokens

namespace Reads

variable {mode : LexMode} {tokens : List Token} {text copy : Text}

theorem nil (mode : LexMode) : Reads mode [] [] :=
  ⟨false, Place.start, [], .done, rfl⟩

theorem lexes (reads : Reads mode text tokens) (memberName : Bool) (place : Place) :
    ∃ lexed, Lexes mode memberName place text lexed ∧ codeOf lexed = tokens := by
  obtain ⟨_, _, lexed, lexes, rfl⟩ := reads
  exact lexes.rename memberName place

/-- One more piece in front. -/
theorem piece {memberName : Bool} {piece : Piece}
    (next : Piece.next mode memberName (text ++ copy) = .ok piece)
    (size : piece.length = text.length) (later : Reads (mode.after piece.kind) copy tokens) :
    Reads mode (text ++ copy) (codeOf [⟨piece.kind, text, 0⟩] ++ tokens) := by
  have nonempty : text ++ copy ≠ [] := by
    refine List.append_ne_nil_of_left_ne_nil (List.length_pos_iff.mp ?_) _
    exact size ▸ piece.length_pos
  have front : (text ++ copy).take piece.length = text := List.take_left' size.symm
  have rest : (text ++ copy).drop piece.length = copy := List.drop_left' size.symm
  rw [← rest] at later
  obtain ⟨lexed, lexes, rfl⟩ :=
    later.lexes (memberNameAfter memberName piece.kind ((text ++ copy).take piece.length))
      (Place.start.after ((text ++ copy).take piece.length))
  refine ⟨memberName, Place.start, _, .step nonempty next lexes, ?_⟩
  rw [codeOf_cons, front, codeOf_of_kind (.inl rfl) text _ 0]

/-- The first piece and what is behind it. -/
theorem exists_piece (reads : Reads mode text tokens) (nonempty : text ≠ []) :
    ∃ memberName piece later, Piece.next mode memberName text = .ok piece ∧
      tokens = codeOf [⟨piece.kind, text.take piece.length, 0⟩] ++ later ∧
      Reads (mode.after piece.kind) (text.drop piece.length) later := by
  obtain ⟨memberName, place, lexed, lexes, rfl⟩ := reads
  cases lexes with
  | done => contradiction
  | @step _ _ _ _ piece rest _ next later =>
      refine ⟨memberName, piece, codeOf rest, next, ?_, _, _, _, later, rfl⟩
      rw [codeOf_cons, codeOf_of_kind (.inl rfl) _ _ 0]

/-- What is read of a text in any way has the same code. -/
theorem read (reads : Reads mode text tokens) {memberName : Bool} {place : Place}
    {lexed : List Token} (lexes : Lexes mode memberName place text lexed) : codeOf lexed = tokens := by
  obtain ⟨others, again, rfl⟩ := reads.lexes memberName place
  have same := lexes.lexFrom_eq.symm.trans again.lexFrom_eq
  cases same
  rfl

theorem lead {memberName : Bool} {kind : TokenKind} (leads : Leads memberName text kind copy)
    (inCode : kind ≠ .closeTag) (later : Reads .code copy tokens) :
    Reads .code (text ++ copy) (codeOf [⟨kind, text, 0⟩] ++ tokens) := by
  obtain ⟨piece, next, rfl, size⟩ := leads
  refine Reads.piece next size ?_
  have stays : LexMode.code.after piece.kind = .code := by
    cases isKind : piece.kind <;> first | rfl | contradiction
  rwa [stays]

end Reads

/-- Characters of the name at the start of a text that begins like one. -/
theorem longestMatch_name {text : Text}
    (begins : text.head?.any (fun first => first == '\\' || isLabelStart first) = true) :
    longestMatch text =
      if Pattern.name.matchLength text = 0 then none
      else some ⟨.name, Pattern.name.matchLength text⟩ := by
  cases text with
  | nil => contradiction
  | cons first rest =>
      rw [List.head?_cons, Option.any_some, Bool.or_eq_true, beq_iff_eq] at begins
      have kept : lexicalRules.filter (·.pattern.opensWith first) = [⟨.name, .name⟩] := by
        rcases begins with rfl | start
        · rfl
        · exact filter_rules_of_isLabelStart start
      rw [longestMatch_cons kept]
      rfl

theorem IsLabel.labelLength_append_label {label copy : Text} (isLabel : IsLabel label) :
    labelLength (label ++ copy) = label.length + spanLength isLabelPart copy := by
  cases isLabel with
  | mk start parts =>
      rw [List.cons_append, labelLength, if_pos start, List.takeWhile_append_of_pos parts,
        List.length_append, List.length_cons, spanLength, Nat.add_right_comm]

theorem IsLabel.matchLength_append {label copy : Text} (isLabel : IsLabel label)
    (goesOn : copy.head?.any (fun first => first == '\\' || isLabelStart first) = true) :
    Pattern.name.matchLength (label ++ copy) =
      label.length + Pattern.name.matchLength copy := by
  have whole := @labelLength_append_label label copy isLabel
  have noBackslash : (label ++ copy).head? ≠ some '\\' := by
    obtain ⟨first, others, rfl, start⟩ := isLabel.exists_cons
    rintro ⟨⟩
    contradiction
  have positive := List.length_pos_iff.mpr isLabel.ne_nil
  rw [Pattern.matchLength_name noBackslash, if_neg (by omega), andThen, whole, Nat.add_assoc]
  congr 1
  cases copy with
  | nil => contradiction
  | cons first rest =>
      rw [List.head?_cons, Option.any_some, Bool.or_eq_true, beq_iff_eq] at goesOn
      rcases goesOn with rfl | start
      · have none : spanLength isLabelPart ('\\' :: rest) = 0 := rfl
        rw [none, Nat.zero_add, Nat.add_zero, List.drop_left]
        rfl
      · have inner : spanLength isLabelPart (first :: rest) = labelLength (first :: rest) := by
          rw [spanLength, List.takeWhile_cons_of_pos (isLabelPart_of_isLabelStart start),
            labelLength, if_pos start, List.length_cons]
        have other : (first :: rest).head? ≠ some '\\' := by
          rintro ⟨⟩
          contradiction
        have labeled : labelLength (first :: rest) ≠ 0 := by
          rw [labelLength, if_pos start]
          exact Nat.succ_ne_zero _
        rw [Pattern.matchLength_name other, if_neg labeled, inner, andThen,
          List.drop_length_add_append]

theorem Reads.leadName {tokens : List Token} {memberName : Bool} {text copy : Text}
    (leads : Leads memberName text (nameKind memberName text) copy)
    (later : Reads .code copy tokens) : Reads .code (text ++ copy) (⟨.identifier, text, 0⟩ :: tokens) := by
  have word := isWord_nameKind memberName text
  have whole := Reads.lead leads (by rintro isTag; rw [isTag] at word; contradiction) later
  rwa [codeOf_word word] at whole

/-- The text begins like a name. -/
def BeginsName (text : Text) : Prop :=
  text.head?.any (fun first => first == '\\' || isLabelStart first) = true

theorem Piece.isWord_of_beginsName {memberName : Bool} {text : Text} {piece : Piece}
    (begins : BeginsName text) (next : Piece.ofCode memberName text = .ok piece) :
    piece.kind.isWord = true ∧ piece.length = Pattern.name.matchLength text := by
  obtain ⟨found, result, matched⟩ := Piece.ofCode_eq_ok next
  rw [longestMatch_name begins] at result
  split at result
  next => contradiction
  next =>
    cases result
    cases matched
    exact ⟨isWord_nameKind _ _, rfl⟩

/-- A label is read with the name behind it, if there is one. -/
theorem Reads.label {tokens : List Token} {label copy : Text} (isLabel : IsLabel label)
    (noDigit : copy.head?.any Char.isDigit = false) (later : Reads .code copy tokens) :
    Reads .code (label ++ copy) (⟨.identifier, label, 0⟩ :: tokens) ∨
      BeginsName copy ∧ ∃ name behind, tokens = ⟨.identifier, name, 0⟩ :: behind ∧
        Reads .code (label ++ copy) (⟨.identifier, label ++ name, 0⟩ :: behind) := by
  by_cases goesOn : BeginsName copy
  · refine .inr ⟨goesOn, ?_⟩
    have nonempty : copy ≠ [] := by
      rintro rfl
      contradiction
    obtain ⟨memberName, piece, behind, next, rfl, reads⟩ := later.exists_piece nonempty
    obtain ⟨word, size⟩ := Piece.isWord_of_beginsName goesOn next
    rw [(TokenKind.plain_of_isWord word).2.2, size] at reads
    refine ⟨copy.take piece.length, behind, by rw [codeOf_word word]; rfl, ?_⟩
    have begins : BeginsName (label ++ copy) := by
      obtain ⟨first, others, rfl, start⟩ := isLabel.exists_cons
      simp [BeginsName, start]
    have whole := longestMatch_name begins
    have inside := Pattern.matchLength_name_le_length copy
    have positive := piece.length_pos
    rw [isLabel.matchLength_append goesOn, if_neg (by omega)] at whole
    rw [size]
    generalize Pattern.name.matchLength copy = length at whole inside reads
    have cut : label ++ copy = (label ++ copy.take length) ++ copy.drop length := by
      rw [List.append_assoc, List.take_append_drop]
    have both : label.length + length = (label ++ copy.take length).length := by
      rw [List.length_append, List.length_take_of_le inside]
    rw [cut] at whole ⊢
    rw [both] at whole
    exact Reads.leadName (@Leads.name memberName _ _ whole) reads
  · have stops : copy.head?.any isLabelPart = false ∧ copy.head? ≠ some '\\' := by
      cases copy with
      | nil => exact ⟨rfl, by simp⟩
      | cons first rest =>
          simp only [BeginsName, List.head?_cons, Option.any_some, Bool.or_eq_true, beq_iff_eq, not_or,
            Bool.not_eq_true] at goesOn noDigit ⊢
          refine ⟨?_, fun begins => goesOn.1 (Option.some.inj begins)⟩
          rw [isLabelPart, goesOn.2, noDigit]
          rfl
    exact .inl (Reads.leadName (@leads_label false _ _ isLabel stops.1 stops.2) later)

theorem lineCommentExtent_ends (text : Text) :
    text.drop (lineCommentExtent text) = [] ∨ EndsComment (text.drop (lineCommentExtent text)) := by
  fun_induction lineCommentExtent text with
  | case1 => exact .inl rfl
  | case2 rest => exact .inr (.inl rfl)
  | case3 rest => exact .inr (.inr rfl)
  | case4 first rest _ _ ih => rwa [List.drop_succ_cons]

theorem EndsComment.append {text : Text} (ends : EndsComment text) (rest : Text) :
    EndsComment (text ++ rest) := by
  rcases ends with feed | tag
  · obtain ⟨more, rfl⟩ := List.head?_eq_some_iff.mp feed
    exact .inl rfl
  · have long : 2 ≤ text.length := by
      have length := congrArg List.length tag
      rw [List.length_take] at length
      simp only [List.length_cons, List.length_nil] at length
      omega
    exact .inr ((List.take_append_of_le_length long).trans tag)

theorem Piece.ends_lineComment {memberName : Bool} {input : Text} {piece : Piece}
    (next : Piece.ofCode memberName input = .ok piece) (comment : piece.kind = .lineComment) :
    input.drop piece.length = [] ∨ EndsComment (input.drop piece.length) := by
  obtain ⟨⟨lexeme, length⟩, result, matched⟩ := Piece.ofCode_eq_ok next
  have noComment : ∀ rule ∈ lexicalRules, rule.lexeme.wholeKind? ≠ some .lineComment := by decide
  unfold Piece.ofMatch at matched
  cases lexeme with
  | whole kind =>
      obtain ⟨rule, member, isWhole, _⟩ := longestAmong_mem result
      cases matched
      exact absurd (by rw [isWhole]; exact congrArg some comment) (noComment rule member)
  | name =>
      cases matched
      have word := isWord_nameKind memberName (input.take length)
      simp only at comment
      rw [comment] at word
      contradiction
  | lineComment =>
      cases matched
      rw [← List.drop_drop]
      exact lineCommentExtent_ends _
  | attributeOrComment =>
      simp only at matched
      split at matched
      · cases matched
        contradiction
      · cases matched
        rw [← List.drop_drop]
        exact lineCommentExtent_ends _
  | blockComment =>
      simp only at matched
      split at matched
      · cases matched
        simp only [blockCommentKind] at comment
        split at comment <;> [split at comment; skip] <;> contradiction
      · contradiction
  | quoted quote =>
      simp only at matched
      split at matched <;> cases matched
      contradiction
  | heredoc =>
      simp only at matched
      split at matched <;> cases matched
      contradiction

/-- A tag that ends the code has at least its two characters, and neither names nor closers begin
like it. -/
theorem Piece.of_tagMark {memberName : Bool} {rest : Text} {piece : Piece}
    (next : Piece.ofCode memberName ('?' :: '>' :: rest) = .ok piece) :
    2 ≤ piece.length ∧ piece.kind.isName = false ∧ piece.kind.isCloser = false := by
  obtain ⟨found, result, matched⟩ := Piece.ofCode_eq_ok next
  constructor
  · have tags : (⟨.closeTag, .whole .closeTag⟩ : LexicalRule) ∈ lexicalRules ∧
        (⟨.spoiledCloseTag, .whole .question⟩ : LexicalRule) ∈ lexicalRules := by
      simp [lexicalRules]
    have bounded : ∀ other, longestMatch ('?' :: '>' :: rest) = some other →
        other.length ≤ found.length := by
      rintro other isOther
      rw [result] at isOther
      cases isOther
      exact Nat.le_refl _
    have closeTag := matchLength_le_longestAmong bounded _ tags.1
    have spoiled := matchLength_le_longestAmong bounded _ tags.2
    have inside := Piece.length_ofMatch matched
    simp only [(Pattern.matchLength_tags rest).1, (Pattern.matchLength_tags rest).2]
      at closeTag spoiled
    by_cases isReturn : rest.head? = some '\r'
    · rw [if_pos isReturn] at closeTag spoiled
      by_cases feed : rest.tail.head? = some '\n'
      · rw [if_pos feed] at closeTag
        omega
      · rw [if_neg feed] at spoiled
        omega
    · rw [if_neg isReturn] at closeTag
      split at closeTag <;> omega
  · rw [longestMatch_cons filter_rules_questionMark] at result
    obtain ⟨rule, member, isLexeme, _⟩ := longestAmong_mem result
    obtain ⟨lexeme, length⟩ := found
    simp only at isLexeme
    subst isLexeme
    simp only [List.mem_cons, List.not_mem_nil, or_false] at member
    rcases member with rfl | rfl | rfl | rfl | rfl | rfl <;> cases matched <;> exact ⟨rfl, rfl⟩

def Pattern.isNumber : Pattern → Bool
  | radixNumber _ | decimalNumber => true
  | _ => false

def Pattern.spellsNumber : Pattern → Bool
  | spelling characters => characters.head?.any Char.isDigit
  | _ => false

theorem Pattern.isNumber_of_opensWith {first : Char} (digit : first.isDigit = true) :
    ∀ rule ∈ lexicalRules, rule.pattern.opensWith first = true → rule.pattern.isNumber = true := by
  have spelled : ∀ rule ∈ lexicalRules, rule.pattern.spellsNumber = false := by decide
  have different {other : Char} (noDigit : other.isDigit = false) : first ≠ other := by
    rintro rfl
    rw [digit] at noDigit
    contradiction
  intro rule member opens
  have noNumber := spelled rule member
  cases pattern : rule.pattern with
  | spelling characters =>
      rw [pattern] at noNumber opens
      simp only [opensWith, beq_iff_eq] at opens
      rw [spellsNumber, opens, Option.any_some, digit] at noNumber
      contradiction
  | radixNumber | decimalNumber => rfl
  | blanks =>
      rw [pattern] at opens
      simp only [opensWith, isLineSpace, isBlank, Bool.or_eq_true, beq_iff_eq] at opens
      rcases opens with ((rfl | rfl) | rfl) | rfl <;> contradiction
  | name =>
      rw [pattern] at opens
      simp only [opensWith, Bool.or_eq_true, beq_iff_eq] at opens
      rcases opens with rfl | start
      · contradiction
      · rw [isDigit_eq_false_of_isLabelStart start] at digit
        contradiction
  | variableName | fraction | closeTag | spoiledCloseTag =>
      rw [pattern] at opens
      simp only [opensWith, beq_iff_eq] at opens
      exact absurd opens (different (by decide))

theorem Piece.number_of_isDigit {memberName : Bool} {first : Char} {rest : Text} {piece : Piece}
    (digit : first.isDigit = true) (next : Piece.ofCode memberName (first :: rest) = .ok piece) :
    piece.kind = .number := by
  obtain ⟨⟨lexeme, length⟩, result, matched⟩ := Piece.ofCode_eq_ok next
  obtain ⟨rule, member, isLexeme, covers⟩ := longestAmong_mem result
  have numbers : ∀ rule ∈ lexicalRules, rule.pattern.isNumber = true →
      rule.lexeme.wholeKind? = some .number := by decide
  have opens : rule.pattern.opensWith first = true := by
    by_contra closed
    rw [Bool.not_eq_true] at closed
    have positive := longestMatch_length_pos result
    rw [← covers, Pattern.matchLength_eq_zero closed] at positive
    contradiction
  have isNumber := numbers rule member (Pattern.isNumber_of_opensWith digit rule member opens)
  rw [isLexeme] at isNumber
  cases lexeme with
  | whole kind =>
      cases matched
      exact Option.some.inj isNumber
  | name | lineComment | attributeOrComment | blockComment | quoted quote | heredoc => contradiction

namespace Lexes

variable {mode : LexMode} {memberName : Bool} {place : Place} {input : Text} {token : Token}
  {rest : List Token}

theorem uncons (lexes : Lexes mode memberName place input (token :: rest)) (more : rest ≠ []) :
    ∃ piece later elsewhere, Piece.next mode memberName (token.text ++ textOf rest) = .ok piece ∧
      piece.kind = token.kind ∧ piece.length = token.text.length ∧
      Lexes (mode.after token.kind) later elsewhere (textOf rest) rest := by
  have whole := lexes.textOf_eq
  cases lexes with
  | @step _ _ _ _ piece _ nonempty next later =>
      have behind := later.textOf_eq
      have inside : piece.length < input.length := by
        by_contra beyond
        rw [List.drop_eq_nil_of_le (Nat.le_of_not_lt beyond)] at later
        cases later with
        | done => exact more rfl
        | step nonempty _ _ => exact nonempty rfl
      rw [behind]
      refine ⟨piece, _, _, ?_, rfl, ?_, later⟩
      · simp only [List.take_append_drop]
        exact next
      · rw [List.length_take, Nat.min_eq_left (Nat.le_of_lt inside)]

theorem textOf_ne_nil (lexes : Lexes mode memberName place (textOf rest) rest) (more : rest ≠ []) :
    textOf rest ≠ [] := by
  intro none
  rw [none] at lexes
  cases lexes with
  | done => exact more rfl
  | step nonempty _ _ => exact nonempty rfl

/-- What follows a line comment. -/
theorem behind_lineComment {next : Token}
    (lexes : Lexes mode memberName place input (token :: next :: rest))
    (comment : token.kind = .lineComment) :
    EndsComment next.text ∧ next.kind.isName = false ∧ next.kind.isCloser = false := by
  have isCode := lexes.mode_of_isMarkup (by rw [comment]; rfl)
  subst isCode
  cases lexes with
  | @step _ _ _ _ piece _ nonempty isPiece later =>
      have ends := Piece.ends_lineComment isPiece comment
      simp only at comment
      rw [comment] at later
      generalize input.drop piece.length = behind at ends later
      cases later with
      | @step _ _ _ _ nextPiece _ nonempty isNext later =>
          rcases ends.resolve_left nonempty with feed | tag
          · obtain ⟨more, rfl⟩ := List.head?_eq_some_iff.mp feed
            have isFeed : isLineSpace '\n' = true := rfl
            have blank := @Piece.whitespace_of_isLineSpace
              (memberNameAfter memberName .lineComment (input.take piece.length)) _ _ _ isFeed isNext
            exact ⟨.inl (Piece.head?_take nextPiece), by rw [blank]; exact ⟨rfl, rfl⟩⟩
          · match behind, tag with
            | mark :: bracket :: more, tag =>
              simp only [List.take_succ_cons, List.take_zero, List.cons.injEq, and_true] at tag
              obtain ⟨rfl, rfl⟩ := tag
              obtain ⟨long, others⟩ := Piece.of_tagMark isNext
              refine ⟨.inr ?_, others⟩
              rw [List.take_take, Nat.min_eq_left long]
              rfl

/-- What follows text outside of the tags, here and in a copy. -/
theorem behind_html {next : Token}
    (lexes : Lexes mode memberName place input (token :: next :: rest))
    (isHtml : token.kind = .inlineHtml) (more : rest ≠ []) :
    next.kind.isName = false ∧
      ∀ copy, Copies copy (textOf rest) → (openTagAt? (next.text ++ copy)).isSome = true := by
  obtain ⟨rfl, _⟩ := lexes.mode_of_html isHtml
  obtain ⟨piece, _, _, isPiece, kind, size, later⟩ := lexes.uncons (List.cons_ne_nil _ _)
  have nonempty := later.textOf_ne_nil (List.cons_ne_nil _ _)
  cases isPiece
  have behind := @Piece.behindHtml (token.text ++ textOf (next :: rest))
    (by rwa [size, List.drop_left]) (kind.trans isHtml)
  rw [size, List.drop_left, textOf_cons] at behind
  rw [isHtml] at later
  obtain ⟨nextPiece, _, _, isNext, nextKind, nextSize, last⟩ := later.uncons more
  cases isNext
  rcases Piece.ofHtml_cases (next.text ++ textOf rest) with ⟨tag, found, isTag, long⟩ | ⟨none, _, _⟩
  · constructor
    · rw [← nextKind, isTag]
      rcases (openTagAt?_ends found).2.1 with isOpen | isOpen <;> rw [isOpen] <;> rfl
    · intro copy copies
      rw [openTagAt?_copied found (long.symm.trans nextSize) (last.textOf_ne_nil more)
        copies.feed]
      rfl
  · rw [none] at behind
    contradiction

theorem isWord_of_beginsName (lexes : Lexes .code memberName place input (token :: rest))
    (begins : BeginsName input) : token.kind.isWord = true := by
  cases lexes with
  | step _ next _ => exact (Piece.isWord_of_beginsName begins next).1

theorem head?_isDigit (lexes : Lexes .code memberName place input (token :: rest))
    (noNumber : token.kind ≠ .number) : token.text.head?.any Char.isDigit = false := by
  cases lexes with
  | @step _ _ _ _ piece _ nonempty next later =>
      cases input with
      | nil => contradiction
      | cons first input =>
          rw [Piece.head?_take, Option.any_some, Bool.eq_false_iff]
          exact fun digit => noNumber (Piece.number_of_isDigit digit next)

end Lexes

/-- Where a token can be copied to: what it needs of the text behind its copy. -/
structure Token.Copied (token : Token) (copy : Text) : Prop where
  noAttribute : token.kind ≠ .attributeStart
  unspoiled : token.kind = .question → token.text ≠ ['?', '>']
  comment : token.kind = .lineComment → EndsComment copy
  markup : token.kind = .inlineHtml → (openTagAt? copy).isSome = true

/-- A token is read again in front of a copy of what follows it. -/
theorem Lexes.next_copied {mode : LexMode} {memberName : Bool} {place : Place} {input copy : Text}
    {token : Token} {rest : List Token} (lexes : Lexes mode memberName place input (token :: rest))
    (more : rest ≠ []) (copies : Copies copy (textOf rest)) (copied : token.Copied copy) :
    ∃ piece, Piece.next mode memberName (token.text ++ copy) = .ok piece ∧
      piece.kind = token.kind ∧ piece.length = token.text.length := by
  obtain ⟨piece, _, _, next, kind, size, later⟩ := lexes.uncons more
  have nonempty := later.textOf_ne_nil more
  cases mode with
  | code =>
      refine ⟨piece, Piece.ofCode_copied next size copies ?_ ?_ ?_, kind, size⟩
      · exact kind ▸ copied.noAttribute
      · exact fun comment => copied.comment (kind ▸ comment)
      · exact fun question => copied.unspoiled (kind ▸ question)
  | html =>
      cases next
      refine ⟨_, rfl, ?_⟩
      rcases Piece.ofHtml_cases (token.text ++ textOf rest) with
        ⟨tag, found, isTag, long⟩ | ⟨_, isHtml, _⟩
      · have again := openTagAt?_copied found (long.symm.trans size) nonempty copies.feed
        rw [← kind, ← size, isTag, long]
        rcases Piece.ofHtml_cases (token.text ++ copy) with
          ⟨other, isOther, otherKind, otherLong⟩ | ⟨none, _, _⟩
        · cases again.symm.trans isOther
          exact ⟨otherKind, otherLong⟩
        · cases again.symm.trans none
      · rw [← kind, isHtml]
        exact Piece.ofHtml_copied isHtml size nonempty (copied.markup (kind ▸ isHtml))

theorem Reads.token {mode : LexMode} {memberName : Bool} {place : Place} {input copy : Text}
    {token : Token} {rest tokens : List Token}
    (lexes : Lexes mode memberName place input (token :: rest)) (more : rest ≠ [])
    (copies : Copies copy (textOf rest)) (copied : token.Copied copy)
    (later : Reads (mode.after token.kind) copy tokens) :
    Reads mode (token.text ++ copy) (codeOf [token] ++ tokens) := by
  obtain ⟨piece, next, kind, size⟩ := lexes.next_copied more copies copied
  rw [← kind] at later
  have whole := Reads.piece next size later
  rwa [codeOf_of_kind (.inl kind) _ _ token.line] at whole

end ConstructorInjection
