import Mathlib.Data.List.Basic
import Mathlib.Tactic.Common
import ConstructorInjection.Proofs.LegibleSeams
import ConstructorInjection.Proofs.NestingFaults

/-!
The same code with its blanks and comments cut in another way. A stream is read again from its text
if such tokens can be: what is put into a stream may bring blanks together, and a line comment takes
the carriage return of a line break that is put behind it.
-/

namespace ConstructorInjection

/-- Kinds and texts of the tokens that are neither blanks nor comments. -/
def significant (tokens : List Token) : List (TokenKind × Text) :=
  (tokens.filter (!·.isTrivia)).map fun token => (token.kind, token.text)

/-- The text of the stream is accepted, and as the same code. -/
def TokenStream.ReadsBack (stream : TokenStream) : Prop :=
  ∃ again, tokenize (ConstructorInjection.textOf stream) = .ok again ∧
    significant again = significant stream

/-- Each attribute is closed by the text behind its opener, so that it is not read as a comment. -/
def AttributesClose : List Token → Prop
  | [] => True
  | token :: rest =>
    (token.kind = .attributeStart → closesAttribute (textOf rest) = true) ∧ AttributesClose rest

instance decidableAttributesClose : (tokens : List Token) → Decidable (AttributesClose tokens)
  | [] => .isTrue trivial
  | token :: rest =>
    have := decidableAttributesClose rest
    inferInstanceAs (Decidable
      ((token.kind = .attributeStart → closesAttribute (textOf rest) = true) ∧
        AttributesClose rest))

section Significant

variable {left right : List Token}

theorem significant_append (left right : List Token) :
    significant (left ++ right) = significant left ++ significant right := by
  rw [significant, List.filter_append, List.map_append]
  rfl

theorem significant_of_blank {tokens : List Token} (blank : Blank tokens) :
    significant tokens = [] := by
  rw [significant, List.filter_eq_nil_iff.mpr fun token member => by simp [blank token member]]
  rfl

theorem head?_significant {blanks rest : List Token} {token : Token} (blank : Blank blanks)
    (code : token.isTrivia = false) :
    (significant (blanks ++ token :: rest)).head? = some (token.kind, token.text) := by
  rw [significant_append, significant_of_blank blank, List.nil_append, significant,
    List.filter_cons_of_pos (by simp [code])]
  rfl

theorem codeOf_eq_map (tokens : List Token) :
    codeOf tokens = (significant tokens).map fun (kind, text) => ⟨kind.bare, text, 0⟩ := by
  rw [significant, List.map_map]
  rfl

/-- Whether tokens are nested is up to their code. -/
theorem Nested.of_significant (nested : Nested left) (same : significant right = significant left) :
    Nested right := by
  rw [← nested_codeOf, codeOf_eq_map] at nested ⊢
  rwa [same]

theorem significant_of_spelled
    (same : left.map (fun token => (token.kind, token.text)) =
      right.map fun token => (token.kind, token.text)) : significant left = significant right := by
  have filtered (tokens : List Token) : significant tokens =
      (tokens.map fun token => (token.kind, token.text)).filter (!·.1.isTrivia) := by
    rw [significant, List.filter_map]
    rfl
  rw [filtered, filtered, same]

end Significant

/-- The same text with the same code in it, and with the same attributes. -/
structure Respaced (old new : List Token) : Prop where
  text : textOf new = textOf old
  code : significant new = significant old
  attributes : AttributesClose old → AttributesClose new

namespace Respaced

variable {old new between blanks others rest : List Token}

theorem refl (tokens : List Token) : Respaced tokens tokens :=
  ⟨rfl, rfl, id⟩

theorem trans (first : Respaced old between) (second : Respaced between new) : Respaced old new :=
  ⟨second.text.trans first.text, second.code.trans first.code, second.attributes ∘ first.attributes⟩

/-- The same tokens in front. -/
theorem behind (respaced : Respaced old new) (front : List Token) :
    Respaced (front ++ old) (front ++ new) := by
  have same (front : List Token) : textOf (front ++ new) = textOf (front ++ old) := by
    rw [textOf_append, textOf_append, respaced.text]
  refine ⟨same front, by rw [significant_append, significant_append, respaced.code],
    fun closed => ?_⟩
  induction front with
  | nil => exact respaced.attributes closed
  | cons token front ih =>
      obtain ⟨here, later⟩ := closed
      exact ⟨fun isStart => (congrArg closesAttribute (same front)).trans (here isStart), ih later⟩

theorem attributesClose_of_blank (blank : Blank blanks) :
    AttributesClose (blanks ++ rest) ↔ AttributesClose rest := by
  induction blanks with
  | nil => rfl
  | cons token blanks ih =>
      have trivia := blank token (by simp)
      have later := ih fun other member => blank other (List.mem_cons_of_mem _ member)
      refine ⟨fun closed => later.mp closed.2, fun closed => ⟨fun isStart => ?_, later.mpr closed⟩⟩
      exact absurd isStart (Token.plain_of_trivia trivia).1

/-- Blanks and comments of the same text. -/
theorem of_blank (blank : Blank blanks) (blankOthers : Blank others)
    (same : textOf others = textOf blanks) (rest : List Token) :
    Respaced (blanks ++ rest) (others ++ rest) := by
  refine ⟨by rw [textOf_append, textOf_append, same], ?_, fun closed => ?_⟩
  · rw [significant_append, significant_append, significant_of_blank blank,
      significant_of_blank blankOthers]
  · exact (attributesClose_of_blank blankOthers).mpr ((attributesClose_of_blank blank).mp closed)

end Respaced

section Blanks

variable {memberName : Bool} {source : Text} {tokens read blanks : List Token}

theorem Token.isRead_blanks {text rest : Text} (spaces : Spaces text) (nonempty : text ≠ [])
    (stop : rest.head?.any isLineSpace = false) (line : Nat) :
    Token.IsRead ⟨.whitespace, text, line⟩ .code memberName rest :=
  leads_blanks nonempty spaces stop

namespace Legible

/-- One more blank token in front. -/
theorem cons_blank {text : Text} (legible : Legible source .code memberName tokens)
    (spaces : Spaces text) (nonempty : text ≠ [])
    (stop : (textOf tokens ++ source).head?.any isLineSpace = false) (line : Nat) :
    Legible source .code memberName (⟨.whitespace, text, line⟩ :: tokens) :=
  .plain (by simp) (Token.isRead_blanks spaces nonempty stop line) legible

/-- Code that begins with a blank has a blank token first, with all the blanks there. -/
theorem exists_cons_blank (legible : Legible source .code memberName tokens)
    (space : (textOf tokens).head?.any isLineSpace = true) :
    ∃ first rest, tokens = first :: rest ∧ first.kind = .whitespace ∧ Spaces first.text ∧
      first.text = (textOf tokens).takeWhile isLineSpace ∧
      (textOf rest ++ source).head?.any isLineSpace = false ∧
      Legible source .code memberName rest := by
  cases tokens with
  | nil => contradiction
  | cons first rest =>
      have noAttribute : first.kind ≠ .attributeStart := by
        intro isStart
        rw [textOf_cons, legible.text_of_attributeStart isStart] at space
        contradiction
      have isRead := legible.isRead noAttribute
      have isBlank : first.kind = .whitespace := by
        refine isRead.whitespace ?_
        rwa [← List.append_assoc, ← textOf_cons, List.head?_append_of_ne_nil _
          (legible.textOf_ne_nil (List.cons_ne_nil _ _))]
      have spaces := isRead.spaces isBlank
      have stop := isRead.stop_of_whitespace isBlank
      have later := legible.tail
      rw [isBlank] at later
      refine ⟨first, rest, rfl, isBlank, spaces, ?_, stop, later⟩
      rw [textOf_cons, List.takeWhile_append_of_pos spaces]
      cases whole : textOf rest with
      | nil => rw [List.takeWhile_nil, List.append_nil]
      | cons next more =>
          rw [whole, List.cons_append, List.head?_cons, Option.any_some] at stop
          rw [List.takeWhile_cons_of_neg (by simp [stop]), List.append_nil]

/-- Blanks that are put in front of code are read as one, with the blanks that are there. -/
theorem exists_respaced_blanks (legible : Legible [] .code memberName tokens)
    (white : ∀ blank ∈ blanks, blank.kind = .whitespace) (spaces : Spaces (textOf blanks)) :
    ∃ read, Respaced (blanks ++ tokens) read ∧ Legible [] .code memberName read := by
  have blank : Blank blanks := fun token member => by rw [Token.isTrivia, white token member]; rfl
  by_cases none : textOf blanks = []
  · have nothing : Blank [] := by simp [Blank]
    exact ⟨tokens, .of_blank blank nothing none.symm tokens, legible⟩
  · have isBlank (text : Text) : Blank [⟨.whitespace, text, 0⟩] := by
      simp [Blank, Token.isTrivia, TokenKind.isTrivia]
    have single (text : Text) : textOf [⟨.whitespace, text, 0⟩] = text := List.append_nil text
    cases space : (textOf tokens).head?.any isLineSpace with
    | false =>
        refine ⟨_, .of_blank blank (isBlank (textOf blanks)) (single _) tokens,
          legible.cons_blank spaces none ?_ 0⟩
        rwa [List.append_nil]
    | true =>
        obtain ⟨first, rest, rfl, isFirst, spacesFirst, _, stop, later⟩ :=
          legible.exists_cons_blank space
        have blankBoth : Blank (blanks ++ [first]) := by
          intro token member
          rcases List.mem_append.mp member with inBlanks | isToken
          · exact blank token inBlanks
          · rw [List.mem_singleton.mp isToken, Token.isTrivia, isFirst]
            rfl
        have both := Respaced.of_blank blankBoth (isBlank (textOf blanks ++ first.text))
          (by rw [single, textOf_append, textOf_cons]; exact congrArg _ (List.append_nil _).symm) rest
        rw [List.append_assoc, List.singleton_append] at both
        exact ⟨_, both, later.cons_blank (spaces.append spacesFirst)
          (List.append_ne_nil_of_left_ne_nil none _) stop 0⟩

end Legible

end Blanks

section Returns

theorem lineCommentExtent_return {body source rest : Text}
    (extent : lineCommentExtent (body ++ source) = body.length) :
    lineCommentExtent (body ++ '\r' :: '\n' :: rest) = body.length + 1 := by
  induction body with
  | nil => rfl
  | cons first body ih =>
      rw [List.cons_append, lineCommentExtent.eq_def] at extent
      split at extent
      · contradiction
      · contradiction
      · contradiction
      next notFeed notTag cut =>
        obtain ⟨rfl, rfl⟩ := List.cons.inj cut
        rw [List.cons_append, lineCommentExtent, ih (Nat.succ.inj extent), List.length_cons]
        · rintro rfl
          exact notFeed rfl
        · intro more isMark tag
          cases body with
          | nil => cases tag
          | cons second body =>
              obtain ⟨rfl, _⟩ := List.cons.inj tag
              exact notTag _ isMark rfl

/-- The quote that a scan has to find, if it is inside a string. -/
def QuoteState.quote? : QuoteState → Option Char
  | outside => none
  | inside quote | escaped quote => some quote

/-- A carriage return at the end of a line neither opens nor closes anything. -/
theorem bracketsClose_return {state : QuoteState} (noReturn : state.quote? ≠ some '\r') (depth : Nat)
    (closed : Bool) (line : Text) :
    bracketsClose depth closed state (line ++ ['\r']) = bracketsClose depth closed state line := by
  induction line generalizing depth closed state with
  | nil =>
      cases state with
      | outside => simp [bracketsClose]
      | inside quote =>
          have other : '\r' ≠ quote := fun same => noReturn (by rw [same]; rfl)
          simp [bracketsClose, other]
      | escaped quote => simp [bracketsClose]
  | cons first line ih =>
      cases state with
      | outside =>
          rw [List.cons_append, bracketsClose, bracketsClose]
          split
          next isQuote => exact ih (by rcases isQuote with rfl | rfl <;> decide) _ _
          next =>
            split
            · exact ih noReturn _ _
            · split <;> exact ih noReturn _ _
      | inside quote =>
          rw [List.cons_append, bracketsClose, bracketsClose]
          split
          · exact ih (by exact noReturn) _ _
          · split
            · exact ih (by simp [QuoteState.quote?]) _ _
            · exact ih noReturn _ _
      | escaped quote =>
          rw [List.cons_append, bracketsClose, bracketsClose]
          exact ih (by exact noReturn) _ _

theorem LexicalRule.lexeme_of_lineComment : ∀ rule ∈ lexicalRules,
    rule.lexeme.gives .lineComment = true →
      rule.lexeme = .lineComment ∨ rule.lexeme = .attributeOrComment := by
  decide

namespace Piece

variable {memberName : Bool} {text source : Text} {found : LexicalMatch} {piece : Piece}

theorem ofMatch_return (rest : Text) {positive : 0 < found.length}
    (result : ofMatch memberName (text ++ source) found positive = .ok piece)
    (size : piece.length = text.length) (comment : piece.kind = .lineComment)
    (isOpener : found.lexeme = .lineComment ∨ found.lexeme = .attributeOrComment) :
    ∃ longer, ofMatch memberName (text ++ '\r' :: '\n' :: rest) found positive = .ok longer ∧
      longer.kind = .lineComment ∧ longer.length = text.length + 1 := by
  obtain ⟨lexeme, length⟩ := found
  obtain ⟨opener, body, rfl, rfl⟩ : ∃ opener body, text = opener ++ body ∧ opener.length = length :=
    ⟨text.take length, text.drop length, (List.take_append_drop _ _).symm,
      List.length_take_of_le (size ▸ length_ofMatch result)⟩
  unfold ofMatch at result ⊢
  simp only [List.append_assoc, List.drop_left, List.take_left, List.length_append] at result size ⊢
  rcases isOpener with rfl | rfl
  · cases result
    rw [Nat.add_left_cancel_iff] at size
    exact ⟨_, rfl, rfl, by simp only [lineCommentExtent_return size, Nat.add_assoc]⟩
  · simp only at result ⊢
    split at result
    next =>
      cases result
      contradiction
    next noAttribute =>
      cases result
      rw [Nat.add_left_cancel_iff] at size
      have longer := @lineCommentExtent_return _ _ rest size
      have line : (body ++ '\r' :: '\n' :: rest).take (body.length + 1) = body ++ ['\r'] := by
        rw [List.take_length_add_append]
        rfl
      have same : closesAttribute (body ++ '\r' :: '\n' :: rest) = closesAttribute (body ++ source) := by
        rw [closesAttribute, closesAttribute, longer, line, size, List.take_left,
          bracketsClose_return (by simp [QuoteState.quote?])]
      rw [same, if_neg noAttribute]
      exact ⟨_, rfl, rfl, by simp only [longer, Nat.add_assoc]⟩

/-- A line comment takes a carriage return that is put in front of its line feed. -/
theorem ofCode_return (rest : Text) (next : ofCode memberName (text ++ source) = .ok piece)
    (size : piece.length = text.length) (comment : piece.kind = .lineComment)
    (parted : longestMatch (text ++ '\r' :: '\n' :: rest) = longestMatch (text ++ source)) :
    ∃ longer, ofCode memberName (text ++ '\r' :: '\n' :: rest) = .ok longer ∧
      longer.kind = .lineComment ∧ longer.length = text.length + 1 := by
  obtain ⟨found, result, matched⟩ := ofCode_eq_ok next
  obtain ⟨rule, isRule, isLexeme, _⟩ := longestAmong_mem result
  obtain ⟨_, _, _, isKind⟩ := ofMatch_eq_ok matched
  have gives := rule.lexeme.gives_kind memberName
  rw [isLexeme] at gives
  have isOpener := LexicalRule.lexeme_of_lineComment rule isRule (by
    rw [isLexeme, ← comment, isKind]
    exact gives _ _)
  rw [isLexeme] at isOpener
  rw [ofCode_of_longestMatch (parted.trans result)]
  exact ofMatch_return rest matched size comment isOpener

end Piece

theorem Token.IsRead.withReturn {comment : Token} {memberName : Bool} {source : Text}
    (isRead : comment.IsRead .code memberName source) (isComment : comment.kind = .lineComment)
    (feed : source.head? = some '\n') (rest : Text) :
    Token.IsRead ⟨.lineComment, comment.text ++ ['\r'], comment.line⟩ .code memberName
      ('\n' :: rest) := by
  obtain ⟨first, others, text, begins, _⟩ :=
    isRead.text_of_comment (by rw [Token.isTrivia, isComment]; rfl) (by simp [isComment])
  have parted {behind : Text} (space : behind.head?.any isLineSpace = true) :
      Parted comment.text behind := by
    refine Parted.of_space space ⟨first, by simp [text], ?_⟩ ?_
    · rcases begins with rfl | rfl <;> rfl
    · rw [text, List.take_succ_cons]
      intro tag
      have isFirst := List.head_eq_of_cons_eq tag
      rcases begins with rfl | rfl <;> contradiction
  obtain ⟨piece, next, kind, size⟩ := isRead
  obtain ⟨longer, again, isLonger, length⟩ := Piece.ofCode_return rest next size
    (kind.trans isComment) ((parted rfl).trans (parted (by rw [feed]; rfl)).symm)
  refine ⟨longer, ?_, isLonger, by rw [length, List.length_append, List.length_singleton]⟩
  rw [List.append_assoc]
  exact again

variable {memberName : Bool} {source : Text} {tokens read : List Token}

/-- Blanks behind code without tags are read as they stand, except that a line comment takes a
carriage return that they begin with. -/
theorem Legible.exists_respaced_front (legible : Legible source .code memberName tokens)
    (tagless : Tagless tokens)
    (again : Legible [] .code (memberNameBehind memberName tokens) read)
    (space : (textOf read).head?.any isLineSpace = true)
    (content : ∀ last ∈ tokens.getLast?, last.kind ≠ .whitespace ∧ (last.kind = .lineComment →
      source.head? = some '\n' ∧
        ((textOf read).head? = some '\n' ∨ ∃ rest, textOf read = '\r' :: '\n' :: rest))) :
    ∃ other, Respaced (tokens ++ read) other ∧ Legible [] .code memberName other := by
  by_cases ends : ∀ last ∈ tokens.getLast?, last.kind = .lineComment → EndsComment (textOf read)
  · refine ⟨tokens ++ read, .refl _, append_iff.mpr ⟨?_, ?_⟩⟩
    · rw [List.append_nil]
      exact legible.front_of_space tagless space fun last isLast =>
        ⟨(content last isLast).1, ends last isLast⟩
    · rwa [legible.modeBehind_of_tagless tagless]
  · simp only [not_forall] at ends
    obtain ⟨comment, isLast, isComment, noFeed⟩ := ends
    obtain ⟨feed, begins⟩ := (content comment isLast).2 isComment
    obtain ⟨rest, text⟩ := begins.resolve_left fun feed => noFeed (.inl feed)
    obtain ⟨front, rfl⟩ := List.getLast?_eq_some_iff.mp isLast
    obtain ⟨first, others, rfl, isFirst, spaces, isText, stop, later⟩ :=
      again.exists_cons_blank space
    obtain ⟨more, isMore⟩ : ∃ more, first.text = '\r' :: '\n' :: more := by
      rw [isText, text]
      exact ⟨rest.takeWhile isLineSpace, rfl⟩
    have memory : memberNameBehind memberName (front ++ [comment]) =
        memberNameBehind memberName front := by
      rw [memberNameBehind, List.foldl_concat, memberNameAfter, isComment]
      rfl
    rw [memory] at later
    have spacesMore : Spaces ('\n' :: more) := fun character member => by
      refine spaces character ?_
      rw [isMore]
      exact List.mem_cons_of_mem _ member
    have behind := later.cons_blank spacesMore (List.cons_ne_nil _ _) stop first.line
    have noAttribute : comment.kind ≠ .attributeStart := by simp [isComment]
    have isRead := legible.isRead_of_tagless tagless noAttribute
    have isLonger := isRead.withReturn isComment feed (more ++ textOf others)
    have whole : Legible [] .code (memberNameBehind memberName front)
        (⟨.lineComment, comment.text ++ ['\r'], comment.line⟩ ::
          ⟨.whitespace, '\n' :: more, first.line⟩ :: others) := by
      refine .plain (by simp) ?_ behind
      rw [List.append_nil]
      exact isLonger
    have taglessFront : Tagless front := fun token member => tagless token (by simp [member])
    have legibleFront := (append_iff.mp legible).1
    refine ⟨front ++ ⟨.lineComment, comment.text ++ ['\r'], comment.line⟩ ::
      ⟨.whitespace, '\n' :: more, first.line⟩ :: others, ?_, append_iff.mpr ⟨?_, ?_⟩⟩
    · have blankOld : Blank [comment, first] := by
        simp [Blank, Token.isTrivia, isComment, isFirst, TokenKind.isTrivia]
      have blankNew : Blank [⟨.lineComment, comment.text ++ ['\r'], comment.line⟩,
          ⟨.whitespace, '\n' :: more, first.line⟩] := by
        simp [Blank, Token.isTrivia, TokenKind.isTrivia]
      rw [List.append_assoc]
      exact (Respaced.of_blank blankOld blankNew (by simp [textOf, isMore]) others).behind front
    · obtain ⟨character, rest, isText, begins, _⟩ :=
        isRead.text_of_comment (by rw [Token.isTrivia, isComment]; rfl) (by simp [isComment])
      have copied : textOf (⟨.lineComment, comment.text ++ ['\r'], comment.line⟩ ::
          ⟨.whitespace, '\n' :: more, first.line⟩ :: others) ++ [] =
            comment.text ++ ('\r' :: '\n' :: (more ++ textOf others)) := by
        simp [textOf]
      rw [copied]
      refine legible.front_of_common tagless (by simp [isComment]) (by rw [feed]; rfl) rfl ?_ ?_
      · rw [isText, List.cons_append]
        rintro (isFeed | isTag)
        · rw [List.head?_cons, Option.some.injEq] at isFeed
          rcases begins with rfl | rfl <;> contradiction
        · rw [List.take_succ_cons] at isTag
          have isMark := List.head_eq_of_cons_eq isTag
          rcases begins with rfl | rfl <;> contradiction
      · rw [isText, List.cons_append, List.head?_cons, Option.any_some]
        rcases begins with rfl | rfl <;> rfl
    · rw [legibleFront.modeBehind_of_tagless taglessFront]
      exact whole

end Returns

section Reading

variable {mode : LexMode} {memberName : Bool} {tokens : List Token}

theorem Piece.ofCode_attributeStart (memberName : Bool) {rest : Text}
    (closes : closesAttribute rest = true) :
    ∃ piece, Piece.ofCode memberName ('#' :: '[' :: rest) = .ok piece ∧
      piece.kind = .attributeStart ∧ piece.length = 2 := by
  have kept : lexicalRules.filter (·.pattern.opensWith '#') =
      [⟨.spelling ['#'], .lineComment⟩, ⟨.spelling ['#', '['], .attributeOrComment⟩] := rfl
  have result : longestMatch ('#' :: '[' :: rest) = some ⟨.attributeOrComment, 2⟩ := by
    rw [longestMatch_cons kept]
    rfl
  have drop : ('#' :: '[' :: rest).drop 2 = rest := rfl
  refine ⟨⟨.attributeStart, 2, Nat.two_pos⟩, ?_, rfl, rfl⟩
  rw [Piece.ofCode_of_longestMatch result, Piece.ofMatch]
  simp only [drop, closes, if_true]

/-- Legible tokens whose attributes are closed are what the lexer makes of their text. -/
theorem Legible.exists_lexes (legible : Legible [] mode memberName tokens)
    (closed : AttributesClose tokens) (place : Place) :
    ∃ lexed, Lexes mode memberName place (textOf tokens) lexed ∧
      lexed.map (fun token => (token.kind, token.text)) =
        tokens.map fun token => (token.kind, token.text) := by
  have step {mode : LexMode} {memberName : Bool} {token : Token} {rest lexed : List Token}
      {place : Place} (isRead : token.IsRead mode memberName (textOf rest))
      (later : Lexes (mode.after token.kind) (memberNameAfter memberName token.kind token.text)
        (place.after token.text) (textOf rest) lexed) :
      Lexes mode memberName place (textOf (token :: rest))
        (⟨token.kind, token.text, place.line⟩ :: lexed) := by
    have nonempty := isRead.text_ne_nil
    obtain ⟨piece, next, kind, size⟩ := isRead
    have front : (token.text ++ textOf rest).take piece.length = token.text := by
      rw [size, List.take_left]
    have back : (token.text ++ textOf rest).drop piece.length = textOf rest := by
      rw [size, List.drop_left]
    have isStep := @Lexes.step mode memberName place (token.text ++ textOf rest) piece lexed
      (List.append_ne_nil_of_left_ne_nil nonempty _) next (by rw [front, back, kind]; exact later)
    rwa [front, kind] at isStep
  induction legible generalizing place with
  | nil => exact ⟨[], .done, rfl⟩
  | @plain _ _ token rest noAttribute isRead _ ih =>
      obtain ⟨lexed, later, same⟩ := ih closed.2 (place.after token.text)
      rw [List.append_nil] at isRead
      exact ⟨_, step isRead later, by rw [List.map_cons, List.map_cons, same]⟩
  | @opener memberName token rest isStart text _ ih =>
      obtain ⟨lexed, later, same⟩ := ih closed.2 (place.after token.text)
      obtain ⟨piece, next, kind, size⟩ :=
        Piece.ofCode_attributeStart memberName (closed.1 isStart)
      have isRead : token.IsRead .code memberName (textOf rest) :=
        ⟨piece, by rw [text]; exact next, kind.trans isStart.symm, by rw [size, text]; rfl⟩
      exact ⟨_, step isRead later, by rw [List.map_cons, List.map_cons, same]⟩

/-- A stream is read back from its text if it is so with blanks and comments cut in another way. -/
theorem TokenStream.readsBack_of_legible {stream : TokenStream} {read : List Token}
    (legible : Legible [] .html false read) (respaced : Respaced stream read)
    (closed : AttributesClose stream) (nested : Nested stream) : stream.ReadsBack := by
  obtain ⟨lexed, lexes, same⟩ := legible.exists_lexes (respaced.attributes closed) Place.start
  rw [respaced.text] at lexes
  have code : significant lexed = significant stream :=
    (significant_of_spelled same).trans respaced.code
  refine ⟨lexed, ?_, code⟩
  exact ((tokenize_nesting (lexFrom_eq_ok_iff.mpr lexes)).2.1 lexed).mpr
    ⟨rfl, nested.of_significant code⟩

end Reading

end ConstructorInjection
