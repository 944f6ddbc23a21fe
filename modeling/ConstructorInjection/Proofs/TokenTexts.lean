import Mathlib.Data.List.Basic
import Mathlib.Tactic.Common
import ConstructorInjection.Proofs.FirstPiece
import ConstructorInjection.Proofs.Lexing

/-!
The characters at the two ends of a token. Only blanks and HTML begin with a blank or a line break,
and before a line feed only blanks, comments and HTML end in a carriage return.
-/

namespace ConstructorInjection

/-- Neither blanks nor line breaks. -/
def Solid (text : Text) : Prop :=
  ∀ character ∈ text, isLineSpace character = false

namespace Solid

theorem nil : Solid [] := by
  simp [Solid]

theorem cons {first : Char} {rest : Text} (solid : isLineSpace first = false) (later : Solid rest) :
    Solid (first :: rest) :=
  List.forall_mem_cons.mpr ⟨solid, later⟩

theorem append {left right : Text} (first : Solid left) (second : Solid right) :
    Solid (left ++ right) :=
  List.forall_mem_append.mpr ⟨first, second⟩

theorem of_all {text : Text} {test : Char → Bool} (all : ∀ character ∈ text, test character = true)
    (solid : ∀ character, test character = true → isLineSpace character = false) : Solid text :=
  fun character member => solid character (all character member)

theorem takeWhile {text : Text} {test : Char → Bool}
    (solid : ∀ character, test character = true → isLineSpace character = false) :
    Solid (text.take (text.takeWhile test).length) := by
  rw [← List.prefix_iff_eq_take.mp (List.takeWhile_prefix test)]
  exact of_all (List.all_eq_true.mp List.all_takeWhile) solid

theorem take_add {text : Text} {first second : Nat} (near : Solid (text.take first))
    (further : Solid ((text.drop first).take second)) : Solid (text.take (first + second)) := by
  rw [List.take_add]
  exact near.append further

theorem take_cons {first : Char} {rest : Text} {length : Nat} (solid : isLineSpace first = false)
    (later : Solid (rest.take length)) : Solid ((first :: rest).take (length + 1)) := by
  rw [List.take_succ_cons]
  exact cons solid later

end Solid

theorem isLineSpace_eq_false_of_isLabelPart {character : Char}
    (part : isLabelPart character = true) : isLineSpace character = false := by
  rw [Bool.eq_false_iff]
  intro space
  simp only [isLineSpace, isBlank, Bool.or_eq_true, beq_iff_eq] at space
  rcases space with ((rfl | rfl) | rfl) | rfl <;> exact absurd part (by decide)

theorem isLineSpace_eq_false_of_isDigitOrUnderscore {character : Char}
    (digit : isDigitOrUnderscore character = true) : isLineSpace character = false := by
  apply isLineSpace_eq_false_of_isLabelPart
  simp only [isDigitOrUnderscore, isLabelPart, isLabelStart, Bool.or_eq_true, beq_iff_eq] at digit ⊢
  tauto

theorem Radix.isLineSpace_eq_false {radix : Radix} {character : Char}
    (digit : radix.isDigit character = true) : isLineSpace character = false := by
  rw [Bool.eq_false_iff]
  intro space
  simp only [isLineSpace, isBlank, Bool.or_eq_true, beq_iff_eq] at space
  cases radix <;> rcases space with ((rfl | rfl) | rfl) | rfl <;> exact absurd digit (by decide)

theorem Radix.isLineSpace_marker {radix : Radix} {character : Char}
    (marker : radix.isMarker character = true) : isLineSpace character = false := by
  rw [Bool.eq_false_iff]
  intro space
  simp only [isLineSpace, isBlank, Bool.or_eq_true, beq_iff_eq] at space
  cases radix <;> rcases space with ((rfl | rfl) | rfl) | rfl <;> exact absurd marker (by decide)

theorem solid_label (text : Text) : Solid (text.take (labelLength text)) := by
  cases text with
  | nil => exact Solid.nil
  | cons first rest =>
      rw [labelLength]
      split
      next start =>
        exact Solid.take_cons
          (isLineSpace_eq_false_of_isLabelPart (by rw [isLabelPart, start, Bool.true_or]))
          (Solid.takeWhile fun _ => isLineSpace_eq_false_of_isLabelPart)
      next => exact Solid.nil

theorem solid_segments (text : Text) : Solid (text.take (segmentsLength text)) := by
  fun_induction segmentsLength text with
  | case1 => exact Solid.nil
  | case2 rest label named ih =>
      rw [Nat.add_comm label 1, Nat.add_assoc, Nat.add_comm 1]
      exact Solid.take_cons (by decide) (Solid.take_add (solid_label rest) ih)
  | case3 => exact Solid.nil

theorem solid_digits (text : Text) :
    Solid (text.take (text.takeWhile isDigitOrUnderscore).length) :=
  Solid.takeWhile fun _ => isLineSpace_eq_false_of_isDigitOrUnderscore

/-- What follows the marker of an exponent is a sign or none, and digits. -/
theorem solid_exponentDigits {marker : Char} {rest : Text} {sign : Nat}
    (solidMarker : isLineSpace marker = false) (solidSign : Solid (rest.take sign)) :
    Solid ((marker :: rest).take
      (if ((rest.drop sign).takeWhile isDigitOrUnderscore).length = 0 then 0
        else ((rest.drop sign).takeWhile isDigitOrUnderscore).length + sign + 1)) := by
  split
  · exact Solid.nil
  · rw [Nat.add_comm _ sign]
    exact Solid.take_cons solidMarker (Solid.take_add solidSign (solid_digits _))

theorem solid_exponent (text : Text) : Solid (text.take (exponentLength text)) := by
  have solidPlus (rest : Text) : Solid (('+' :: rest).take 1) :=
    Solid.take_cons (by decide) Solid.nil
  have solidMinus (rest : Text) : Solid (('-' :: rest).take 1) :=
    Solid.take_cons (by decide) Solid.nil
  unfold exponentLength
  split
  next rest =>
    split
    · exact solid_exponentDigits (by decide) (solidPlus _)
    · exact solid_exponentDigits (by decide) (solidMinus _)
    · exact solid_exponentDigits (by decide) Solid.nil
  next rest =>
    split
    · exact solid_exponentDigits (by decide) (solidPlus _)
    · exact solid_exponentDigits (by decide) (solidMinus _)
    · exact solid_exponentDigits (by decide) Solid.nil
  next => exact Solid.nil

/-- The patterns that take no blanks and no line breaks. -/
def Pattern.isSolid : Pattern → Bool
  | spelling characters => characters.all (!isLineSpace ·)
  | blanks | closeTag => false
  | _ => true

theorem Pattern.solid_matchLength {pattern : Pattern} (isSolid : pattern.isSolid = true)
    (input : Text) : Solid (input.take (pattern.matchLength input)) := by
  fun_cases Pattern.matchLength pattern input
  case case1 characters starts =>
    obtain ⟨rest, rfl⟩ := List.isPrefixOf_iff_prefix.mp starts
    rw [List.take_left]
    intro character member
    simpa using List.all_eq_true.mp isSolid character member
  case case3 | case19 | case20 | case21 | case22 | case23 => contradiction
  case case5 rest _ => exact Solid.take_cons (by decide) (solid_label rest)
  case case7 rest => exact solid_segments ('\\' :: rest)
  case case9 => exact Solid.take_add (solid_label input) (solid_segments _)
  case case10 radix marker rest digits found =>
    rw [Bool.and_eq_true] at found
    exact Solid.take_cons (by decide) (Solid.take_cons (Radix.isLineSpace_marker found.1)
      (Solid.takeWhile fun _ => Radix.isLineSpace_eq_false))
  case case14 first rest digit whole point =>
    have solidDigit : isLineSpace first = false := isLineSpace_eq_false_of_isDigitOrUnderscore
      (by rw [isDigitOrUnderscore, digit, Bool.true_or])
    have solidPoint : Solid (((first :: rest).drop whole).take point) := by
      simp only [point]
      split
      next decimals behindWhole =>
        rw [behindWhole]
        exact Solid.take_cons (by decide) (solid_digits decimals)
      next => exact Solid.nil
    exact Solid.take_add (Solid.take_add (Solid.take_cons solidDigit (solid_digits rest)) solidPoint)
      (solid_exponent _)
  case case16 first rest digit digits =>
    have solidDigit : isLineSpace first = false := isLineSpace_eq_false_of_isDigitOrUnderscore
      (by rw [isDigitOrUnderscore, digit, Bool.true_or])
    rw [Nat.add_right_comm]
    exact Solid.take_cons (by decide) (Solid.take_cons solidDigit
      (Solid.take_add (solid_digits rest) (solid_exponent _)))
  case case25 => exact Solid.take_cons (by decide) (Solid.take_cons (by decide) Solid.nil)
  all_goals exact Solid.nil

def Pattern.isTag : Pattern → Bool
  | closeTag => true
  | _ => false

theorem Pattern.isTag_ends {pattern : Pattern} (isTag : pattern.isTag = true) (input : Text) :
    (input.take (pattern.matchLength input)).getLast? ≠ some '\r' := by
  fun_cases Pattern.matchLength pattern input
  case case19 | case20 | case21 | case22 | case23 => simp
  all_goals contradiction

def Lexeme.quote? : Lexeme → Option Char
  | .quoted quote => some quote
  | _ => none

/-- Only blanks and close tags take line breaks into a whole token, and no quote is a blank. -/
theorem isSolid_of_wholeKind? : ∀ rule ∈ lexicalRules,
    rule.lexeme.wholeKind? ≠ some .inlineHtml ∧ rule.lexeme.quote? ≠ some '\r' ∧
      (rule.pattern.isSolid = true ∨ rule.lexeme.wholeKind? = some .whitespace ∨
        (rule.pattern.isTag = true ∧ rule.lexeme.wholeKind? = some .closeTag)) := by
  have checked : lexicalRules.all (fun rule => rule.lexeme.wholeKind? != some .inlineHtml &&
      (rule.lexeme.quote? != some '\r' &&
        (rule.pattern.isSolid || (rule.lexeme.wholeKind? == some .whitespace ||
          (rule.pattern.isTag && rule.lexeme.wholeKind? == some .closeTag))))) = true := by
    decide
  intro rule member
  have accepted := List.all_eq_true.mp checked rule member
  simpa only [Bool.or_eq_true, Bool.and_eq_true, bne_iff_ne, beq_iff_eq] using accepted

/-- A string ends with its quote. -/
theorem quotedExtent_ends {quote : Char} {text : Text} {extent : Nat}
    (result : quotedExtent quote text = some extent) :
    (text.take extent).getLast? = some quote := by
  fun_induction quotedExtent quote text generalizing extent with
  | case1 | case2 => contradiction
  | case3 escaped rest ih =>
      obtain ⟨inner, found, rfl⟩ := Option.map_eq_some_iff.mp result
      rw [List.take_succ_cons, List.take_succ_cons, List.getLast?_cons, List.getLast?_cons, ih found]
      rfl
  | case4 first rest =>
      cases result
      simp
  | case5 first rest _ _ _ ih =>
      obtain ⟨inner, found, rfl⟩ := Option.map_eq_some_iff.mp result
      rw [List.take_succ_cons, List.getLast?_cons, ih found]
      rfl

/-- A heredoc ends with its label. -/
theorem heredocBodyExtent_ends {label text : Text} {atLineStart : Bool} {extent : Nat} {last : Char}
    (ends : label.getLast? = some last)
    (result : heredocBodyExtent label atLineStart text = some extent) :
    (text.take extent).getLast? = some last := by
  induction text generalizing atLineStart extent with
  | nil => contradiction
  | cons first rest ih =>
      rw [heredocBodyExtent] at result
      split at result
      next length closing =>
        cases result
        split at closing
        case isFalse => contradiction
        unfold closingLabelLength? at closing
        extract_lets blanks at closing
        split at closing
        next behind starts =>
          split at closing
          next => contradiction
          next =>
            cases closing
            rw [Text.dropStart?] at starts
            split at starts
            next isPrefix =>
              obtain ⟨more, cut⟩ := List.isPrefixOf_iff_prefix.mp isPrefix
              rw [List.take_add, ← cut, List.take_left, List.getLast?_append, ends]
              rfl
            next => contradiction
        next => contradiction
      next =>
        obtain ⟨inner, found, rfl⟩ := Option.map_eq_some_iff.mp result
        rw [List.take_succ_cons, List.getLast?_cons, ih found]
        rfl

theorem heredocExtent_ends {rest : Text} {extent : Nat}
    (result : heredocExtent rest = .closed extent) :
    ∃ last, (rest.take extent).getLast? = some last ∧ isLineSpace last = false := by
  unfold heredocExtent at result
  extract_lets blanks afterBlanks quote label at result
  split at result
  · contradiction
  · contradiction
  next afterOpener opened nonempty =>
    extract_lets lineBreak at result
    split at result
    next => contradiction
    next =>
      split at result
      next body closed =>
        cases result
        have ends := List.getLast?_eq_some_getLast nonempty
        refine ⟨label.getLast nonempty, ?_, solid_label _ _ (List.getLast_mem nonempty)⟩
        have behind : rest.drop (blanks + 2 * quote.length + label.length + lineBreak) =
            afterOpener.drop lineBreak := by
          rw [Text.dropStart?] at opened
          split at opened
          next =>
            cases opened
            simp only [afterBlanks, List.drop_drop]
            congr 1
            omega
          next => contradiction
        rw [List.take_add, List.getLast?_append, behind, heredocBodyExtent_ends ends closed]
        rfl
      next => contradiction

theorem nameKind_isName (memberName : Bool) (text : Text) :
    (nameKind memberName text).isName = true ∨ nameKind memberName text = .keyword := by
  rw [nameKind]
  split
  · exact .inl rfl
  · split
    · exact .inr rfl
    · exact .inl rfl

theorem isTrivia_blockCommentKind (text : Text) : (blockCommentKind text).isTrivia = true := by
  unfold blockCommentKind
  split
  · split <;> rfl
  · rfl

/-- What the text of a token that is read in code is like, or what it ends in. -/
inductive CodeText (kind : TokenKind) (text : Text) : Prop where
  | trivia (isTrivia : kind.isTrivia = true)
  | solid (solid : Solid text) (noHtml : kind ≠ .inlineHtml)
  | ends (noReturn : text.getLast? ≠ some '\r')
      (kinds : kind = .closeTag ∨ kind = .stringLiteral ∨ kind = .heredoc)

theorem Piece.codeText {memberName : Bool} {input : Text} {piece : Piece}
    (next : Piece.ofCode memberName input = .ok piece) :
    CodeText piece.kind (input.take piece.length) := by
  obtain ⟨found, result, built⟩ := Piece.ofCode_eq_ok next
  obtain ⟨rule, member, lexeme, length⟩ := longestAmong_mem result
  obtain ⟨noHtml, noQuote, known⟩ := isSolid_of_wholeKind? rule member
  rw [lexeme] at noHtml noQuote known
  have solid (isSolid : rule.pattern.isSolid = true) : Solid (input.take found.length) := by
    rw [← length]
    exact Pattern.solid_matchLength isSolid input
  unfold Piece.ofMatch at built
  extract_lets rest at built
  split at built
  next kind isWhole =>
    cases built
    rw [isWhole] at known noHtml
    rcases known with isSolid | blank | ⟨isTag, tag⟩
    · exact .solid (solid isSolid) fun isHtml => noHtml (congrArg some isHtml)
    · cases blank
      exact .trivia rfl
    · cases tag
      have ends := Pattern.isTag_ends isTag input
      rw [length] at ends
      exact .ends ends (.inl rfl)
  next isName =>
    cases built
    rw [isName] at known
    refine .solid (solid (by simpa [Lexeme.wholeKind?] using known)) fun isHtml => ?_
    have word := nameKind_isName memberName (input.take found.length)
    simp only at isHtml
    rw [isHtml] at word
    revert word
    decide
  next =>
    cases built
    exact .trivia rfl
  next isAttribute =>
    split at built <;> cases built
    · rw [isAttribute] at known
      exact .solid (solid (by simpa [Lexeme.wholeKind?] using known)) fun isHtml => by cases isHtml
    · exact .trivia rfl
  next =>
    split at built <;> cases built
    exact .trivia (isTrivia_blockCommentKind _)
  next quote isQuoted =>
    split at built <;> cases built
    next extent closed =>
      refine .ends ?_ (.inr (.inl rfl))
      rw [isQuoted, Lexeme.quote?] at noQuote
      rw [List.take_add, List.getLast?_append, quotedExtent_ends closed]
      exact noQuote
  next isHeredoc =>
    split at built <;> cases built
    next extent closed =>
      obtain ⟨last, ends, solidLast⟩ := heredocExtent_ends closed
      refine .ends ?_ (.inr (.inr rfl))
      rw [List.take_add, List.getLast?_append, ends]
      rintro ⟨⟩
      contradiction

theorem Piece.whitespace_of_isLineSpace {memberName : Bool} {first : Char} {rest : Text}
    {piece : Piece} (space : isLineSpace first = true)
    (next : Piece.ofCode memberName (first :: rest) = .ok piece) : piece.kind = .whitespace := by
  obtain ⟨found, result, built⟩ := Piece.ofCode_eq_ok next
  rw [longestMatch_cons (filter_rules_of_isLineSpace space)] at result
  obtain ⟨rule, member, lexeme, _⟩ := longestAmong_mem result
  rw [List.mem_singleton.mp member] at lexeme
  unfold Piece.ofMatch at built
  simp only [← lexeme] at built
  cases built
  rfl

/-- An open tag begins with no line break and, unless it takes it along, no line feed follows its
carriage return. -/
theorem openTagAt?_ends {input : Text} {tag : OpenTag} (found : openTagAt? input = some tag) :
    input.head? = some '<' ∧ (tag.kind = .openTag ∨ tag.kind = .openTagWithEcho) ∧
      ((input.take tag.length).getLast? = some '\r' → (input.drop tag.length).head? ≠ some '\n') := by
  unfold openTagAt? at found
  split at found
  next =>
    cases found
    exact ⟨rfl, .inr rfl, by simp⟩
  next =>
    split at found
    next =>
      split at found
      · cases found
        exact ⟨rfl, .inl rfl, by simp⟩
      · cases found
        exact ⟨rfl, .inl rfl, by simp⟩
      · cases found
        exact ⟨rfl, .inl rfl, by simp⟩
      · cases found
        exact ⟨rfl, .inl rfl, by simp⟩
      · cases found
        exact ⟨rfl, .inl rfl, by simp⟩
      next tail noFeed =>
        cases found
        refine ⟨rfl, .inl rfl, fun _ => ?_⟩
        cases tail with
        | nil => simp
        | cons next behind =>
            simp only [List.drop_succ_cons, List.drop_zero, List.head?_cons, ne_eq,
              Option.some.injEq]
            rintro rfl
            exact noFeed behind rfl
      · contradiction
    next => contradiction
  next => contradiction

/-- HTML goes on up to an open tag. -/
theorem openTagAt?_htmlExtent (text : Text) :
    text.drop (htmlExtent text) = [] ∨ (openTagAt? (text.drop (htmlExtent text))).isSome = true := by
  induction text with
  | nil => exact .inl rfl
  | cons first rest ih =>
      rw [htmlExtent]
      split
      next tag => exact .inr tag
      next => exact ih

theorem Piece.ofHtml_cases (input : Text) :
    (∃ tag, openTagAt? input = some tag ∧ (Piece.ofHtml input).kind = tag.kind ∧
        (Piece.ofHtml input).length = tag.length) ∨
      (openTagAt? input = none ∧ (Piece.ofHtml input).kind = .inlineHtml ∧
        (Piece.ofHtml input).length = htmlExtent (input.drop 1) + 1) := by
  rw [Piece.ofHtml]
  split
  next tag found => exact .inl ⟨tag, found, rfl, rfl⟩
  next none => exact .inr ⟨none, rfl, rfl⟩

/-- The tags and what is outside of them. -/
def TokenKind.isMarkup : TokenKind → Bool
  | inlineHtml | openTag | openTagWithEcho | closeTag => true
  | _ => false

theorem Piece.isMarkup_ofHtml (input : Text) : (Piece.ofHtml input).kind.isMarkup = true := by
  rcases Piece.ofHtml_cases input with ⟨tag, found, kind, _⟩ | ⟨_, kind, _⟩
  · rw [kind]
    rcases (openTagAt?_ends found).2.1 with isTag | isTag <;> rw [isTag] <;> rfl
  · rw [kind]
    rfl

/-- What is no tag and no HTML is read as code. -/
theorem Piece.mode_of_isMarkup {mode : LexMode} {memberName : Bool} {input : Text} {piece : Piece}
    (next : Piece.next mode memberName input = .ok piece) (isCode : piece.kind.isMarkup = false) :
    mode = .code := by
  cases mode with
  | code => rfl
  | html =>
      cases next
      rw [Piece.isMarkup_ofHtml] at isCode
      contradiction

theorem Piece.openTagAt?_of_html {input : Text} (isHtml : (Piece.ofHtml input).kind = .inlineHtml) :
    openTagAt? input = none ∧ (Piece.ofHtml input).length = htmlExtent (input.drop 1) + 1 := by
  rcases Piece.ofHtml_cases input with ⟨tag, found, kind, _⟩ | ⟨none, _, length⟩
  · rw [isHtml] at kind
    rcases (openTagAt?_ends found).2.1 with other | other <;> rw [other] at kind <;> contradiction
  · exact ⟨none, length⟩

/-- What the text of every token is like. -/
structure Token.WellSpelled (token : Token) : Prop where
  nonempty : token.text ≠ []
  first : token.kind ≠ .whitespace → token.kind ≠ .inlineHtml →
    token.text.head?.any isLineSpace = false
  delimiter : token.kind.isOpener = true ∨ token.kind.isCloser = true → Solid token.text

/-- How tokens follow one another. HTML comes behind a close tag, and a line feed behind a carriage
return only where a comment ends. -/
structure Token.Meets (token next : Token) : Prop where
  feed : next.text.head? = some '\n' → token.isTrivia = true ∨ token.text.getLast? ≠ some '\r'
  html : next.kind = .inlineHtml → token.kind = .closeTag

theorem TokenKind.delimits_eq_false {kind : TokenKind}
    (other : kind.isTrivia = true ∨ kind = .inlineHtml ∨ kind = .openTag ∨
      kind = .openTagWithEcho ∨ kind = .closeTag ∨ kind = .stringLiteral ∨ kind = .heredoc) :
    ¬ (kind.isOpener = true ∨ kind.isCloser = true) := by
  revert other
  cases kind <;> decide

theorem Piece.head?_take {first : Char} {rest : Text} (piece : Piece) :
    ((first :: rest).take piece.length).head? = some first := by
  obtain ⟨length, same⟩ := Nat.exists_eq_add_of_le' piece.length_pos
  rw [same]
  rfl

theorem Piece.wellSpelled {mode : LexMode} {memberName : Bool} {input : Text} {piece : Piece}
    (next : Piece.next mode memberName input = .ok piece) (nonempty : input ≠ []) (line : Nat) :
    Token.WellSpelled ⟨piece.kind, input.take piece.length, line⟩ := by
  obtain ⟨first, rest, rfl⟩ := List.exists_cons_of_ne_nil nonempty
  have head := @Piece.head?_take first rest piece
  have filled : (first :: rest).take piece.length ≠ [] := List.ne_nil_of_mem (List.mem_of_mem_head? head)
  cases mode with
  | html =>
      cases next
      rcases Piece.ofHtml_cases (first :: rest) with ⟨tag, found, kind, _⟩ | ⟨_, kind, _⟩
      · obtain ⟨opens, kinds, _⟩ := openTagAt?_ends found
        cases opens
        refine ⟨filled, fun _ _ => by simp only [head]; rfl, fun delimits => ?_⟩
        rw [← kind] at kinds
        exact absurd delimits (TokenKind.delimits_eq_false (by tauto))
      · refine ⟨filled, fun _ noHtml => absurd kind noHtml, fun delimits => ?_⟩
        exact absurd delimits (TokenKind.delimits_eq_false (.inr (.inl kind)))
  | code =>
      refine ⟨filled, fun content _ => ?_, fun delimits => ?_⟩
      · simp only [head]
        rw [Option.any_some, Bool.eq_false_iff]
        exact fun space => content (Piece.whitespace_of_isLineSpace space next)
      · cases Piece.codeText next with
        | trivia isTrivia => exact absurd delimits (TokenKind.delimits_eq_false (.inl isTrivia))
        | solid solid => exact solid
        | ends _ kinds => exact absurd delimits (TokenKind.delimits_eq_false (by tauto))

/-- Behind HTML comes nothing or an open tag. -/
theorem Piece.behindHtml {input : Text} (nonempty : input.drop (Piece.ofHtml input).length ≠ [])
    (isHtml : (Piece.ofHtml input).kind = .inlineHtml) :
    (openTagAt? (input.drop (Piece.ofHtml input).length)).isSome = true := by
  have behind := openTagAt?_htmlExtent (input.drop 1)
  rw [List.drop_drop, Nat.add_comm 1, ← (Piece.openTagAt?_of_html isHtml).2] at behind
  exact behind.resolve_left nonempty

/-- The text of a token leaves no line feed behind its carriage return, but for blanks and
comments. -/
theorem Piece.feed {mode : LexMode} {memberName : Bool} {input : Text} {piece : Piece}
    (next : Piece.next mode memberName input = .ok piece)
    (feed : (input.drop piece.length).head? = some '\n') :
    piece.kind.isTrivia = true ∨ (input.take piece.length).getLast? ≠ some '\r' := by
  cases mode with
  | html =>
      cases next
      rcases Piece.ofHtml_cases input with ⟨tag, found, _, length⟩ | ⟨_, kind, _⟩
      · rw [length] at feed ⊢
        exact .inr fun ends => (openTagAt?_ends found).2.2 ends feed
      · have nonempty : input.drop (Piece.ofHtml input).length ≠ [] := by
          intro none
          rw [none] at feed
          contradiction
        obtain ⟨tag, found⟩ := Option.isSome_iff_exists.mp (Piece.behindHtml nonempty kind)
        rw [(openTagAt?_ends found).1] at feed
        contradiction
  | code =>
      cases Piece.codeText next with
      | trivia isTrivia => exact .inl isTrivia
      | solid solid =>
          refine .inr fun ends => ?_
          have space := solid _ (List.mem_of_getLast? ends)
          exact absurd space (by decide)
      | ends noReturn => exact .inr noReturn

theorem Piece.ofCode_kind_ne {memberName : Bool} {input : Text} {piece : Piece}
    (next : Piece.ofCode memberName input = .ok piece) : piece.kind ≠ .inlineHtml := by
  intro isHtml
  cases Piece.codeText next with
  | trivia isTrivia =>
      rw [isHtml] at isTrivia
      contradiction
  | solid _ noHtml => exact noHtml isHtml
  | ends _ kinds =>
      rw [isHtml] at kinds
      revert kinds
      decide

theorem LexMode.closeTag_of_after {mode : LexMode} {kind : TokenKind}
    (inHtml : mode.after kind = .html) : kind = .closeTag ∨ mode = .html := by
  unfold LexMode.after at inHtml
  split at inHtml
  · contradiction
  · contradiction
  · exact .inl rfl
  · exact .inr inHtml

/-- HTML is read behind a close tag, since it reaches up to an open tag. -/
theorem Piece.closeTag_of_html {mode : LexMode} {memberName : Bool} {input : Text} {piece : Piece}
    (next : Piece.next mode memberName input = .ok piece) (inHtml : mode.after piece.kind = .html)
    (noTag : openTagAt? (input.drop piece.length) = none) (more : input.drop piece.length ≠ []) :
    piece.kind = .closeTag := by
  rcases LexMode.closeTag_of_after inHtml with tag | rfl
  · exact tag
  · cases next
    exfalso
    rcases Piece.ofHtml_cases input with ⟨tag, found, kind, _⟩ | ⟨_, kind, _⟩
    · rcases (openTagAt?_ends found).2.1 with isTag | isTag <;> rw [kind, isTag] at inHtml <;>
        contradiction
    · have isTag := Piece.behindHtml more kind
      rw [noTag] at isTag
      contradiction

namespace Lexes

variable {mode : LexMode} {memberName : Bool} {place : Place} {input : Text} {tokens : List Token}

theorem wellSpelled (lexes : Lexes mode memberName place input tokens) :
    ∀ token ∈ tokens, token.WellSpelled := by
  induction lexes with
  | done => simp
  | step nonempty next _ ih =>
      exact List.forall_mem_cons.mpr ⟨Piece.wellSpelled next nonempty _, ih⟩

theorem head?_text {first : Token} {rest : List Token}
    (lexes : Lexes mode memberName place input (first :: rest)) :
    first.text.head? = input.head? := by
  cases lexes with
  | @step _ _ _ _ piece _ nonempty next _ =>
      obtain ⟨character, others, rfl⟩ := List.exists_cons_of_ne_nil nonempty
      exact Piece.head?_take piece

theorem mode_of_isMarkup {token : Token} {rest : List Token}
    (lexes : Lexes mode memberName place input (token :: rest))
    (isCode : token.kind.isMarkup = false) : mode = .code := by
  cases lexes with
  | step _ next _ => exact Piece.mode_of_isMarkup next isCode

theorem mode_of_html {first : Token} {rest : List Token}
    (lexes : Lexes mode memberName place input (first :: rest)) (isHtml : first.kind = .inlineHtml) :
    mode = .html ∧ openTagAt? input = none ∧ input ≠ [] := by
  cases lexes with
  | step nonempty next _ =>
      cases mode with
      | code => exact absurd isHtml (Piece.ofCode_kind_ne next)
      | html =>
          cases next
          exact ⟨rfl, (Piece.openTagAt?_of_html isHtml).1, nonempty⟩

theorem meets (lexes : Lexes mode memberName place input tokens) :
    tokens.IsChain Token.Meets := by
  induction lexes with
  | done => exact .nil
  | @step mode memberName place input piece rest nonempty next later ih =>
      cases rest with
      | nil => exact .singleton _
      | cons second rest =>
          refine .cons_cons ⟨fun feed => ?_, fun isHtml => ?_⟩ ih
          · rw [later.head?_text] at feed
            exact Piece.feed next feed
          · obtain ⟨inHtml, noTag, more⟩ := later.mode_of_html isHtml
            exact Piece.closeTag_of_html next inHtml noTag more

end Lexes

end ConstructorInjection
