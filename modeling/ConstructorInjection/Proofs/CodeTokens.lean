import ConstructorInjection.Proofs.LongestMatches
import ConstructorInjection.Proofs.TokenExtents

/-!
The tokens of code as they are declared: the longest match of the patterns and, where it opens a
comment, a string or a heredoc, the text up to the first place that ends it.
-/

namespace ConstructorInjection

namespace Lexeme

/-- Whether a token takes so many characters of the text behind the match that begins it. -/
def Takes (rest : Text) (extent : Nat) : Lexeme → Prop
  | whole _ | name => extent = 0
  | lineComment => IsFirstCut (fun _ => EndsLine) rest extent
  | attributeOrComment =>
    if closesAttribute rest then extent = 0 else IsFirstCut (fun _ => EndsLine) rest extent
  | blockComment => ∃ body, IsFirstCut (fun _ => EndsBlock) rest body ∧ extent = body + 2
  | quoted quote => ∃ body, IsFirstCut (EndsString quote) rest body ∧ extent = body + 1
  | heredoc => ∃ label opener text body closing, rest = opener ++ text ∧
    HeredocOpener label opener ∧ IsFirstCut (StartsClosingLine label true) text body ∧
    ClosesHeredoc label (text.drop body) closing ∧
    extent = opener.length + (body + closing.length)

/-- Why no token stands where a match begins one: nothing ends it, or what begins it is not a
heredoc's opener. -/
def Lacks (rest : Text) (fault : LexFault) : Lexeme → Prop
  | whole _ | name | lineComment | attributeOrComment => False
  | blockComment => HasNoCut (fun _ => EndsBlock) rest ∧ fault = .unterminatedComment
  | quoted quote => HasNoCut (EndsString quote) rest ∧ fault = .unterminatedString
  | heredoc =>
    ((∀ label opener text, rest = opener ++ text → ¬ HeredocOpener label opener) ∧
        fault = .malformedHeredoc) ∨
      ((∃ label opener text, rest = opener ++ text ∧ HeredocOpener label opener ∧
        HasNoCut (StartsClosingLine label true) text) ∧
        fault = .unterminatedHeredoc (shownLabel rest))

/-- What scanning on behind a match comes to. -/
def scan (rest : Text) : Lexeme → Except LexFault Nat
  | whole _ | name => .ok 0
  | lineComment => .ok (lineCommentExtent rest)
  | attributeOrComment => .ok (if closesAttribute rest then 0 else lineCommentExtent rest)
  | blockComment => (blockCommentExtent rest).elim (.error .unterminatedComment) .ok
  | quoted quote => (quotedExtent quote rest).elim (.error .unterminatedString) .ok
  | heredoc =>
    match heredocExtent rest with
    | .closed extent => .ok extent
    | .unterminated => .error (.unterminatedHeredoc (shownLabel rest))
    | .malformed => .error .malformedHeredoc

/-- The kind of the token that a match begins. -/
def kind (memberName : Bool) (rest text : Text) : Lexeme → TokenKind
  | whole kind => kind
  | name => nameKind memberName text
  | lineComment => .lineComment
  | attributeOrComment => if closesAttribute rest then .attributeStart else .lineComment
  | blockComment => blockCommentKind text
  | quoted _ => .stringLiteral
  | heredoc => .heredoc

variable {rest : Text} {extent : Nat} {fault : LexFault}

theorem takes_heredoc : heredoc.Takes rest extent ↔ heredocExtent rest = .closed extent := by
  constructor
  · rintro ⟨label, opener, text, body, closing, rfl, isOpener, isFirst, closes, rfl⟩
    have isLabel := isOpener.isLabel
    have closed := (heredocBodyExtent_eq_some_iff isLabel.parts isLabel.ne_nil).mpr
      ⟨body, closing, isFirst, closes, rfl⟩
    rw [isOpener.heredocExtent, closed]
    rfl
  · intro result
    obtain ⟨label, opener, text, size, rfl, isOpener, closed, rfl⟩ := heredocExtent_eq_closed result
    have isLabel := isOpener.isLabel
    obtain ⟨body, closing, isFirst, closes, rfl⟩ :=
      (heredocBodyExtent_eq_some_iff isLabel.parts isLabel.ne_nil).mp closed
    exact ⟨label, opener, text, body, closing, rfl, isOpener, isFirst, closes, rfl⟩

theorem heredocExtent_eq_malformed_iff :
    heredocExtent rest = .malformed ↔
      ∀ label opener text, rest = opener ++ text → ¬ HeredocOpener label opener := by
  constructor
  · rintro malformed label opener text rfl isOpener
    rw [isOpener.heredocExtent] at malformed
    cases found : heredocBodyExtent label true text <;>
      simp [found, HeredocExtent.behind] at malformed
  · intro noOpener
    by_contra formed
    obtain ⟨label, opener, text, whole, isOpener⟩ := exists_heredocOpener formed
    exact noOpener label opener text whole isOpener

theorem heredocExtent_eq_unterminated_iff :
    heredocExtent rest = .unterminated ↔
      ∃ label opener text, rest = opener ++ text ∧ HeredocOpener label opener ∧
        HasNoCut (StartsClosingLine label true) text := by
  constructor
  · intro result
    obtain ⟨label, opener, text, rfl, isOpener⟩ := exists_heredocOpener (by rw [result]; simp)
    have isLabel := isOpener.isLabel
    refine ⟨label, opener, text, rfl, isOpener, ?_⟩
    rw [← heredocBodyExtent_eq_none_iff isLabel.parts isLabel.ne_nil]
    rw [isOpener.heredocExtent] at result
    cases found : heredocBodyExtent label true text with
    | none => rfl
    | some body => simp [found, HeredocExtent.behind] at result
  · rintro ⟨label, opener, text, rfl, isOpener, none⟩
    have isLabel := isOpener.isLabel
    rw [isOpener.heredocExtent, (heredocBodyExtent_eq_none_iff isLabel.parts isLabel.ne_nil).mpr none]
    rfl

theorem takes_iff {lexeme : Lexeme} (noBackslash : lexeme ≠ .quoted '\\') :
    lexeme.Takes rest extent ↔ lexeme.scan rest = .ok extent := by
  cases lexeme with
  | whole kind => simp [Takes, scan, eq_comm]
  | name => simp [Takes, scan, eq_comm]
  | lineComment => simp [Takes, scan, isFirstCut_endsLine_iff]
  | attributeOrComment =>
      rw [Takes, scan]
      split
      · simp [eq_comm]
      · simp [isFirstCut_endsLine_iff]
  | blockComment =>
      obtain ⟨first, finds, found⟩ := findsCut_blockCommentExtent rest
      simp only [Takes, finds.isFirstCut_iff, scan, found]
      cases first <;> simp [eq_comm]
  | quoted quote =>
      obtain ⟨first, finds, found⟩ :=
        findsCut_quotedExtent (fun same => noBackslash (congrArg quoted same)) rest
      simp only [Takes, finds.isFirstCut_iff, scan, found]
      cases first <;> simp [eq_comm]
  | heredoc =>
      rw [takes_heredoc, scan]
      cases heredocExtent rest <;> simp

theorem lacks_iff {lexeme : Lexeme} (noBackslash : lexeme ≠ .quoted '\\') :
    lexeme.Lacks rest fault ↔ lexeme.scan rest = .error fault := by
  cases lexeme with
  | blockComment =>
      obtain ⟨first, finds, found⟩ := findsCut_blockCommentExtent rest
      simp only [Lacks, finds.hasNoCut_iff, scan, found]
      cases first <;> simp [eq_comm]
  | quoted quote =>
      obtain ⟨first, finds, found⟩ :=
        findsCut_quotedExtent (fun same => noBackslash (congrArg quoted same)) rest
      simp only [Lacks, finds.hasNoCut_iff, scan, found]
      cases first <;> simp [eq_comm]
  | heredoc =>
      rw [Lacks, scan, ← heredocExtent_eq_malformed_iff, ← heredocExtent_eq_unterminated_iff]
      cases heredocExtent rest <;> simp [eq_comm]
  | _ => simp [Lacks, scan]

/-- The kinds that the tokens have that a lexeme begins. -/
def gives : Lexeme → TokenKind → Bool
  | whole own, kind => kind == own
  | name, kind => kind.isName || kind == .keyword
  | lineComment, kind => kind == .lineComment
  | attributeOrComment, kind => kind == .attributeStart || kind == .lineComment
  | blockComment, kind => kind == .blockComment || kind == .docComment
  | quoted _, kind => kind == .stringLiteral
  | heredoc, kind => kind == .heredoc

theorem gives_kind (lexeme : Lexeme) (memberName : Bool) (rest text : Text) :
    lexeme.gives (lexeme.kind memberName rest text) = true := by
  cases lexeme with
  | name =>
      simp only [kind, gives, nameKind]
      split
      · rfl
      · split <;> rfl
  | attributeOrComment =>
      simp only [kind, gives]
      split <;> rfl
  | blockComment =>
      simp only [kind, gives, blockCommentKind]
      split
      · split <;> rfl
      · rfl
  | whole kind => exact beq_self_eq_true kind
  | lineComment | quoted _ | heredoc => rfl

end Lexeme

/-- A match begins the token that scanning on behind it comes to. -/
theorem Piece.ofMatch_scan (memberName : Bool) (input : Text) (found : LexicalMatch)
    (positive : 0 < found.length) :
    ((Piece.ofMatch memberName input found positive).mapError Refusal.fault).map
        (fun piece => (piece.kind, piece.length)) =
      (found.lexeme.scan (input.drop found.length)).map fun extent =>
        (found.lexeme.kind memberName (input.drop found.length)
          (input.take (found.length + extent)), found.length + extent) := by
  rw [ofMatch]
  cases lexeme : found.lexeme with
  | whole kind => rfl
  | name => rfl
  | lineComment => rfl
  | attributeOrComment =>
      simp only [Lexeme.scan, Lexeme.kind]
      split <;> rfl
  | blockComment =>
      simp only [Lexeme.scan]
      cases blockCommentExtent (input.drop found.length) <;> rfl
  | quoted quote =>
      simp only [Lexeme.scan]
      cases quotedExtent quote (input.drop found.length) <;> rfl
  | heredoc =>
      simp only [Lexeme.scan]
      cases heredocExtent (input.drop found.length) <;> rfl

section Match

variable {memberName : Bool} {input : Text} {found : LexicalMatch} {positive : 0 < found.length}

theorem Piece.ofMatch_eq_ok {piece : Piece}
    (next : Piece.ofMatch memberName input found positive = .ok piece) :
    ∃ extent, found.lexeme.scan (input.drop found.length) = .ok extent ∧
      piece.length = found.length + extent ∧
      piece.kind = found.lexeme.kind memberName (input.drop found.length)
        (input.take (found.length + extent)) := by
  have scanned := Piece.ofMatch_scan memberName input found positive
  rw [next] at scanned
  cases result : found.lexeme.scan (input.drop found.length) with
  | error fault => simp [result, Except.map, Except.mapError] at scanned
  | ok extent =>
      simp only [result, Except.map, Except.mapError, Except.ok.injEq, Prod.mk.injEq] at scanned
      exact ⟨extent, rfl, scanned.2, scanned.1⟩

theorem Piece.ofMatch_eq_error {refusal : Refusal}
    (next : Piece.ofMatch memberName input found positive = .error refusal) :
    found.lexeme.scan (input.drop found.length) = .error refusal.fault := by
  have scanned := Piece.ofMatch_scan memberName input found positive
  rw [next] at scanned
  cases result : found.lexeme.scan (input.drop found.length) with
  | error fault =>
      simp only [result, Except.map, Except.mapError, Except.error.injEq] at scanned
      rw [scanned]
  | ok extent => simp [result, Except.map, Except.mapError] at scanned

end Match

/-- The rule that begins a token of code, with what scanning on behind its match comes to. -/
theorem Piece.exists_rule {memberName : Bool} {input : Text} {piece : Piece}
    (next : Piece.ofCode memberName input = .ok piece) :
    ∃ rule ∈ lexicalRules, rule.lexeme.gives piece.kind = true ∧
      ∃ matched extent, rule.pattern.matchLength input = matched ∧ 0 < matched ∧
        rule.lexeme.scan (input.drop matched) = .ok extent ∧ piece.length = matched + extent ∧
        piece.kind = rule.lexeme.kind memberName (input.drop matched)
          (input.take (matched + extent)) := by
  obtain ⟨found, result, built⟩ := Piece.ofCode_eq_ok next
  obtain ⟨extent, scanned, length, kind⟩ := Piece.ofMatch_eq_ok built
  obtain ⟨rule, member, lexeme, matched⟩ := longestAmong_mem result
  rw [← lexeme] at scanned kind
  refine ⟨rule, member, ?_, found.length, extent, matched, longestMatch_length_pos result, scanned,
    length, kind⟩
  rw [kind]
  exact rule.lexeme.gives_kind memberName _ _

theorem LexicalRule.eq_of_attributeStart :
    ∀ rule ∈ lexicalRules, rule.lexeme.gives .attributeStart = true →
      rule = ⟨.spelling ['#', '['], .attributeOrComment⟩ := by
  decide

theorem Piece.closes_of_attributeStart {memberName : Bool} {input : Text} {piece : Piece}
    (next : Piece.ofCode memberName input = .ok piece) (isAttribute : piece.kind = .attributeStart) :
    input.take piece.length = ['#', '['] ∧ closesAttribute (input.drop piece.length) = true := by
  obtain ⟨rule, member, gives, matched, extent, match_eq, positive, scanned, length, kind⟩ :=
    Piece.exists_rule next
  rw [isAttribute] at gives
  cases LexicalRule.eq_of_attributeStart rule member gives
  obtain ⟨⟨rest, rfl⟩, size⟩ := Pattern.prefix_of_matchLength rfl
    (match_eq ▸ Nat.pos_iff_ne_zero.mp positive)
  obtain rfl : matched = 2 := match_eq.symm.trans size
  rw [isAttribute, Lexeme.kind] at kind
  split at kind
  next closes =>
    simp only [Lexeme.scan, if_pos closes, Except.ok.injEq] at scanned
    rw [length, ← scanned]
    exact ⟨rfl, closes⟩
  next => contradiction

/-- The first token of code, of some kind and with so many characters. -/
inductive IsCodeToken (memberName : Bool) (input : Text) : TokenKind → Nat → Prop where
  | matched {rule : LexicalRule} {length extent : Nat} (sound : ¬ IsSpoiled input)
      (longest : IsLongestMatch input rule length)
      (takes : rule.lexeme.Takes (input.drop length) extent) :
      IsCodeToken memberName input
        (rule.lexeme.kind memberName (input.drop length) (input.take (length + extent)))
        (length + extent)
  /-- The longest match is a closing tag here, which is taken for a question mark. -/
  | spoiled (spoiled : IsSpoiled input) : IsCodeToken memberName input .question 2

/-- Why no token of code stands at the start of a text. -/
inductive IsCodeFault (input : Text) : LexFault → Prop where
  | unmatched {first : Char} {rest : Text} (whole : input = first :: rest)
      (none : NoMatch input) : IsCodeFault input (.unexpectedCharacter first)
  | unfinished {rule : LexicalRule} {length : Nat} {fault : LexFault}
      (longest : IsLongestMatch input rule length)
      (lacks : rule.lexeme.Lacks (input.drop length) fault) : IsCodeFault input fault

theorem LexicalRule.lexeme_ne_backslash :
    ∀ rule ∈ lexicalRules, rule.lexeme ≠ .quoted '\\' := by
  decide

/-! A text that starts with a spoiled closing tag. -/

namespace IsSpoiled

variable {input : Text}

theorem longestMatch_eq (spoiled : IsSpoiled input) :
    longestMatch input = some ⟨.whole .question, 2⟩ := by
  obtain ⟨rest, rfl, noFeed⟩ := spoiled
  rw [longestMatch_returnBehindTag, if_neg noFeed]

theorem ofCode_eq (spoiled : IsSpoiled input) (memberName : Bool) :
    ∃ piece, Piece.ofCode memberName input = .ok piece ∧ piece.kind = .question ∧
      piece.length = 2 := by
  exact ⟨_, Piece.ofCode_of_longestMatch spoiled.longestMatch_eq, rfl, rfl⟩

theorem not_noMatch (spoiled : IsSpoiled input) : ¬ NoMatch input := by
  obtain ⟨rest, rfl, -⟩ := spoiled
  intro none
  exact none ⟨.spelling ['?'], .whole .question⟩ (by decide) 1 rfl

end IsSpoiled

/-! What the lexer finds is what is declared. -/

section Found

variable {memberName : Bool} {input : Text}

theorem Piece.ofCode_eq_error {refusal : Refusal}
    (next : Piece.ofCode memberName input = .error refusal) :
    (longestMatch input = none ∧ refusal.fault = .unexpectedCharacter (input.headD '\x00')) ∨
      ∃ found, ∃ result : longestMatch input = some found,
        Piece.ofMatch memberName input found (longestMatch_length_pos result) = .error refusal := by
  unfold Piece.ofCode at next
  split at next
  next found result => exact .inr ⟨found, result, next⟩
  next none =>
    cases next
    exact .inl ⟨none, rfl⟩

theorem Piece.isCodeToken {piece : Piece} (next : Piece.ofCode memberName input = .ok piece) :
    IsCodeToken memberName input piece.kind piece.length := by
  by_cases spoiled : IsSpoiled input
  · obtain ⟨mark, marked, kind, length⟩ := spoiled.ofCode_eq memberName
    obtain rfl := Except.ok.inj (next.symm.trans marked)
    rw [kind, length]
    exact .spoiled spoiled
  · obtain ⟨found, result, built⟩ := Piece.ofCode_eq_ok next
    obtain ⟨rule, lexeme, longest⟩ := isLongestMatch_of_longestMatch spoiled result
    obtain ⟨extent, scanned, length, kind⟩ := Piece.ofMatch_eq_ok built
    rw [← lexeme] at scanned kind
    rw [kind, length]
    have noBackslash := LexicalRule.lexeme_ne_backslash rule longest.isRule
    exact .matched spoiled longest ((Lexeme.takes_iff noBackslash).mpr scanned)

theorem Piece.isCodeFault (nonempty : input ≠ []) {refusal : Refusal}
    (next : Piece.ofCode memberName input = .error refusal) :
    IsCodeFault input refusal.fault := by
  have sound : ¬ IsSpoiled input := by
    intro spoiled
    obtain ⟨mark, marked, -⟩ := spoiled.ofCode_eq memberName
    rw [next] at marked
    contradiction
  obtain ⟨first, rest, rfl⟩ := List.exists_cons_of_ne_nil nonempty
  rcases Piece.ofCode_eq_error next with ⟨none, fault⟩ | ⟨found, result, built⟩
  · rw [fault]
    exact .unmatched rfl (noMatch_of_longestMatch sound none)
  · obtain ⟨rule, lexeme, longest⟩ := isLongestMatch_of_longestMatch sound result
    have scanned := Piece.ofMatch_eq_error built
    rw [← lexeme] at scanned
    have noBackslash := LexicalRule.lexeme_ne_backslash rule longest.isRule
    exact .unfinished longest ((Lexeme.lacks_iff noBackslash).mpr scanned)

end Found

/-! Only one token stands at the start of a text, or else one fault. -/

def Lexeme.mayLack : Lexeme → Bool
  | blockComment | quoted _ | heredoc => true
  | _ => false

theorem Lexeme.Lacks.mayLack {lexeme : Lexeme} {rest : Text} {fault : LexFault}
    (lacks : lexeme.Lacks rest fault) : lexeme.mayLack = true := by
  cases lexeme with
  | blockComment => rfl
  | quoted _ => rfl
  | heredoc => rfl
  | _ => exact lacks.elim

theorem LexicalRule.spelled_of_mayLack :
    ∀ rule ∈ lexicalRules, rule.lexeme.mayLack = true →
      ∃ characters ∈ rule.pattern.spelled?, characters.head?.any (· != '?') = true := by
  decide

section Unique

variable {memberName : Bool} {input : Text} {kind other : TokenKind} {length size : Nat}
  {fault : LexFault}

theorem IsLongestMatch.sound_of_lacks {rule : LexicalRule} {rest : Text}
    (longest : IsLongestMatch input rule length) (lacks : rule.lexeme.Lacks rest fault) :
    ¬ IsSpoiled input := by
  rintro ⟨rest, rfl, -⟩
  obtain ⟨characters, spells, begins⟩ :=
    LexicalRule.spelled_of_mayLack rule longest.isRule lacks.mayLack
  obtain rfl := Pattern.eq_of_spelled spells longest.mem
  cases length with
  | zero => contradiction
  | succ length => contradiction

theorem IsCodeFault.sound (isFault : IsCodeFault input fault) : ¬ IsSpoiled input := by
  cases isFault with
  | unmatched _ none => exact fun spoiled => spoiled.not_noMatch none
  | unfinished longest lacks => exact longest.sound_of_lacks lacks

theorem IsCodeToken.unique (isToken : IsCodeToken memberName input kind length)
    (also : IsCodeToken memberName input other size) : other = kind ∧ size = length := by
  cases isToken with
  | spoiled spoiled =>
      cases also with
      | spoiled => exact ⟨rfl, rfl⟩
      | matched sound => exact absurd spoiled sound
  | matched sound longest takes =>
      cases also with
      | spoiled spoiled => exact absurd spoiled sound
      | matched _ longestToo takesToo =>
          obtain ⟨rfl, rfl⟩ := longest.unique longestToo
          have noBackslash := LexicalRule.lexeme_ne_backslash _ longest.isRule
          rw [Lexeme.takes_iff noBackslash] at takes takesToo
          obtain rfl := Except.ok.inj (takes.symm.trans takesToo)
          exact ⟨rfl, rfl⟩

theorem IsCodeFault.unique {cause : LexFault} (isFault : IsCodeFault input fault)
    (also : IsCodeFault input cause) : cause = fault := by
  cases isFault with
  | unmatched whole none =>
      cases also with
      | unmatched wholeToo =>
          rw [whole] at wholeToo
          rw [(List.cons.inj wholeToo).1]
      | unfinished longest => exact absurd none longest.not_noMatch
  | unfinished longest lacks =>
      cases also with
      | unmatched _ none => exact absurd none longest.not_noMatch
      | unfinished longestToo lacksToo =>
          obtain ⟨rfl, rfl⟩ := longest.unique longestToo
          have noBackslash := LexicalRule.lexeme_ne_backslash _ longest.isRule
          rw [Lexeme.lacks_iff noBackslash] at lacks lacksToo
          exact Except.error.inj (lacksToo.symm.trans lacks)

theorem IsCodeToken.not_isCodeFault (isToken : IsCodeToken memberName input kind length) :
    ¬ IsCodeFault input fault := by
  intro isFault
  cases isToken with
  | spoiled spoiled => exact isFault.sound spoiled
  | matched sound longest takes =>
      cases isFault with
      | unmatched _ none => exact longest.not_noMatch none
      | unfinished longestToo lacks =>
          obtain ⟨rfl, rfl⟩ := longest.unique longestToo
          have noBackslash := LexicalRule.lexeme_ne_backslash _ longest.isRule
          rw [Lexeme.takes_iff noBackslash] at takes
          rw [Lexeme.lacks_iff noBackslash] at lacks
          cases takes.symm.trans lacks

theorem IsCodeFault.ne_nil (isFault : IsCodeFault input fault) : input ≠ [] := by
  rintro rfl
  have none : NoMatch [] := noMatch_of_longestMatch isFault.sound rfl
  cases isFault with
  | unmatched whole => contradiction
  | unfinished longest => exact longest.not_noMatch none

theorem IsCodeToken.ne_nil (isToken : IsCodeToken memberName input kind length) : input ≠ [] := by
  rintro rfl
  cases isToken with
  | spoiled spoiled =>
      obtain ⟨rest, whole, -⟩ := spoiled
      contradiction
  | matched sound longest => exact longest.not_noMatch (noMatch_of_longestMatch sound rfl)

theorem isCodeToken_iff :
    IsCodeToken memberName input kind length ↔
      ∃ piece, Piece.ofCode memberName input = .ok piece ∧ piece.kind = kind ∧
        piece.length = length := by
  constructor
  · intro isToken
    cases next : Piece.ofCode memberName input with
    | error refusal => exact absurd (Piece.isCodeFault isToken.ne_nil next) isToken.not_isCodeFault
    | ok piece => exact ⟨piece, rfl, isToken.unique (Piece.isCodeToken next)⟩
  · rintro ⟨piece, next, rfl, rfl⟩
    exact Piece.isCodeToken next

theorem isCodeFault_iff (memberName : Bool) (nonempty : input ≠ []) :
    IsCodeFault input fault ↔
      ∃ refusal, Piece.ofCode memberName input = .error refusal ∧ refusal.fault = fault := by
  constructor
  · intro isFault
    cases next : Piece.ofCode memberName input with
    | error refusal => exact ⟨refusal, rfl, isFault.unique (Piece.isCodeFault nonempty next)⟩
    | ok piece => exact absurd isFault (Piece.isCodeToken next).not_isCodeFault
  · rintro ⟨refusal, next, rfl⟩
    exact Piece.isCodeFault nonempty next

end Unique

end ConstructorInjection
