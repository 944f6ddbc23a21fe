import Mathlib.Data.List.Basic
import Mathlib.Tactic.Common
import ConstructorInjection.Proofs.LineScans
import ConstructorInjection.Proofs.Partners

/-!
The line of an attribute. `#[` opens one where a scan of the rest of the line finds that its bracket
closes. As long as nothing on the line hides a bracket or a quote from the scan, the tokens there
close the bracket too.
-/

namespace ConstructorInjection

section Lines

variable {first : Char} {front rest text : Text}

theorem lineCommentExtent_cons (positive : 0 < lineCommentExtent (first :: rest)) :
    first ≠ '\n' ∧ lineCommentExtent (first :: rest) = lineCommentExtent rest + 1 := by
  rw [lineCommentExtent.eq_def] at positive ⊢
  split at positive
  next => contradiction
  next => contradiction
  next => contradiction
  next first rest noFeed _ whole =>
    cases whole
    refine ⟨?_, rfl⟩
    rintro rfl
    exact noFeed rfl

theorem lineCommentExtent_append (inside : front.length ≤ lineCommentExtent (front ++ rest)) :
    lineCommentExtent (front ++ rest) = front.length + lineCommentExtent rest := by
  induction front with
  | nil => simp
  | cons first front ih =>
      rw [List.length_cons, List.cons_append] at inside
      obtain ⟨-, extent⟩ := lineCommentExtent_cons (Nat.zero_lt_of_lt inside)
      rw [extent] at inside
      rw [List.cons_append, extent, ih (Nat.le_of_succ_le_succ inside), List.length_cons]
      omega

theorem feed_notMem_line (text : Text) : '\n' ∉ text.take (lineCommentExtent text) := by
  induction text with
  | nil => simp
  | cons first rest ih =>
      rcases Nat.eq_zero_or_pos (lineCommentExtent (first :: rest)) with none | positive
      · simp [none]
      · obtain ⟨noFeed, extent⟩ := lineCommentExtent_cons positive
        rw [extent, List.take_succ_cons, List.mem_cons, not_or]
        exact ⟨noFeed.symm, ih⟩

theorem lineCommentExtent_tag (starts : ['?', '>'] <+: text) : lineCommentExtent text = 0 := by
  obtain ⟨rest, rfl⟩ := starts
  rfl

end Lines

/-- The first token on what is left of a line lies on it whole, and the line goes on behind it, or
the line ends in it. -/
theorem Token.ScanForm.scan_step {token : Token} (scanForm : token.ScanForm) {rest : Text}
    {extent : Nat} (size : lineCommentExtent (token.text ++ rest) = extent) (positive : 0 < extent)
    (hides : HidesNothing token (token.text.take extent)) {state : Nat × Bool}
    (closes : bracketsClose state.1 state.2 .outside ((token.text ++ rest).take extent) = true) :
    (extent = token.text.length + lineCommentExtent rest ∧ '\n' ∉ token.text ∧
        LexMode.code.after token.kind = .code ∧
        bracketsClose (token.kind.scan state).1 (token.kind.scan state).2 .outside
          (rest.take (lineCommentExtent rest)) = true) ∨
      (extent < token.text.length ∧ state.2 = true ∧
        (token.kind = .stringLiteral → '\n' ∉ token.text)) := by
  have onLine : '\n' ∉ (token.text ++ rest).take extent := size ▸ feed_notMem_line _
  have noTag : ¬ ['?', '>'] <+: token.text := by
    intro starts
    rw [← size, lineCommentExtent_tag (starts.trans (List.prefix_append token.text rest))] at positive
    contradiction
  rcases Nat.lt_or_ge extent token.text.length with short | inside
  · rw [List.take_append_of_le_length short.le] at closes onLine
    refine .inr ⟨short, ?_⟩
    refine scanForm.scan_part hides (List.take_prefix extent token.text) ?_ ?_ onLine noTag closes
    · intro whole
      have shorter := congrArg List.length whole
      rw [List.length_take] at shorter
      omega
    · rw [ne_eq, List.take_eq_nil_iff, not_or]
      exact ⟨positive.ne', List.ne_nil_of_length_pos (positive.trans short)⟩
  · have goesOn := lineCommentExtent_append (size ▸ inside)
    rw [size] at goesOn
    rw [List.take_of_length_le inside] at hides
    rw [goesOn, List.take_length_add_append] at closes onLine
    rw [List.mem_append, not_or] at onLine
    rw [scanForm.scan_whole hides onLine.1 noTag] at closes
    exact .inl ⟨goesOn, onLine.1, scanForm.after_code noTag, closes⟩

/-- The tokens that begin in the next characters, each with as much of its text as lies in them. -/
def lineParts (extent : Nat) : List Token → List (Token × Text)
  | [] => []
  | token :: rest =>
    if extent = 0 then []
    else (token, token.text.take extent) :: lineParts (extent - token.text.length) rest

def scanned (tokens : List Token) (state : Nat × Bool) : Nat × Bool :=
  tokens.foldl (fun state token => token.kind.scan state) state

/-- Where the scan of the rest of a line finds that the brackets close, the tokens that lie on the
line whole close them, and no string begins on the line that does not end there. -/
theorem Lexes.scanned_line {mode : LexMode} {memberName : Bool} {place : Place} {input : Text}
    {tokens : List Token} (lexes : Lexes mode memberName place input tokens) (code : mode = .code)
    (hides : ∀ part ∈ lineParts (lineCommentExtent input) tokens, HidesNothing part.1 part.2)
    {state : Nat × Bool} (closes : bracketsClose state.1 state.2 .outside
      (input.take (lineCommentExtent input)) = true) :
    (∃ front, front <+: tokens ∧ '\n' ∉ textOf front ∧ (scanned front state).2 = true) ∧
      ∀ part ∈ lineParts (lineCommentExtent input) tokens, part.1.kind = .stringLiteral →
        '\n' ∉ part.1.text := by
  induction lexes generalizing state with
  | done => exact ⟨⟨[], List.prefix_refl [], by simp [textOf], closes⟩, by simp [lineParts]⟩
  | @step mode memberName place input piece rest _ next later ih =>
      subst code
      have scanForm := Piece.scanForm next place.line
      generalize isToken : (⟨piece.kind, input.take piece.length, place.line⟩ : Token) = token at *
      have isKind : piece.kind = token.kind := by rw [← isToken]
      have isText : input.take piece.length = token.text := by rw [← isToken]
      have whole : input = token.text ++ input.drop piece.length := by
        rw [← isText, List.take_append_drop]
      generalize size : lineCommentExtent input = extent at *
      rcases Nat.eq_zero_or_pos extent with rfl | positive
      · refine ⟨⟨[], List.nil_prefix, by simp [textOf], closes⟩, by simp [lineParts]⟩
      rw [lineParts, if_neg positive.ne', List.forall_mem_cons] at hides ⊢
      rw [whole] at size closes
      rcases scanForm.scan_step size positive hides.1 closes with
        ⟨goesOn, noFeed, code, closesBehind⟩ | ⟨ends, closed, noFeed⟩
      · have behind : extent - token.text.length = lineCommentExtent (input.drop piece.length) := by
          rw [goesOn, Nat.add_sub_cancel_left]
        rw [behind] at hides ⊢
        obtain ⟨⟨front, isFront, onLine, closesFront⟩, strings⟩ :=
          ih (by rw [isKind, code]) hides.2 closesBehind
        refine ⟨⟨token :: front, ?_, ?_, closesFront⟩, fun _ => noFeed, strings⟩
        · exact List.cons_prefix_cons.mpr ⟨rfl, isFront⟩
        · rw [textOf_cons, List.mem_append, not_or]
          exact ⟨noFeed, onLine⟩
      · rw [Nat.sub_eq_zero_of_le ends.le]
        refine ⟨⟨[], List.nil_prefix, by simp [textOf], closed⟩, noFeed, ?_⟩
        cases rest <;> simp [lineParts]

/-! Nested tokens. -/

theorem scanned_cons (token : Token) (rest : List Token) (state : Nat × Bool) :
    scanned (token :: rest) state = scanned rest (token.kind.scan state) :=
  rfl

theorem scanned_append (left right : List Token) (state : Nat × Bool) :
    scanned (left ++ right) state = scanned right (scanned left state) :=
  List.foldl_append

theorem TokenKind.isStill_of_plain {kind : TokenKind} (noOpener : kind.isOpener = false)
    (noCloser : kind.isCloser = false) : kind.isStill = true := by
  cases kind with
  | openBracket | attributeStart | closeBracket => contradiction
  | _ => rfl

theorem TokenKind.scan_pair {opener closer : TokenKind} (partners : opener.closing? = some closer)
    (depth : Nat) (closed : Bool) :
    ∃ more, opener.scan (depth + 1, closed) = (more + 1, closed) ∧
      closer.scan (more + 1, closed) = (depth + 1, closed) := by
  cases opener with
  | openBracket | attributeStart =>
      cases partners
      exact ⟨depth + 1, rfl, by simp [scan]⟩
  | openBrace | openParen =>
      cases partners
      exact ⟨depth, rfl, rfl⟩
  | _ => contradiction

namespace Nested

variable {tokens front : List Token}

theorem scanned_eq (nested : Nested tokens) (depth : Nat) (closed : Bool) :
    scanned tokens (depth + 1, closed) = (depth + 1, closed) := by
  induction nested generalizing depth with
  | nil => rfl
  | @plain token rest noOpener noCloser _ ih =>
      have still := TokenKind.scan_of_isStill (TokenKind.isStill_of_plain noOpener noCloser)
      rw [scanned_cons, still, ih]
  | @pair opener closer inner rest partners _ _ innerIh restIh =>
      obtain ⟨more, opens, closes⟩ := TokenKind.scan_pair partners depth closed
      rw [scanned_append, scanned_cons, scanned_cons, opens, innerIh, closes, restIh]

/-- Within nested tokens, a bracket that is open in front of them does not close. -/
theorem not_closed (nested : Nested tokens) (isFront : front <+: tokens) (depth : Nat) :
    (scanned front (depth + 1, false)).2 = false := by
  induction nested generalizing front depth with
  | nil =>
      cases List.prefix_nil.mp isFront
      rfl
  | @plain token rest noOpener noCloser _ ih =>
      cases front with
      | nil => rfl
      | cons first front =>
          obtain ⟨rfl, later⟩ := List.cons_prefix_cons.mp isFront
          have still := TokenKind.scan_of_isStill (TokenKind.isStill_of_plain noOpener noCloser)
          rw [scanned_cons, still]
          exact ih later depth
  | @pair opener closer inner rest partners nestedInner _ innerIh restIh =>
      obtain ⟨more, opens, closes⟩ := TokenKind.scan_pair partners depth false
      cases front with
      | nil => rfl
      | cons first front =>
          obtain ⟨rfl, behind, cut⟩ := List.cons_prefix_cons.mp isFront
          rw [scanned_cons, opens]
          rcases List.append_eq_append_iff.mp cut with ⟨between, rfl, -⟩ | ⟨between, rfl, later⟩
          · exact innerIh (List.prefix_append front between) more
          · rw [scanned_append, nestedInner.scanned_eq]
            cases between with
            | nil => rfl
            | cons other between =>
                obtain ⟨rfl, rfl⟩ := List.cons.inj later
                rw [scanned_cons, closes]
                exact restIh (List.prefix_append between behind) depth

end Nested

/-! The line behind an attribute's opener. -/

/-- The tokens of an attribute's line, behind its opener. -/
theorem Lexes.scanned_attribute {mode : LexMode} {memberName : Bool} {place : Place} {input : Text}
    {token : Token} {after : List Token} (lexes : Lexes mode memberName place input (token :: after))
    (isAttribute : token.kind = .attributeStart)
    (hides : ∀ part ∈ lineParts (lineCommentExtent (textOf after)) after,
      HidesNothing part.1 part.2) :
    token.text = ['#', '['] ∧
      (∃ front, front <+: after ∧ '\n' ∉ textOf front ∧ (scanned front (1, false)).2 = true) ∧
      ∀ part ∈ lineParts (lineCommentExtent (textOf after)) after, part.1.kind = .stringLiteral →
        '\n' ∉ part.1.text := by
  obtain rfl := lexes.mode_of_isMarkup (by rw [isAttribute]; rfl)
  cases lexes with
  | step nonempty next later =>
      rw [later.textOf_eq] at hides ⊢
      obtain ⟨spelled, closes⟩ := Piece.closes_of_attributeStart next isAttribute
      refine ⟨spelled, later.scanned_line ?_ hides closes⟩
      exact congrArg (LexMode.after .code) isAttribute

/-- Tokens that close a bracket open in front of them reach its closer. -/
theorem prefix_of_closed {inner front rest : List Token} {closer : Token} (nested : Nested inner)
    (isFront : front <+: inner ++ closer :: rest) (closed : (scanned front (1, false)).2 = true) :
    inner ++ [closer] <+: front := by
  obtain ⟨back, cut⟩ := isFront
  rcases List.append_eq_append_iff.mp cut with ⟨between, rfl, -⟩ | ⟨between, rfl, later⟩
  · rw [nested.not_closed (List.prefix_append front between) 0] at closed
    contradiction
  · cases between with
    | nil =>
        rw [List.append_nil, nested.scanned_eq] at closed
        contradiction
    | cons other between =>
        cases (List.cons.inj later).1
        exact ⟨between, by simp⟩

namespace TokenStream

/-- The tokens that begin behind an index on its line, which ends with a line break or in front of a
closing tag. -/
def restOfLine (stream : TokenStream) (index : Nat) : List (Token × Text) :=
  lineParts (lineCommentExtent (ConstructorInjection.textOf (stream.drop (index + 1))))
    (stream.drop (index + 1))

/-- An attribute closes on its line and no string is left open there, unless a comment or a string in
backticks on the line hides a quote or a bracket. -/
theorem attribute_closes_on_line {source : Text} {stream : TokenStream}
    (lexed : tokenize source = .ok stream) {index : Nat}
    (isAttribute : stream.kindAt? index = some .attributeStart)
    (hides : ∀ part ∈ stream.restOfLine index, HidesNothing part.1 part.2) :
    (∃ close, stream.matchingClose? index = some close ∧
        '\n' ∉ stream.textOf ⟨index, close + 1⟩) ∧
      ∀ part ∈ stream.restOfLine index, part.1.kind = .stringLiteral → '\n' ∉ part.1.text := by
  have nested := nested_of_tokenize lexed
  obtain ⟨token, found, isKind⟩ := Option.map_eq_some_iff.mp isAttribute
  have opens : stream.Passes (·.kind.isOpener) index := by
    rw [Passes, found, Option.any_some, isKind]
    rfl
  obtain ⟨close, closes⟩ := exists_partner_of_opener nested opens
  obtain ⟨opener, inner, closer, rest, cut, place, -, nestedInner⟩ :=
    partners_iff_append.mp ((matchingClose?_eq_some_iff_partners nested).mp closes)
  rw [List.cons_append] at cut
  obtain ⟨atIndex, behind⟩ := drop_eq_cons_iff.mp cut
  obtain rfl := Option.some.inj (found.symm.trans atIndex)
  have lexes := Lexes.of_lexFrom (tokenize_eq_ok_iff.mp lexed).1
  rw [← stream.take_append_drop index, cut] at lexes
  obtain ⟨_, _, _, lexesToken⟩ := lexes.drop
  rw [restOfLine, behind] at hides ⊢
  obtain ⟨spelled, ⟨front, isFront, onLine, closed⟩, strings⟩ :=
    lexesToken.scanned_attribute isKind hides
  obtain ⟨more, rfl⟩ := prefix_of_closed nestedInner isFront closed
  refine ⟨⟨close, closes, ?_⟩, strings⟩
  have pair : stream.slice ⟨index, close + 1⟩ = token :: (inner ++ [closer]) := by
    refine @slice_of_drop_eq stream index (close + 1) (token :: (inner ++ [closer])) rest ?_ ?_
    · rw [cut]
      simp
    · simp
      omega
  rw [textOf_append, List.mem_append, not_or] at onLine
  rw [TokenStream.textOf, pair, textOf_cons, spelled, List.mem_append, not_or]
  exact ⟨by decide, onLine.1⟩

/-- An attribute with a bracket in a string, a comment and a string in backticks on its line, and a
heredoc that goes on behind it. -/
def routedAction : Text :=
  "<?php #[A('b]')]/*c*/fn()=>`d`.<<<'E'\nE;"

theorem attribute_closes_on_line_routedAction : ∃ stream : TokenStream,
    tokenize routedAction = .ok stream ∧ stream.kindAt? 1 = some .attributeStart ∧
      (∀ part ∈ stream.restOfLine 1, HidesNothing part.1 part.2) ∧
      ∃ close, stream.matchingClose? 1 = some close ∧
        '\n' ∉ stream.textOf ⟨1, close + 1⟩ := by
  have computed : (tokenize routedAction).toOption.any (fun stream : TokenStream =>
      stream.kindAt? 1 == some .attributeStart &&
        (stream.restOfLine 1).all fun part => decide (HidesNothing part.1 part.2)) = true := by
    decide +kernel
  simp only [Option.any_eq_true, Bool.and_eq_true, beq_iff_eq, List.all_eq_true,
    decide_eq_true_eq] at computed
  obtain ⟨stream, found, isAttribute, hides⟩ := computed
  have lexed := eq_ok_of_toOption found
  exact ⟨stream, lexed, isAttribute, hides, (attribute_closes_on_line lexed isAttribute hides).1⟩

/-- A comment hides the bracket that the scan takes for the closer. The closer stands behind a string
that begins on the line and does not end there. -/
def bracketInComment : Text :=
  "<?php #[A/*]*/ `\n//`]"

def bracketInCommentTokens : TokenStream :=
  [⟨.openTag, "<?php ", 1⟩, ⟨.attributeStart, "#[", 1⟩, ⟨.identifier, "A", 1⟩,
   ⟨.blockComment, "/*]*/", 1⟩, ⟨.whitespace, " ", 1⟩, ⟨.stringLiteral, "`\n//`", 1⟩,
   ⟨.closeBracket, "]", 2⟩]

theorem not_attribute_closes_on_line_bracketInComment :
    tokenize bracketInComment = .ok bracketInCommentTokens ∧
      bracketInCommentTokens.kindAt? 1 = some .attributeStart ∧
      bracketInCommentTokens.matchingClose? 1 = some 6 ∧
      '\n' ∈ bracketInCommentTokens.textOf ⟨1, 7⟩ ∧
      ∃ part ∈ bracketInCommentTokens.restOfLine 1, part.1.kind = .stringLiteral ∧
        '\n' ∈ part.1.text := by
  refine ⟨eq_ok_of_toOption (by decide +kernel), rfl, by decide, by decide, ?_⟩
  exact ⟨(⟨.stringLiteral, "`\n//`", 1⟩, "`"), by decide, rfl, by decide⟩

end TokenStream

end ConstructorInjection
