import Mathlib.Data.List.Basic
import Mathlib.Tactic.Common
import ConstructorInjection.Proofs.CallCoverage
import ConstructorInjection.Proofs.Dependencies
import ConstructorInjection.Proofs.ReplacementTexts

/-!
Copied spans. What a replacement copies from its call is read in the copy token by token as it stands
in the call, up to the calls that were converted in it.
-/

namespace ConstructorInjection

theorem TokenKind.isMarkup_eq_false {kind : TokenKind}
    (inCode : kind.isTrivia = true ∨ kind = .comma ∨ kind.isOpener = true ∨ kind.isCloser = true) :
    kind.isMarkup = false := by
  revert inCode
  cases kind <;> decide

theorem TokenKind.isMarkup_of_isName {kind : TokenKind} (named : kind.isName = true) :
    kind.isMarkup = false := by
  revert named
  cases kind <;> decide

theorem LexMode.after_of_code {kind : TokenKind} (inCode : kind.isMarkup = false) (mode : LexMode) :
    mode.after kind = mode := by
  cases kind <;> first | rfl | contradiction

theorem Blank.isMarkup_eq_false {blanks : List Token} (blank : Blank blanks) :
    ∀ token ∈ blanks, token.kind.isMarkup = false :=
  fun token member => TokenKind.isMarkup_eq_false (.inl (blank token member))

namespace TokenStream

/-- An item between commas, with what is on its two sides. -/
theorem parts_of_mem_splitFrom {start : Nat} {tokens : List Token} {item : IndexRange}
    (level : Level tokens) (member : item ∈ splitFrom start start 0 tokens) :
    ∃ left inner right, tokens = left ++ (inner ++ right) ∧ item.start = start + left.length ∧
      item.stop = item.start + inner.length ∧ Level inner ∧ Uncut 0 inner ∧
      (∀ last ∈ left.getLast?, last.kind = .comma) ∧
      ∀ first ∈ right.head?, first.kind = .comma := by
  generalize size : tokens.length = length
  induction length using Nat.strongRecOn generalizing start tokens with
  | ind length ih =>
      rcases uncut_or_exists_comma tokens with uncut | ⟨left, comma, right, rfl, isComma, first, uncut⟩
      · rw [splitFrom_uncut uncut level, List.mem_singleton] at member
        subst member
        exact ⟨[], tokens, [], by simp, rfl, rfl, level, uncut, by simp, by simp⟩
      · rw [splitFrom_append_comma isComma first, List.mem_append,
          splitFrom_uncut uncut first, List.mem_singleton] at member
        have plain : Level [comma] := by
          apply Level.plain <;> rw [isComma] <;> rfl
        rcases member with rfl | later
        · refine ⟨[], left, comma :: right, by simp, rfl, rfl, first, uncut, by simp, ?_⟩
          rintro _ ⟨⟩
          exact isComma
        · have behind : Level right := by
            refine plain.of_append_left (first.of_append_left ?_)
            simpa using level
          obtain ⟨before, inner, after, rfl, begins, ends, levelInner, uncutInner, front, back⟩ :=
            ih right.length (by rw [← size]; simp; omega) behind later rfl
          refine ⟨left ++ comma :: before, inner, after, by simp, ?_, ends, levelInner, uncutInner,
            ?_, back⟩
          · rw [begins, List.length_append, List.length_cons]
            omega
          · intro last isLast
            rw [List.getLast?_append, List.getLast?_cons] at isLast
            cases ending : before.getLast? with
            | none =>
                rw [ending] at isLast
                cases isLast
                exact isComma
            | some other =>
                rw [ending] at isLast
                cases isLast
                exact front _ ending

/-- Tokens that are read in the mode from the start on, with more code behind the stop. -/
structure Span (stream : TokenStream) (mode : LexMode) (start stop : Nat) : Prop where
  ordered : start ≤ stop
  lexes : ∃ memberName place,
    Lexes mode memberName place (ConstructorInjection.textOf (stream.drop start)) (stream.drop start)
  next : ∃ next, stream[stop]? = some next ∧ next.kind.isMarkup = false
  last : ∀ last ∈ (stream.slice ⟨start, stop⟩).getLast?, last.kind ≠ .lineComment

theorem exists_lexes_drop {source : Text} {stream : TokenStream}
    (lexed : tokenize source = .ok stream) (index : Nat) :
    ∃ mode memberName place, Lexes mode memberName place
      (ConstructorInjection.textOf (stream.drop index)) (stream.drop index) := by
  have lexes := Lexes.of_lexFrom (tokenize_eq_ok_iff.mp lexed).1
  rw [← List.take_append_drop index stream] at lexes
  obtain ⟨mode, place, input, later⟩ := lexes.drop
  rw [← later.textOf_eq] at later
  exact ⟨mode, _, place, later⟩

theorem mode_of_lexes {stream : TokenStream} {mode : LexMode} {memberName : Bool} {place : Place}
    {index : Nat} {token : Token}
    (lexes : Lexes mode memberName place (ConstructorInjection.textOf (stream.drop index))
      (stream.drop index))
    (found : stream[index]? = some token) (inCode : token.kind.isMarkup = false) : mode = .code := by
  rw [drop_eq_cons_iff.mpr ⟨found, rfl⟩] at lexes
  exact lexes.mode_of_isMarkup inCode

/-- The reading goes on behind a token that is not the last one. -/
theorem exists_lexes_behind {stream : TokenStream} {mode : LexMode} {index : Nat} {token : Token}
    (lexes : ∃ memberName place, Lexes mode memberName place
      (ConstructorInjection.textOf (stream.drop index)) (stream.drop index))
    (found : stream[index]? = some token) (more : index + 1 < stream.length) :
    ∃ memberName place, Lexes (mode.after token.kind) memberName place
      (ConstructorInjection.textOf (stream.drop (index + 1))) (stream.drop (index + 1)) := by
  obtain ⟨memberName, place, lexes⟩ := lexes
  rw [drop_eq_cons_iff.mpr ⟨found, rfl⟩] at lexes
  obtain ⟨_, later, elsewhere, _, _, _, behind⟩ := lexes.uncons (by
    rw [ne_eq, List.drop_eq_nil_iff]
    omega)
  exact ⟨later, elsewhere, behind⟩

theorem exists_lexes_code {source : Text} {stream : TokenStream}
    (lexed : tokenize source = .ok stream) {index : Nat} {token : Token}
    (found : stream[index]? = some token) (inCode : token.kind.isMarkup = false)
    (more : index + 1 < stream.length) :
    ∃ memberName place, Lexes .code memberName place
      (ConstructorInjection.textOf (stream.drop (index + 1))) (stream.drop (index + 1)) := by
  obtain ⟨mode, memberName, place, lexes⟩ := exists_lexes_drop lexed index
  have isCode := mode_of_lexes lexes found inCode
  subst isCode
  have behind := exists_lexes_behind ⟨memberName, place, lexes⟩ found more
  rwa [LexMode.after_of_code inCode] at behind

namespace Span

variable {stream : TokenStream} {mode : LexMode} {start stop : Nat}

/-- Code between two tokens of the code. -/
theorem of_cut {source : Text} (lexed : tokenize source = .ok stream) {index : Nat}
    {front inner back : List Token} {previous next : Token}
    (cut : stream.drop index = front ++ previous :: (inner ++ next :: back))
    (inCode : previous.kind.isMarkup = false ∧ next.kind.isMarkup = false)
    (last : ∀ last ∈ inner.getLast?, last.kind ≠ .lineComment) :
    stream.Span .code (index + front.length + 1) (index + front.length + 1 + inner.length) := by
  have found := getElem?_of_drop_eq cut
  have behind := drop_of_drop_eq_cons cut
  have foundNext := getElem?_of_drop_eq behind
  have inside := (List.getElem?_eq_some_iff.mp foundNext).1
  refine ⟨Nat.le_add_right _ _, exists_lexes_code lexed found inCode.1 (by omega),
    ⟨next, foundNext, inCode.2⟩, ?_⟩
  rwa [slice_of_drop_eq behind rfl]

theorem lt_length (span : stream.Span mode start stop) : stop < stream.length := by
  obtain ⟨next, found, _⟩ := span.next
  exact (List.getElem?_eq_some_iff.mp found).1

theorem empty (span : stream.Span mode start start) : mode = .code := by
  obtain ⟨memberName, place, lexes⟩ := span.lexes
  obtain ⟨next, found, inCode⟩ := span.next
  exact mode_of_lexes lexes found inCode

/-- What is left of a span behind a part of it. -/
theorem behind {middle : Nat} {later : LexMode} (span : stream.Span mode start stop)
    (lower : start ≤ middle) (upper : middle ≤ stop)
    (lexes : ∃ memberName place, Lexes later memberName place
      (ConstructorInjection.textOf (stream.drop middle)) (stream.drop middle)) :
    stream.Span later middle stop := by
  have parts := stream.slice_append_slice lower upper
  refine ⟨upper, lexes, span.next, fun last isLast => span.last last ?_⟩
  rw [← parts, List.getLast?_append, isLast, Option.some_or]
  rfl

theorem tail (span : stream.Span mode start stop) {token : Token}
    (found : stream[start]? = some token) (inside : start < stop) :
    stream.Span (mode.after token.kind) (start + 1) stop := by
  have more : start + 1 < stream.length := Nat.lt_of_le_of_lt inside span.lt_length
  exact span.behind (Nat.le_succ start) inside (exists_lexes_behind span.lexes found more)

end Span

/-- What a call has between its parentheses. -/
theorem span_inner {source : Text} {stream : TokenStream} (lexed : tokenize source = .ok stream)
    {index : Nat} {call : LegacyCall} (result : stream.legacyCall? index = some call) :
    stream.Span .code call.inner.start call.inner.stop := by
  obtain ⟨head, inner, rest, opener, closer, tokens⟩ := exists_callTokens result
  have cut : stream.drop index = head ++ opener :: (inner ++ closer :: rest) := by
    simpa using tokens.cut
  have behind := drop_of_drop_eq_cons cut
  have noMarkup := TokenKind.isMarkup_eq_false (.inr (.inr (.inl tokens.opens)))
  have span := Span.of_cut lexed cut
    ⟨noMarkup, TokenKind.isMarkup_eq_false (.inr (.inr (.inr tokens.closes)))⟩ ?_
  · rw [LegacyCall.inner, tokens.closing_eq, tokens.opening_eq]
    exact span
  · -- A line comment would take the closing parenthesis with it.
    intro last isLast comment
    obtain ⟨front, rfl⟩ := List.getLast?_eq_some_iff.mp isLast
    obtain ⟨mode, _, _, lexes⟩ := exists_lexes_drop lexed (index + head.length + 1 + front.length)
    rw [List.append_assoc] at behind
    rw [drop_of_drop_eq behind] at lexes
    have closes := (lexes.behind_lineComment comment).2.2
    rw [tokens.closes] at closes
    contradiction

theorem level_inner {stream : TokenStream} {index : Nat} {call : LegacyCall}
    (result : stream.legacyCall? index = some call) : Level (stream.slice call.inner) := by
  obtain ⟨head, inner, rest, opener, closer, tokens⟩ := exists_callTokens result
  have cut : stream.drop index = head ++ opener :: (inner ++ closer :: rest) := by
    simpa using tokens.cut
  have behind := drop_of_drop_eq_cons cut
  rw [← tokens.opening_eq] at behind
  rw [LegacyCall.inner, slice_of_drop_eq behind tokens.closing_eq]
  exact tokens.level

theorem exists_concat_of_getLast? {α : Type} {test : α → Prop} {first : α} {rest : List α}
    (isFirst : test first) (ends : ∀ last ∈ rest.getLast?, test last) :
    ∃ front last, first :: rest = front ++ [last] ∧ test last := by
  rcases List.eq_nil_or_concat rest with rfl | ⟨front, last, rfl⟩
  · exact ⟨[], first, rfl, isFirst⟩
  · exact ⟨first :: front, last, by simp, ends last (by simp)⟩

/-- What stands before an item without its blanks is a blank, the comma before the item or the
opener of the list. -/
theorem exists_code_before {opener : Token} (opens : opener.kind.isOpener = true)
    {left before : List Token} (comma : ∀ last ∈ left.getLast?, last.kind = .comma)
    (blank : Blank before) :
    ∃ others previous, opener :: (left ++ before) = others ++ [previous] ∧
      previous.kind.isMarkup = false := by
  refine exists_concat_of_getLast? (TokenKind.isMarkup_eq_false (.inr (.inr (.inl opens)))) ?_
  intro last isLast
  rw [List.getLast?_append, Option.mem_def, Option.or_eq_some_iff] at isLast
  rcases isLast with isBlank | ⟨_, isComma⟩
  · exact blank.isMarkup_eq_false last (List.mem_of_getLast? isBlank)
  · exact TokenKind.isMarkup_eq_false (.inr (.inl (comma last isComma)))

/-- What stands behind an item without its blanks is a blank, the comma behind the item or the
closer of the list. -/
theorem exists_code_behind {closer : Token} (closes : closer.kind.isCloser = true)
    {right behind : List Token} (comma : ∀ first ∈ right.head?, first.kind = .comma)
    (blank : Blank behind) (rest : List Token) :
    ∃ next more, behind ++ (right ++ closer :: rest) = next :: more ∧
      next.kind.isMarkup = false := by
  rcases behind with _ | ⟨next, behind⟩
  · rcases right with _ | ⟨next, right⟩
    · exact ⟨closer, rest, rfl, TokenKind.isMarkup_eq_false (.inr (.inr (.inr closes)))⟩
    · exact ⟨next, _, rfl, TokenKind.isMarkup_eq_false (.inr (.inl (comma next rfl)))⟩
  · exact ⟨next, _, rfl, blank.isMarkup_eq_false next (by simp)⟩

/-- An item that is more than blanks is so without the blanks at its ends. -/
theorem not_blank_core {before core behind : List Token} (blankBefore : Blank before)
    (blankBehind : Blank behind)
    (significant : (before ++ (core ++ behind)).any (!·.isTrivia) = true) : ¬ Blank core := by
  intro blank
  obtain ⟨token, member, noTrivia⟩ := List.any_eq_true.mp significant
  have trivial := blankBefore.append (blank.append blankBehind) token member
  simp [trivial] at noTrivia

/-- An argument between what is around it, without the blanks and comments at its ends. -/
theorem exists_argument_parts {stream : TokenStream} {index : Nat} {call : LegacyCall}
    (result : stream.legacyCall? index = some call) {argument : IndexRange}
    (member : argument ∈ call.arguments) :
    ∃ others previous core next more,
      stream.drop call.opening = others ++ previous :: (core ++ next :: more) ∧
      argument = ⟨call.opening + others.length + 1, call.opening + others.length + 1 + core.length⟩ ∧
      previous.kind.isMarkup = false ∧ next.kind.isMarkup = false ∧ Level core ∧ Uncut 0 core ∧
      ¬ Blank core ∧ ∀ last ∈ core.getLast?, last.isTrivia = false := by
  obtain ⟨head, inner, rest, opener, closer, tokens⟩ := exists_callTokens result
  have cut : stream.drop call.opening = opener :: (inner ++ closer :: rest) := by
    rw [tokens.opening_eq]
    exact drop_of_drop_eq tokens.cut
  obtain ⟨_, _, _, _, _, _, _, _, _, _, arguments⟩ := legacyCall?_eq_some result
  rw [arguments] at member
  obtain ⟨item, isItem, rfl⟩ := List.mem_map.mp member
  rw [splitTopLevel, List.mem_filter, slice_of_drop_eq (drop_eq_cons_iff.mp cut).2
    tokens.closing_eq] at isItem
  obtain ⟨left, part, right, rfl, begins, ends, level, uncut, front, back⟩ :=
    parts_of_mem_splitFrom tokens.level isItem.1
  obtain ⟨start, stop⟩ := item
  simp only at begins ends
  subst begins ends
  have behindOpener := (drop_eq_cons_iff.mp cut).2
  have inside : call.opening + 1 + left.length ≤ stream.length := by
    have size := congrArg List.length behindOpener
    simp only [List.length_drop, List.length_append, List.length_cons] at size
    omega
  have whole : stream.drop (call.opening + 1 + left.length) = part ++ (right ++ closer :: rest) := by
    rw [List.append_assoc, List.append_assoc] at behindOpener
    exact drop_of_drop_eq behindOpener
  have significant := isItem.2
  rw [isSignificant, slice_of_drop_eq whole rfl] at significant
  obtain ⟨before, core, behind, rfl, blankBefore, blankBehind, trimmed, _, last⟩ :=
    trimTrivia_parts inside whole
  obtain ⟨others, previous, concat, previousCode⟩ :=
    exists_code_before tokens.opens front blankBefore
  obtain ⟨next, more, ahead, nextCode⟩ := exists_code_behind tokens.closes back blankBehind rest
  have size := congrArg List.length concat
  simp only [List.length_cons, List.length_append, List.length_nil] at size
  have place : call.opening + 1 + left.length + before.length = call.opening + others.length + 1 := by
    omega
  refine ⟨others, previous, core, next, more, ?_, ?_, previousCode, nextCode,
    level.of_blanks blankBefore blankBehind, ?_,
    not_blank_core blankBefore blankBehind significant, last⟩
  · rw [cut, ← ahead]
    have joined := congrArg (· ++ (core ++ (behind ++ (right ++ closer :: rest)))) concat
    simpa using joined
  · rw [trimmed, place]
  · exact (uncut.of_append_right blankBefore.level).of_append_left

theorem span_argument {source : Text} {stream : TokenStream} (lexed : tokenize source = .ok stream)
    {index : Nat} {call : LegacyCall} (result : stream.legacyCall? index = some call)
    {argument : IndexRange} (member : argument ∈ call.arguments) :
    stream.Span .code argument.start argument.stop := by
  obtain ⟨others, previous, core, next, more, cut, rfl, previousCode, nextCode, _, _, _, last⟩ :=
    exists_argument_parts result member
  refine Span.of_cut lexed cut ⟨previousCode, nextCode⟩ ?_
  intro final isFinal comment
  have significant := last final isFinal
  rw [Token.isTrivia, comment] at significant
  contradiction

theorem level_argument {stream : TokenStream} {index : Nat} {call : LegacyCall}
    (result : stream.legacyCall? index = some call) {argument : IndexRange}
    (member : argument ∈ call.arguments) : Level (stream.slice argument) ∧
      Uncut 0 (stream.slice argument) ∧ ¬ Blank (stream.slice argument) := by
  obtain ⟨others, previous, core, next, more, cut, rfl, _, _, level, uncut, noBlank, _⟩ :=
    exists_argument_parts result member
  rw [slice_of_drop_eq (drop_of_drop_eq_cons cut) rfl]
  exact ⟨level, uncut, noBlank⟩

section CopiedRanges

variable {source : Text} {stream : TokenStream} {index : Nat} {call : LegacyCall}
  {shape : CallShape} {range : IndexRange}

/-- A replacement copies level code between two tokens of the code. -/
theorem span_of_mem_copied (lexed : tokenize source = .ok stream)
    (result : stream.legacyCall? index = some call) (member : range ∈ shape.copied call) :
    stream.Span .code range.start range.stop := by
  rcases CallShape.inner_or_argument_of_mem_copied member with rfl | isArgument
  · exact span_inner lexed result
  · exact span_argument lexed result isArgument

theorem nested_of_level {range : IndexRange} (lexed : tokenize source = .ok stream)
    (ordered : range.start ≤ range.stop) (level : Level (stream.slice range)) :
    Nested (stream.slice range) := by
  have parts : stream.take range.start ++ (stream.slice range ++ stream.drop range.stop) = stream := by
    rw [← List.append_assoc, stream.take_append_slice ordered, List.take_append_drop]
  refine @Level.nested (stream.take range.start) _ (stream.drop range.stop) level ?_
  rw [parts]
  exact nested_of_tokenize lexed

theorem nested_of_mem_copied (lexed : tokenize source = .ok stream)
    (result : stream.legacyCall? index = some call) (member : range ∈ shape.copied call) :
    Nested (stream.slice range) := by
  refine nested_of_level lexed (span_of_mem_copied lexed result member).ordered ?_
  rcases CallShape.inner_or_argument_of_mem_copied member with rfl | isArgument
  · exact level_inner result
  · exact (level_argument result isArgument).1

end CopiedRanges

/-- Nothing in the range is read in another way on another line, or runs into a replacement in front
of it. -/
structure Movable (stream : TokenStream) (range : IndexRange) : Prop where
  noAttribute : ∀ token ∈ stream.slice range, token.kind ≠ .attributeStart
  unspoiled : ∀ token ∈ stream.slice range, token.kind = .question → token.text ≠ ['?', '>']
  apart : ∀ index call, stream.legacyCall? index = some call → range.start ≤ index →
    call.stop < range.stop → ∀ next ∈ stream[call.stop]?, next.kind ≠ .number

theorem Movable.within {stream : TokenStream} {outer inner : IndexRange}
    (movable : stream.Movable outer) (lower : outer.start ≤ inner.start)
    (upper : inner.stop ≤ outer.stop) : stream.Movable inner := by
  have inside {token : Token} (member : token ∈ stream.slice inner) : token ∈ stream.slice outer := by
    obtain ⟨index, first, last, found⟩ := mem_slice_iff.mp member
    exact mem_slice_iff.mpr ⟨index, by omega, by omega, found⟩
  refine ⟨fun token member => movable.noAttribute token (inside member),
    fun token member => movable.unspoiled token (inside member), ?_⟩
  intro index call result behind before
  exact movable.apart index call result (by omega) (by omega)

/-- A check that is enough for a range without attributes and question marks. -/
theorem movable_of_all {stream : TokenStream} {range : IndexRange}
    (plain : (stream.slice range).all (fun token =>
      token.kind != .attributeStart && token.kind != .question) = true)
    (apart : ((List.range stream.length).all fun index => (stream.legacyCall? index).all fun call =>
      stream[call.stop]?.all (·.kind != .number)) = true) : stream.Movable range := by
  simp only [List.all_eq_true, Bool.and_eq_true, bne_iff_ne, Option.all_eq_true] at plain apart
  refine ⟨fun token member => (plain token member).1, ?_, ?_⟩
  · intro token member isQuestion
    exact absurd isQuestion (plain token member).2
  · intro index call result _ _ next found
    have inside := List.mem_range.mpr (index_lt_of_legacyCall? result)
    exact apart index inside call result next found

end TokenStream

section Converted

variable {resolver : Resolver} {stream : TokenStream} {start stop : Nat} {token : Token}

/-- One step of the conversion of a span. -/
theorem text_convertSpan (found : stream[start]? = some token) (inside : start < stop) :
    (∃ site, dispatch? resolver stream start = some site ∧ site.stop ≤ stop ∧
      (convertSpan resolver stream start stop).text =
        site.replacementText ++ (convertSpan resolver stream site.stop stop).text) ∨
      (convertSpan resolver stream start stop).text =
        token.text ++ (convertSpan resolver stream (start + 1) stop).text := by
  obtain ⟨bounded, isToken⟩ := List.getElem?_eq_some_iff.mp found
  rw [convertSpan, dif_pos ⟨inside, bounded⟩]
  split
  next site result =>
    obtain ⟨dispatched, fits⟩ := Option.filter_eq_some_iff.mp result
    obtain ⟨startEq, call, converted⟩ := dispatch?_eq_some dispatched
    have filled := converted.start_lt_stop
    have next : max (start + 1) site.stop = site.stop := by omega
    exact .inl ⟨site, dispatched, by simpa using fits, by rw [next]⟩
  next => exact .inr (by rw [isToken])

theorem text_convertSpan_of_isName (found : stream[start]? = some token) (inside : start < stop)
    (noName : token.kind.isName = false) : (convertSpan resolver stream start stop).text =
      token.text ++ (convertSpan resolver stream (start + 1) stop).text := by
  rcases @text_convertSpan resolver _ _ _ _ found inside with ⟨site, dispatched, _⟩ | plain
  · obtain ⟨startEq, call, converted⟩ := dispatch?_eq_some dispatched
    have receiver := (TokenStream.legacyCall?_eq_some converted.call_eq).1
    obtain ⟨other, isOther, named, _⟩ := TokenStream.name_of_isReceiver receiver
    rw [startEq, found] at isOther
    cases isOther
    rw [noName] at named
    contradiction
  · exact plain

/-- A replacement is read as its tokens around the code that it copies. -/
theorem Converted.reads {site : CallSite} {call : LegacyCall} {rest : Text} {later : List Token}
    (converted : Converted resolver stream site call)
    (carries : ∀ range ∈ site.shape.copied call,
      Carries (convertSpan resolver stream range.start range.stop).text
        (CopiedCode (codeOf (stream.slice range))))
    (noDigit : NoDigit rest) (reads : Reads .code rest later) :
    ∃ copies, List.Forall₂ (fun range copy => CopiedCode (codeOf (stream.slice range)) copy)
        (site.shape.copied call) copies ∧
      (Reads .code (site.replacementText ++ rest)
          (site.shape.replacementTokens site.dependency.variableName copies ++ later) ∨
        BeginsName rest ∧ ∃ name behind, later = ⟨.identifier, name, 0⟩ :: behind ∧
          Reads .code (site.replacementText ++ rest)
            (site.shape.replacementTokens (site.dependency.variableName ++ name) copies ++ behind)) := by
  rw [CallSite.replacementText, textOf_of_synthesize converted.replacement_eq]
  exact site.shape.reads_replacement (CallShape.isLabel_of_dependency? converted.dependency_eq)
    carries noDigit reads

theorem Converted.head?_replacementText {site : CallSite} {call : LegacyCall}
    (converted : Converted resolver stream site call) :
    site.replacementText.head? = some '$' := by
  rw [CallSite.replacementText, textOf_of_synthesize converted.replacement_eq]
  exact CallShape.head?_replacement _ _ _

theorem nested_copies {ranges : List IndexRange} {copies : List (List Token)}
    (allCopied : List.Forall₂ (fun range copy => CopiedCode (codeOf (stream.slice range)) copy)
      ranges copies)
    (nested : ∀ range ∈ ranges, Nested (stream.slice range)) : ∀ copy ∈ copies, Nested copy := by
  induction allCopied with
  | nil => simp
  | cons copied _ ih =>
      obtain ⟨first, nested⟩ := List.forall_mem_cons.mp nested
      exact List.forall_mem_cons.mpr ⟨copied.nested (nested_codeOf.mpr first), ih nested⟩

/-- Code behind a call, of which a name may run into the replacement of the call. -/
theorem CopiedCode.exists_behind_call {call source copy later : List Token} {text behind : Text}
    {tokens : Text → List Token} {name : Text} (copied : CopiedCode source copy)
    (isCall : IsStaticCall call) (access : ∀ name, IsAccess (tokens name))
    (nonempty : BeginsName behind → copy ≠ [])
    (reads : Reads .code text (tokens name ++ (copy ++ later)) ∨
      BeginsName behind ∧ ∃ other rest, copy ++ later = ⟨.identifier, other, 0⟩ :: rest ∧
        Reads .code text (tokens (name ++ other) ++ rest)) :
    ∃ whole, CopiedCode (call ++ source) whole ∧ Reads .code text (whole ++ later) := by
  rcases reads with reads | ⟨begins, other, rest, same, reads⟩
  · exact ⟨tokens name ++ copy, .call isCall (access name) copied, by rwa [List.append_assoc]⟩
  · obtain ⟨word, copyRest, rfl⟩ := List.exists_cons_of_ne_nil (nonempty begins)
    cases same
    obtain ⟨sourceRest, rfl, copiedRest⟩ := copied.behind_word rfl
    refine ⟨tokens (name ++ other) ++ copyRest, ?_, by rwa [List.append_assoc]⟩
    have longer := CopiedCode.call (@IsStaticCall.append_word _ ⟨.identifier, other, 0⟩ isCall rfl)
      (access (name ++ other)) copiedRest
    rwa [List.append_assoc] at longer

namespace TokenStream

variable {mode : LexMode} {rest : Text}

/-- What ends a line comment in a span ends it in the copy. -/
theorem Span.endsComment (span : stream.Span mode start stop)
    (found : stream[start]? = some token) (inside : start < stop)
    (comment : token.kind = .lineComment) :
    EndsComment ((convertSpan resolver stream (start + 1) stop).text ++ rest) := by
  have further : start + 1 < stop := by
    by_contra beyond
    have only : stream.slice ⟨start, stop⟩ = [token] := by
      rw [slice_eq_cons found inside, slice, List.drop_take, Nat.sub_eq_zero_of_le (Nat.le_of_not_lt beyond), List.take_zero]
    refine span.last token ?_ comment
    rw [only]
    rfl
  have isNext := List.getElem?_eq_getElem (Nat.lt_trans further span.lt_length)
  obtain ⟨_, _, lexes⟩ := span.lexes
  rw [drop_eq_cons_iff.mpr ⟨found, drop_eq_cons_iff.mpr ⟨isNext, rfl⟩⟩] at lexes
  obtain ⟨ends, noName, _⟩ := lexes.behind_lineComment comment
  rw [text_convertSpan_of_isName isNext further noName, List.append_assoc]
  exact ends.append _

/-- Behind text outside of the tags comes a tag, also in the copy. -/
theorem Span.opensTag (span : stream.Span mode start stop)
    (found : stream[start]? = some token) (inside : start < stop)
    (isHtml : token.kind = .inlineHtml)
    (copies : start + 2 ≤ stop → Copies
      ((convertSpan resolver stream (start + 2) stop).text ++ rest)
      (ConstructorInjection.textOf (stream.drop (start + 2)))) :
    (openTagAt? ((convertSpan resolver stream (start + 1) stop).text ++ rest)).isSome = true := by
  obtain ⟨_, _, lexes⟩ := span.lexes
  rw [drop_eq_cons_iff.mpr ⟨found, rfl⟩] at lexes
  obtain ⟨rfl, _⟩ := lexes.mode_of_html isHtml
  have tail := span.tail found inside
  have further : start + 1 < stop := by
    rcases Nat.eq_or_lt_of_le inside with same | further
    · subst same
      have isCode := tail.empty
      rw [isHtml] at isCode
      contradiction
    · exact further
  have bounded := span.lt_length
  have isNext := List.getElem?_eq_getElem (Nat.lt_trans further bounded)
  rw [drop_eq_cons_iff.mpr ⟨isNext, rfl⟩] at lexes
  obtain ⟨noName, opens⟩ := lexes.behind_html isHtml (by
    rw [ne_eq, List.drop_eq_nil_iff]
    omega)
  rw [text_convertSpan_of_isName isNext further noName, List.append_assoc]
  exact opens _ (copies further)

theorem isStaticCall_of_legacyCall? {source : Text} (lexed : tokenize source = .ok stream)
    {call : LegacyCall} (result : stream.legacyCall? start = some call) :
    IsStaticCall (codeOf (stream.slice ⟨start, call.stop⟩)) := by
  obtain ⟨head, inner, behind, opener, closer, tokens⟩ := exists_callTokens result
  obtain ⟨level, uncut, place⟩ := tokens.level_uncut
  have cut : stream.drop start = (head ++ (opener :: inner ++ [closer])) ++ behind := by
    rw [tokens.cut]
    simp
  have slice := slice_of_drop_eq cut place
  obtain ⟨receiver, blanks, colons, others, rfl, named, blank, isColons⟩ := tokens.begins
  have nested := nested_of_level lexed (by simp only; omega) (slice ▸ level)
  rw [slice] at nested ⊢
  have word : receiver.kind.isWord = true := by simp [TokenKind.isWord, named]
  have significant : colons.isTrivia = false := by
    rw [Token.isTrivia, isColons]
    rfl
  refine ⟨⟨nested_codeOf.mpr nested, uncut.codeOf⟩, ⟨.identifier, receiver.text, 0⟩, colons.bare,
    codeOf (others ++ (opener :: inner ++ [closer])), ?_, rfl, ?_⟩
  · rw [List.cons_append, codeOf_cons, codeOf_word word, List.append_assoc, codeOf_append,
      codeOf_blank blank, List.cons_append, List.nil_append, List.nil_append, List.cons_append,
      codeOf_cons colons, codeOf_significant significant]
    rfl
  · rw [Token.bare, isColons]
    rfl

/-- The reading behind a call is one of code. -/
theorem exists_lexes_call {source : Text} (lexed : tokenize source = .ok stream) {call : LegacyCall}
    (result : stream.legacyCall? start = some call) (ends : stop = call.stop)
    (more : stop < stream.length) :
    ∃ memberName place, Lexes .code memberName place
      (ConstructorInjection.textOf (stream.drop stop)) (stream.drop stop) := by
  obtain ⟨head, inner, behind, opener, closer, tokens⟩ := exists_callTokens result
  subst ends
  exact exists_lexes_code lexed tokens.getElem?_closing
    (TokenKind.isMarkup_eq_false (.inr (.inr (.inr tokens.closes)))) more

theorem Span.mode_of_legacyCall? (span : stream.Span mode start stop) {call : LegacyCall}
    (result : stream.legacyCall? start = some call) : mode = .code := by
  obtain ⟨receiver, found, named, _⟩ := name_of_isReceiver (legacyCall?_eq_some result).1
  obtain ⟨_, _, lexes⟩ := span.lexes
  exact mode_of_lexes lexes found (TokenKind.isMarkup_of_isName named)

theorem text_convertSpan_empty (resolver : Resolver) (stream : TokenStream) (stop : Nat) :
    (convertSpan resolver stream stop stop).text = [] := by
  rw [convertSpan, dif_neg (fun inside => Nat.lt_irrefl _ inside.1)]

/-- The conversion of a span, put before other code, is read like the span, up to the converted
calls. -/
structure Rereads (resolver : Resolver) (stream : TokenStream) (mode : LexMode) (start stop : Nat)
    (rest : Text) (later : List Token) : Prop where
  copies : Copies ((convertSpan resolver stream start stop).text ++ rest)
    (ConstructorInjection.textOf (stream.drop start))
  reads : ∃ copy, CopiedCode (codeOf (stream.slice ⟨start, stop⟩)) copy ∧
    Reads mode ((convertSpan resolver stream start stop).text ++ rest) (copy ++ later)

namespace Rereads

variable {source : Text} {later : List Token}

theorem empty (fresh : Fresh rest) (reads : Reads .code rest later) :
    stream.Rereads resolver .code stop stop rest later := by
  constructor
  · rw [text_convertSpan_empty]
    exact .of_fresh fresh _
  · rw [text_convertSpan_empty]
    refine ⟨[], ?_, reads⟩
    rw [slice, List.drop_take, Nat.sub_self, List.take_zero]
    exact .nil

/-- The conversion of a span begins afresh where it is empty, and else like a token of the span. -/
theorem fresh_or_lexes (tail : stream.Rereads resolver .code start stop rest later)
    (span : stream.Span .code start stop) (fresh : Fresh rest) :
    Fresh ((convertSpan resolver stream start stop).text ++ rest) ∨
      ∃ next memberName place, start < stop ∧ stream[start]? = some next ∧
        Lexes .code memberName place (ConstructorInjection.textOf (stream.drop start))
          (next :: stream.drop (start + 1)) ∧
        ((convertSpan resolver stream start stop).text ++ rest).head? =
          (ConstructorInjection.textOf (stream.drop start)).head? := by
  rcases Nat.eq_or_lt_of_le span.ordered with rfl | inside
  · rw [text_convertSpan_empty]
    exact .inl fresh
  · rcases tail.copies.head? with same | fresh
    · obtain ⟨memberName, place, lexes⟩ := span.lexes
      have found := List.getElem?_eq_getElem (Nat.lt_trans inside span.lt_length)
      have cut := drop_eq_cons_iff.mpr ⟨found, rfl⟩
      refine .inr ⟨_, memberName, place, inside, found, ?_, same⟩
      rwa [← cut]
    · exact .inl fresh

theorem noDigit (tail : stream.Rereads resolver .code start stop rest later)
    (span : stream.Span .code start stop) (fresh : Fresh rest)
    (noNumber : start < stop → ∀ next ∈ stream[start]?, next.kind ≠ .number) :
    NoDigit ((convertSpan resolver stream start stop).text ++ rest) := by
  rcases tail.fresh_or_lexes span fresh with
    fresh | ⟨next, memberName, place, inside, found, lexes, same⟩
  · exact fresh.head?_any (by decide)
  · have begins := lexes.head?_text
    rw [NoDigit, same, ← begins]
    exact lexes.head?_isDigit (noNumber inside next found)

/-- A name that the conversion of a span begins with is a token of the span. -/
theorem not_blank (tail : stream.Rereads resolver .code start stop rest later)
    (span : stream.Span .code start stop) (fresh : Fresh rest)
    (begins : BeginsName ((convertSpan resolver stream start stop).text ++ rest)) :
    ¬ Blank (stream.slice ⟨start, stop⟩) := by
  rcases tail.fresh_or_lexes span fresh with
    fresh | ⟨next, memberName, place, inside, found, lexes, same⟩
  · rw [BeginsName, fresh.head?_any (by decide)] at begins
    contradiction
  · rw [BeginsName, same] at begins
    have word := lexes.isWord_of_beginsName begins
    intro blank
    have trivia := blank next (mem_slice_iff.mpr ⟨start, Nat.le_refl _, inside, found⟩)
    rw [Token.isTrivia] at trivia
    cases kind : next.kind <;> rw [kind] at trivia word <;> contradiction

/-- One more token. -/
theorem of_token (tail : stream.Rereads resolver (mode.after token.kind) (start + 1) stop rest later)
    (span : stream.Span mode start stop) (movable : stream.Movable ⟨start, stop⟩)
    (found : stream[start]? = some token) (inside : start < stop)
    (text : (convertSpan resolver stream start stop).text =
      token.text ++ (convertSpan resolver stream (start + 1) stop).text)
    (second : start + 2 ≤ stop → Copies ((convertSpan resolver stream (start + 2) stop).text ++ rest)
      (ConstructorInjection.textOf (stream.drop (start + 2)))) :
    stream.Rereads resolver mode start stop rest later := by
  have bounded := span.lt_length
  have isMember : token ∈ stream.slice ⟨start, stop⟩ :=
    mem_slice_iff.mpr ⟨start, Nat.le_refl _, inside, found⟩
  obtain ⟨copies, copy, copied, reads⟩ := tail
  obtain ⟨_, _, lexes⟩ := span.lexes
  rw [drop_eq_cons_iff.mpr ⟨found, rfl⟩] at lexes
  have more : stream.drop (start + 1) ≠ [] := by
    rw [ne_eq, List.drop_eq_nil_iff]
    omega
  have copiedToken : token.Copied ((convertSpan resolver stream (start + 1) stop).text ++ rest) := by
    refine ⟨movable.noAttribute token isMember, movable.unspoiled token isMember, ?_, ?_⟩
    · exact span.endsComment found inside
    · intro isHtml
      exact span.opensTag found inside isHtml second
  constructor
  · rw [text, List.append_assoc, drop_eq_cons_iff.mpr ⟨found, rfl⟩, textOf_cons]
    exact copies.append token.text
  · rw [text, List.append_assoc]
    refine ⟨codeOf [token] ++ copy, ?_, ?_⟩
    · rw [slice_eq_cons found inside, codeOf_cons]
      exact copied.keep _
    · rw [List.append_assoc]
      exact Reads.token lexes more copies copiedToken reads

/-- A converted call in front. -/
theorem of_call {site : CallSite} {call : LegacyCall} (converted : Converted resolver stream site call)
    (lexed : tokenize source = .ok stream) (fits : site.stop ≤ stop)
    (tail : stream.Rereads resolver .code site.stop stop rest later)
    (span : stream.Span .code site.stop stop) (movable : stream.Movable ⟨site.start, stop⟩)
    (fresh : Fresh rest)
    (text : (convertSpan resolver stream site.start stop).text =
      site.replacementText ++ (convertSpan resolver stream site.stop stop).text)
    (carries : ∀ range ∈ site.shape.copied call,
      Carries (convertSpan resolver stream range.start range.stop).text
        (CopiedCode (codeOf (stream.slice range)))) :
    stream.Rereads resolver .code site.start stop rest later := by
  have callEq := converted.call_eq
  have filled := converted.start_lt_stop
  have bounded := span.lt_length
  have isCall := isStaticCall_of_legacyCall? lexed callEq
  rw [← converted.stop_eq] at isCall
  have noDigit := tail.noDigit span fresh fun inside next found => by
    have before : call.stop < stop := by rwa [← converted.stop_eq]
    rw [converted.stop_eq] at found
    exact movable.apart site.start call callEq (Nat.le_refl _) before next found
  obtain ⟨copyTail, copiedTail, readsTail⟩ := tail.reads
  obtain ⟨inner, allCopied, readsCall⟩ := converted.reads carries noDigit readsTail
  have nested := nested_copies allCopied fun range isRange =>
    nested_of_mem_copied lexed callEq isRange
  have nonempty (begins : BeginsName
      ((convertSpan resolver stream site.stop stop).text ++ rest)) : copyTail ≠ [] := by
    intro none
    exact tail.not_blank span fresh begins (codeOf_eq_nil_iff.mp (copiedTail.eq_nil none))
  obtain ⟨copy, copied, whole⟩ := copiedTail.exists_behind_call isCall
    (fun name => site.shape.isAccess_replacementTokens name nested) nonempty readsCall
  have parts := stream.slice_append_slice (Nat.le_of_lt filled) fits
  constructor
  · rw [text, List.append_assoc]
    refine .of_fresh ?_ _
    intro first isFirst
    rw [List.head?_append, converted.head?_replacementText] at isFirst
    cases isFirst
    rfl
  · rw [text, List.append_assoc]
    refine ⟨copy, ?_, whole⟩
    rwa [← parts, codeOf_append]

end Rereads

theorem Span.rereads {source : Text} {later : List Token} (lexed : tokenize source = .ok stream)
    (span : stream.Span mode start stop) (movable : stream.Movable ⟨start, stop⟩)
    (fresh : Fresh rest) (reads : Reads .code rest later) :
    stream.Rereads resolver mode start stop rest later := by
  generalize left : stream.length - start = remaining
  induction remaining using Nat.strongRecOn generalizing start stop mode rest later with
  | ind remaining ih =>
      have bounded := span.lt_length
      rcases Nat.eq_or_lt_of_le span.ordered with rfl | inside
      · have isCode := span.empty
        subst isCode
        exact .empty fresh reads
      · have found := List.getElem?_eq_getElem (Nat.lt_trans inside bounded)
        rcases @text_convertSpan resolver _ _ _ _ found inside with
          ⟨site, dispatched, fits, text⟩ | text
        · obtain ⟨rfl, call, converted⟩ := dispatch?_eq_some dispatched
          have filled := converted.start_lt_stop
          have isCode := span.mode_of_legacyCall? converted.call_eq
          subst isCode
          have tail := span.behind (Nat.le_of_lt filled) fits
            (exists_lexes_call lexed converted.call_eq converted.stop_eq (by omega))
          have rereadsTail := ih _ (by omega) tail
            (movable.within (Nat.le_of_lt filled) (Nat.le_refl _)) fresh reads rfl
          refine .of_call converted lexed fits rereadsTail tail movable fresh text ?_
          intro range member behind tokens freshBehind readsBehind
          have lower := CallShape.start_of_mem_copied converted.call_eq member
          have upper := CallShape.stop_of_mem_copied converted.call_eq member
          rw [← converted.stop_eq] at upper
          have inner := movable.within (Nat.le_of_lt lower) (Nat.le_trans (Nat.le_of_lt upper) fits)
          exact (ih _ (by omega) (span_of_mem_copied lexed converted.call_eq member) inner
            freshBehind readsBehind rfl).reads
        · have tail := span.tail found inside
          refine .of_token (ih _ (by omega) tail (movable.within (Nat.le_succ start) (Nat.le_refl _))
            fresh reads rfl) span movable found inside text ?_
          intro further
          have isNext := List.getElem?_eq_getElem (Nat.lt_trans further bounded)
          exact (ih _ (by omega) (tail.tail isNext further)
            (movable.within (Nat.le_add_right start 2) (Nat.le_refl _)) fresh reads rfl).copies

end TokenStream

/-- The code of a replacement is made up of names, delimiters and copies of the code in its call. -/
theorem Converted.codeOf_replacement {source : Text} {site : CallSite} {call : LegacyCall}
    (converted : Converted resolver stream site call) (lexed : tokenize source = .ok stream)
    (movable : stream.Movable site.range) :
    ∃ copies, List.Forall₂ (fun range copy => CopiedCode (codeOf (stream.slice range)) copy)
        (site.shape.copied call) copies ∧
      codeOf site.replacement =
        site.shape.replacementTokens site.dependency.variableName copies := by
  have callEq := converted.call_eq
  obtain ⟨copies, allCopied, reads⟩ := converted.reads (fun range member => by
    have lower := CallShape.start_of_mem_copied callEq member
    have upper := CallShape.stop_of_mem_copied callEq member
    rw [← converted.stop_eq] at upper
    intro behind tokens fresh reads
    have span := TokenStream.span_of_mem_copied lexed callEq member
    exact (span.rereads lexed (movable.within (Nat.le_of_lt lower) (Nat.le_of_lt upper)) fresh
      reads).reads)
    (rfl : NoDigit []) (Reads.nil .code)
  refine ⟨copies, allCopied, ?_⟩
  have whole := reads.resolve_right fun ⟨begins, _⟩ => by contradiction
  obtain ⟨place, lexes, isLexed, same⟩ := scans_of_synthesize converted.replacement_eq
  rw [List.append_nil, List.append_nil, CallSite.replacementText,
    textOf_of_synthesize converted.replacement_eq] at whole
  rw [same, codeOf_relined, whole.read isLexed]

end Converted

end ConstructorInjection
