import Mathlib.Data.List.Basic
import Mathlib.Tactic.Common
import ConstructorInjection.Proofs.ParameterLists
import ConstructorInjection.Proofs.StaticCalls

/-!
No call is lost. A call with a replacement that stands in the arguments of a converted call is
converted with it, and the scan of a class body passes over no others than those in its static parts.
-/

namespace ConstructorInjection

theorem Uncut.append {left right : List Token} {depth behind : Nat} (first : Uncut depth left)
    (opened : openBehind depth left = some behind) (second : Uncut behind right) :
    Uncut depth (left ++ right) := by
  intro before comma after cut isComma
  rcases List.append_eq_append_iff.mp cut with ⟨more, rfl, later⟩ | ⟨more, longer, later⟩
  · rw [openBehind_append, opened, Option.bind_some]
    exact second more comma after later isComma
  · cases more with
    | nil =>
        rw [List.append_nil] at longer
        rw [← longer, opened]
        exact second [] comma after (by simpa using later.symm) isComma
    | cons token more =>
        cases later
        exact first before comma more longer isComma

theorem Level.uncut {tokens : List Token} (level : Level tokens) {depth : Nat}
    (inside : depth ≠ 0) : Uncut depth tokens := by
  rintro before comma after rfl _ closed
  obtain ⟨more, opened⟩ := level.openBehind_prefix depth
  rw [opened, Option.some.injEq] at closed
  omega

/-- What stands between two delimiters is cut by no comma. -/
theorem Uncut.pair {opener closer : Token} {inner : List Token}
    (opens : opener.kind.isOpener = true) (closes : closer.kind.isCloser = true)
    (level : Level inner) : Uncut 0 (opener :: inner ++ [closer]) := by
  have noComma {token : Token} (delimits : token.kind.isOpener = true ∨
      token.kind.isCloser = true) : ∀ other ∈ [token], other.kind ≠ .comma := by
    intro other member isComma
    rw [List.mem_singleton.mp member] at isComma
    rw [isComma] at delimits
    revert delimits
    decide
  have opened : openBehind 0 [opener] = some 1 := by simp [openBehind, opens]
  have uncut := (Uncut.of_plain (noComma (.inl opens)) 0).append opened
    ((level.uncut Nat.one_ne_zero).append (level.openBehind 1)
      (Uncut.of_plain (noComma (.inr closes)) 1))
  simpa using uncut

/-- Tokens that close what they open end before the delimiter that closes what is around them. -/
theorem Level.ends_within {before tokens tail rest behind : List Token} {closer : Token}
    (level : Level (before ++ tail)) (levelTokens : Level tokens)
    (closes : closer.kind.isCloser = true)
    (cut : tokens ++ behind = tail ++ closer :: rest) : ∃ after, tail = tokens ++ after := by
  rcases List.append_eq_append_iff.mp cut with ⟨after, within, _⟩ | ⟨more, longer, later⟩
  · exact ⟨after, within⟩
  · cases more with
    | nil => exact ⟨[], by simpa using longer.symm⟩
    | cons first more =>
        cases later
        -- the closer stands in tokens that must not reach it
        rw [longer] at levelTokens
        obtain ⟨depth, openedBefore, openedTail⟩ := openBehind_parts level
        obtain ⟨left, openedAlone, closedBehind⟩ := openBehind_parts levelTokens
        have shifted := openBehind_add openedAlone depth
        rw [Nat.zero_add, openedTail, Option.some.injEq] at shifted
        have closedUp : left = 0 := by omega
        rw [closedUp, ConstructorInjection.openBehind, TokenKind.isOpener_of_isCloser closes,
          closes] at closedBehind
        contradiction

namespace TokenStream

/-- Wherever a list is cut into items, one of them is being read. -/
theorem exists_splitFrom_append {start index depth behind : Nat} {before : List Token}
    (rest : List Token) (ordered : start ≤ index)
    (opened : ConstructorInjection.openBehind depth before = some behind) :
    ∃ items opening, splitFrom start index depth (before ++ rest) =
        items ++ splitFrom opening (index + before.length) behind rest ∧
      opening ≤ index + before.length := by
  induction before generalizing start index depth with
  | nil =>
      cases opened
      exact ⟨[], start, rfl, ordered⟩
  | cons token before ih =>
      have place : index + (token :: before).length = index + 1 + before.length := by
        rw [List.length_cons]
        omega
      rw [place]
      rw [openBehind] at opened
      rw [List.cons_append, splitFrom]
      split at opened
      next opener =>
        rw [if_pos opener]
        exact ih (by omega) opened
      next noOpener =>
        rw [if_neg noOpener]
        split at opened
        next closer =>
          rw [if_pos closer]
          split at opened
          next => contradiction
          next => exact ih (by omega) opened
        next noCloser =>
          rw [if_neg noCloser]
          split
          next =>
            obtain ⟨items, opening, same, bound⟩ := ih (Nat.le_refl _) opened
            exact ⟨⟨start, index⟩ :: items, opening, by rw [same, List.cons_append], bound⟩
          next => exact ih (by omega) opened

theorem splitFrom_eq_cons (start index depth : Nat) (tokens : List Token) :
    ∃ item later, splitFrom start index depth tokens = item :: later ∧ item.start = start ∧
      index ≤ item.stop := by
  induction tokens generalizing index depth with
  | nil => exact ⟨⟨start, index⟩, [], rfl, rfl, Nat.le_refl _⟩
  | cons token rest ih =>
      rw [splitFrom]
      split
      · obtain ⟨item, later, same, first, bound⟩ := ih (index + 1) (depth + 1)
        exact ⟨item, later, same, first, by omega⟩
      · split
        · obtain ⟨item, later, same, first, bound⟩ := ih (index + 1) (depth - 1)
          exact ⟨item, later, same, first, by omega⟩
        · split
          · exact ⟨⟨start, index⟩, _, rfl, rfl, Nat.le_refl _⟩
          · obtain ⟨item, later, same, first, bound⟩ := ih (index + 1) depth
            exact ⟨item, later, same, first, by omega⟩

/-- Tokens that no comma cuts stand in one item of the list around them. -/
theorem exists_item_around (start : Nat) {before tokens after : List Token}
    (level : Level (before ++ (tokens ++ after))) (levelTokens : Level tokens)
    (uncut : Uncut 0 tokens) :
    ∃ item ∈ splitFrom start start 0 (before ++ (tokens ++ after)),
      item.start ≤ start + before.length ∧ start + before.length + tokens.length ≤ item.stop := by
  obtain ⟨depth, opened, _⟩ := openBehind_parts level
  obtain ⟨items, opening, split, bound⟩ :=
    exists_splitFrom_append (tokens ++ after) (Nat.le_refl start) opened
  have uncutInside : Uncut depth tokens := by
    by_cases outside : depth = 0
    · rwa [outside]
    · exact levelTokens.uncut outside
  rw [splitFrom_append_uncut uncutInside (levelTokens.openBehind depth)] at split
  obtain ⟨item, later, same, first, reach⟩ :=
    splitFrom_eq_cons opening (start + before.length + tokens.length) depth after
  refine ⟨item, ?_, by omega, reach⟩
  rw [split, same]
  simp

/-- Trimming keeps every significant token. -/
theorem trimTrivia_around {stream : TokenStream} {range : IndexRange} {index : Nat} {token : Token}
    (inside : range.start ≤ index ∧ index < range.stop) (bounded : range.stop ≤ stream.length)
    (found : stream[index]? = some token) (significant : token.isTrivia = false) :
    (stream.trimTrivia range).start ≤ index ∧ index < (stream.trimTrivia range).stop := by
  have cut : stream.drop range.start = stream.slice range ++ stream.drop range.stop := by
    rw [← slice_to_end, ← slice_to_end, slice_append_slice _ (by omega) bounded]
  have size : range.start + (stream.slice range).length = range.stop := by
    rw [length_slice]
    omega
  obtain ⟨before, core, behind, parts, blankBefore, blankBehind, trimmed, _⟩ :=
    trimTrivia_parts (by omega) cut
  rw [size] at trimmed
  rw [trimmed]
  simp only
  have place : (stream.slice range)[index - range.start]? = some token := by
    rw [getElem?_slice, if_pos (by omega), Nat.add_sub_cancel' inside.1, found]
  rw [parts] at place
  have noBlank {tokens : List Token} (blank : Blank tokens) : token ∉ tokens := by
    intro member
    rw [blank token member] at significant
    contradiction
  constructor
  · by_contra early
    rw [List.getElem?_append_left (by omega)] at place
    exact noBlank blankBefore (List.mem_of_getElem? place)
  · by_contra late
    rw [List.getElem?_append_right (by omega), List.getElem?_append_right (by omega)] at place
    exact noBlank blankBehind (List.mem_of_getElem? place)

theorem name_of_isReceiver {stream : TokenStream} {index : Nat}
    (receiver : stream.isReceiver index = true) :
    ∃ token, stream[index]? = some token ∧ token.kind.isName = true ∧
      (token.text.equalIgnoringCase "Mage" = true ∨
        token.text.equalIgnoringCase "\\Mage" = true) := by
  rw [isReceiver, Bool.and_eq_true, Option.any_eq_true] at receiver
  obtain ⟨⟨token, found, named⟩, _⟩ := receiver
  simp only [Token.isNamed, Bool.or_eq_true, Bool.and_eq_true] at named
  exact ⟨token, found, by tauto, by tauto⟩

theorem isReceiver_eq_false_of_nextOfKind? {stream : TokenStream} {kind : TokenKind}
    {index found place : Nat} (next : stream.nextOfKind? kind index = some found)
    (behind : index < place) (before : place < found) : stream.isReceiver place = false := by
  rw [Bool.eq_false_iff]
  intro receiver
  obtain ⟨token, atPlace, isName, _⟩ := name_of_isReceiver receiver
  obtain ⟨significant, _⟩ := nextOfKind?_eq_some_iff.mp next
  rw [nextSignificant?, significantFrom?, firstIn?_eq_some_iff] at significant
  have blank := significant.2 place (Nat.succ_le_of_lt behind) before
  rw [Passes, atPlace, Option.any_some, Token.isTrivia] at blank
  cases kind : token.kind <;> rw [kind] at isName blank <;> simp [TokenKind.isName,
    TokenKind.isTrivia] at isName blank

theorem isReceiver_eq_false_of_hasKind {stream : TokenStream} {kind : TokenKind} {index : Nat}
    (noName : kind.isName = false) (hasKind : stream.hasKind kind index = true) :
    stream.isReceiver index = false := by
  rw [Bool.eq_false_iff]
  intro receiver
  obtain ⟨token, found, isName, _⟩ := name_of_isReceiver receiver
  obtain ⟨other, same, rfl⟩ := hasKind_iff.mp hasKind
  rw [found, Option.some.injEq] at same
  rw [same, noName] at isName
  contradiction

/-- The tokens of a call: a head in which nothing is delimited, and arguments in parentheses. -/
structure CallTokens (stream : TokenStream) (index : Nat) (call : LegacyCall)
    (head inner rest : List Token) (opener closer : Token) : Prop where
  cut : stream.drop index = head ++ (opener :: inner ++ closer :: rest)
  begins : ∃ receiver blanks colons others, head = receiver :: (blanks ++ colons :: others) ∧
    receiver.kind.isName = true ∧ Blank blanks ∧ colons.kind = .doubleColon
  opening_eq : call.opening = index + head.length
  closing_eq : call.closing = call.opening + 1 + inner.length
  plain : ∀ token ∈ head, (token.kind.isOpener = false ∧ token.kind.isCloser = false) ∧
    token.kind ≠ .comma
  opens : opener.kind.isOpener = true
  closes : closer.kind.isCloser = true
  level : Level inner

theorem exists_callTokens {stream : TokenStream} {index : Nat} {call : LegacyCall}
    (result : stream.legacyCall? index = some call) :
    ∃ head inner rest opener closer, CallTokens stream index call head inner rest opener closer := by
  obtain ⟨receiver, colons, name, _, colonsNext, nameNext, _, openingNext, closing, _, _⟩ :=
    legacyCall?_eq_some result
  obtain ⟨first, found, isName, _⟩ := name_of_isReceiver receiver
  obtain ⟨blanks, second, behindColons, cut, rfl, isColons, blank⟩ :=
    (nextOfKind?_iff_append _ rfl).mp colonsNext
  obtain ⟨more, third, behindName, cutMore, rfl, isIdentifier, blankMore⟩ :=
    (nextOfKind?_iff_append _ rfl).mp nameNext
  obtain ⟨last, fourth, behindOpening, cutLast, opening, isParen, blankLast⟩ :=
    (nextOfKind?_iff_append _ rfl).mp openingNext
  obtain ⟨opener, inner, closer, rest, cutOpening, closingEq, opens, closes, level⟩ :=
    matchingClose?_eq_some_iff.mp closing
  let head := first :: (blanks ++ second :: (more ++ third :: last))
  have plainBlank {tokens : List Token} (isBlank : Blank tokens) (token : Token)
      (member : token ∈ tokens) : (token.kind.isOpener = false ∧ token.kind.isCloser = false) ∧
        token.kind ≠ .comma := by
    have trivia := isBlank token member
    rw [Token.isTrivia] at trivia
    cases kind : token.kind <;> rw [kind] at trivia <;>
      first | contradiction | exact ⟨⟨rfl, rfl⟩, by decide⟩
  have plainKind {token : Token} {kind : TokenKind} (same : token.kind = kind)
      (plain : (kind.isOpener = false ∧ kind.isCloser = false) ∧ kind ≠ .comma) :
      (token.kind.isOpener = false ∧ token.kind.isCloser = false) ∧ token.kind ≠ .comma := by
    rwa [same]
  refine ⟨head, inner, rest, opener, closer, ?_,
    ⟨first, blanks, second, more ++ third :: last, rfl, isName, blank, isColons⟩, ?_, closingEq, ?_,
    opens, closes, level⟩
  · have behind := drop_eq_cons_iff.mpr ⟨found, cut⟩
    have behindSecond := drop_of_drop_eq_cons cut
    have behindThird := drop_of_drop_eq_cons cutMore
    have behindFourth := drop_of_drop_eq (cutLast)
    rw [← opening, cutOpening] at behindFourth
    rw [behind, ← behindSecond, cutMore, ← behindThird, cutLast, ← behindFourth]
    simp [head]
  · rw [opening]
    simp only [head, List.length_cons, List.length_append]
    omega
  · intro token member
    simp only [head, List.mem_cons, List.mem_append] at member
    rcases member with rfl | inBlanks | rfl | inMore | rfl | inLast
    · cases kind : token.kind <;> rw [kind] at isName <;>
        first | contradiction | exact ⟨⟨rfl, rfl⟩, by decide⟩
    · exact plainBlank blank token inBlanks
    · exact plainKind isColons (by decide)
    · exact plainBlank blankMore token inMore
    · exact plainKind isIdentifier (by decide)
    · exact plainBlank blankLast token inLast

/-- The tokens of a call, from its receiver through its parenthesis. -/
theorem CallTokens.level_uncut {stream : TokenStream} {index : Nat} {call : LegacyCall}
    {head inner rest : List Token} {opener closer : Token}
    (tokens : CallTokens stream index call head inner rest opener closer) :
    Level (head ++ (opener :: inner ++ [closer])) ∧
      Uncut 0 (head ++ (opener :: inner ++ [closer])) ∧
      call.stop = index + (head ++ (opener :: inner ++ [closer])).length := by
  have levelHead := Level.of_plain fun token member => (tokens.plain token member).1
  refine ⟨levelHead.append (Level.pair tokens.opens tokens.closes tokens.level), ?_, ?_⟩
  · exact (Uncut.of_plain (fun token member => (tokens.plain token member).2) 0).append levelHead
      (Uncut.pair tokens.opens tokens.closes tokens.level)
  · rw [LegacyCall.stop, tokens.closing_eq, tokens.opening_eq]
    simp only [List.length_append, List.length_cons, List.length_nil]
    omega

theorem CallTokens.getElem?_closing {stream : TokenStream} {index : Nat} {call : LegacyCall}
    {head inner rest : List Token} {opener closer : Token}
    (tokens : CallTokens stream index call head inner rest opener closer) :
    stream[call.closing]? = some closer := by
  have cut : stream.drop index = (head ++ opener :: inner) ++ closer :: rest := by
    rw [tokens.cut]
    simp
  rw [tokens.closing_eq, tokens.opening_eq, ← getElem?_of_drop_eq cut]
  congr 1
  simp only [List.length_append, List.length_cons]
  omega

/-- A call that begins between two delimiters ends between them. -/
theorem exists_parts_around {stream : TokenStream} {start place : Nat} {call : LegacyCall}
    {between rest : List Token} {closer : Token} (result : stream.legacyCall? place = some call)
    (cut : stream.drop start = between ++ closer :: rest) (level : Level between)
    (closes : closer.kind.isCloser = true) (lower : start ≤ place)
    (upper : place < start + between.length) :
    ∃ before tokens after, between = before ++ (tokens ++ after) ∧ Level tokens ∧
      Uncut 0 tokens ∧ start + before.length = place ∧ place + tokens.length = call.stop := by
  obtain ⟨_, _, behind, _, _, tokens⟩ := exists_callTokens result
  obtain ⟨levelTokens, uncut, stop⟩ := tokens.level_uncut
  have split := List.take_append_drop (place - start) between
  have size : start + (between.take (place - start)).length = place := by
    rw [List.length_take]
    omega
  have fromPlace : stream.drop place = between.drop (place - start) ++ closer :: rest := by
    rw [← split, List.append_assoc] at cut
    have atPlace := drop_of_drop_eq cut
    rwa [size] at atPlace
  rw [tokens.cut] at fromPlace
  rw [← split] at level
  obtain ⟨after, tail⟩ := level.ends_within levelTokens closes
    (show _ ++ behind = _ ++ closer :: rest by rw [← fromPlace]; simp)
  refine ⟨_, _, after, ?_, levelTokens, uncut, size, stop.symm⟩
  rw [← tail, split]

/-- Trimming leaves a call in an item of a list as it is. -/
theorem trimTrivia_around_call {stream : TokenStream} {place : Nat} {call : LegacyCall}
    {item : IndexRange} (result : stream.legacyCall? place = some call)
    (lower : item.start ≤ place) (upper : call.stop ≤ item.stop)
    (bounded : item.stop ≤ stream.length) :
    stream.isSignificant item = true ∧ (stream.trimTrivia item).start ≤ place ∧
      call.stop ≤ (stream.trimTrivia item).stop := by
  obtain ⟨receiver, _⟩ := legacyCall?_eq_some result
  obtain ⟨first, found, isName, _⟩ := name_of_isReceiver receiver
  obtain ⟨_, _, _, _, last, tokens⟩ := exists_callTokens result
  have order := (legacyCall?_order result).1
  have closing := tokens.closing_eq
  have firstSignificant : first.isTrivia = false := by
    rw [Token.isTrivia]
    cases kind : first.kind <;> rw [kind] at isName <;> first | contradiction | rfl
  have lastSignificant : last.isTrivia = false := by
    have closes := tokens.closes
    rw [Token.isTrivia]
    cases kind : last.kind <;> rw [kind] at closes <;> first | contradiction | rfl
  rw [LegacyCall.stop] at upper ⊢
  have insideFirst : item.start ≤ place ∧ place < item.stop := by omega
  have insideLast : item.start ≤ call.closing ∧ call.closing < item.stop := by omega
  refine ⟨?_, (trimTrivia_around insideFirst bounded found firstSignificant).1,
    (trimTrivia_around insideLast bounded tokens.getElem?_closing lastSignificant).2⟩
  rw [isSignificant, List.any_eq_true]
  exact ⟨first, mem_slice_iff.mpr ⟨place, insideFirst.1, insideFirst.2, found⟩,
    by rw [firstSignificant]; rfl⟩

/-- A call that begins in the arguments of another one ends there, in the same argument. -/
theorem exists_argument_around {stream : TokenStream} {index place : Nat}
    {outer inner : LegacyCall} (outerCall : stream.legacyCall? index = some outer)
    (innerCall : stream.legacyCall? place = some inner) (behind : outer.opening < place)
    (before : place < outer.closing) :
    inner.stop ≤ outer.closing ∧
      ∃ argument ∈ outer.arguments, argument.start ≤ place ∧ inner.stop ≤ argument.stop := by
  obtain ⟨_, _, _, _, _, _, _, _, _, _, argumentsEq⟩ := legacyCall?_eq_some outerCall
  obtain ⟨_, items, rest, opener, closer, outerTokens⟩ := exists_callTokens outerCall
  have closing := outerTokens.closing_eq
  have cut : stream.drop (outer.opening + 1) = items ++ closer :: rest := by
    have cut := outerTokens.cut
    rw [List.cons_append] at cut
    rw [outerTokens.opening_eq]
    exact drop_of_drop_eq_cons cut
  obtain ⟨earlier, tokens, after, parts, level, uncut, first, last⟩ := exists_parts_around innerCall
    cut outerTokens.level outerTokens.closes behind (by omega)
  have levelItems := outerTokens.level
  rw [parts] at levelItems
  obtain ⟨item, member, lower, upper⟩ :=
    exists_item_around (outer.opening + 1) levelItems level uncut
  rw [← parts] at member
  have total := congrArg List.length parts
  simp only [List.length_append] at total
  have stops := stop_le_of_mem_splitFrom member
  have bounded : outer.closing < stream.length := by
    have size := congrArg List.length cut
    simp only [List.length_drop, List.length_append, List.length_cons] at size
    omega
  obtain ⟨significant, starts, reach⟩ := trimTrivia_around_call innerCall
    (show item.start ≤ place by omega) (show inner.stop ≤ item.stop by omega) (by omega)
  refine ⟨by omega, _, ?_, starts, reach⟩
  rw [argumentsEq, splitTopLevel, slice_of_drop_eq cut closing]
  exact List.mem_map.mpr ⟨item, List.mem_filter.mpr ⟨member, significant⟩, rfl⟩

end TokenStream

namespace CallShape

theorem accepts_of_select? {method : Text} {arguments : Nat} {shape : CallShape}
    (selected : select? method arguments = some shape) :
    method.equalIgnoringCase shape.method = true ∧ arguments ≤ shape.maxArguments := by
  have accepted := List.find?_some selected
  simp only [accepts, Bool.and_eq_true, decide_eq_true_eq] at accepted
  exact ⟨accepted.1.1, accepted.2⟩

/-- The receiver is not the name of a method that is converted. -/
theorem method_ne_receiver {method : Text} {shape : CallShape}
    (same : method.equalIgnoringCase shape.method = true) :
    ¬ (method.equalIgnoringCase "Mage" = true ∨ method.equalIgnoringCase "\\Mage" = true) := by
  simp only [Text.equalIgnoringCase, beq_iff_eq] at same ⊢
  rw [same]
  cases shape <;> decide

/-- The arguments that are not copied are constant strings. -/
theorem copied_or_constant {shape : CallShape} {resolver : Resolver} {stream : TokenStream}
    {call : LegacyCall} {dependency : Dependency}
    (few : call.arguments.length ≤ shape.maxArguments)
    (resolved : shape.dependency? resolver stream call = some dependency) {argument : IndexRange}
    (member : argument ∈ call.arguments) :
    call.inner ∈ shape.copied call ∨ argument ∈ shape.copied call ∨
      (stream.constantArgument? argument).isSome = true := by
  have first (lookup : shape.isAliasLookup = true) : ∀ head ∈ call.arguments.head?,
      (stream.constantArgument? head).isSome = true := by
    intro head isHead
    cases shape <;> first | contradiction |
      simp only [dependency?, Option.map_eq_some_iff, Option.bind_eq_bind,
        Option.bind_eq_some_iff, Option.mem_def.mp isHead, Option.some.injEq] at resolved
    case helper | getSingleton | getResourceSingleton =>
      obtain ⟨_, rfl, _, constant, _⟩ := resolved
      rw [constant]
      rfl
    case getModel | getResourceModel =>
      obtain ⟨_, ⟨_, rfl, _, constant, _⟩, _⟩ := resolved
      rw [constant]
      rfl
  cases arguments : call.arguments with
  | nil => simp [arguments] at member
  | cons head rest =>
      rw [arguments] at first few member
      rw [List.length_cons] at few
      cases shape <;> simp only [maxArguments] at few <;> simp only [copied, arguments]
      case dispatchEvent | logException | log => exact .inl (List.mem_singleton_self _)
      case getStoreConfig | getStoreConfigFlag =>
        rw [List.take_of_length_le (by simpa using few)]
        exact .inr (.inl member)
      case helper | getSingleton | getResourceSingleton =>
        have none : rest = [] := List.eq_nil_of_length_eq_zero (by omega)
        rw [none, List.mem_singleton] at member
        exact .inr (.inr (first rfl argument (by simp [member])))
      case getModel | getResourceModel =>
        rw [List.drop_succ_cons, List.drop_zero, List.take_of_length_le (by omega)]
        rcases List.mem_cons.mp member with rfl | inRest
        · exact .inr (.inr (first rfl argument rfl))
        · exact .inr (.inl inRest)

theorem inner_or_argument_of_mem_copied {shape : CallShape} {call : LegacyCall} {range : IndexRange}
    (member : range ∈ shape.copied call) : range = call.inner ∨ range ∈ call.arguments := by
  cases shape <;> simp only [copied, List.not_mem_nil] at member
  case getModel | getResourceModel =>
    exact .inr (List.mem_of_mem_drop (List.mem_of_mem_take member))
  case getStoreConfig | getStoreConfigFlag => exact .inr (List.mem_of_mem_take member)
  case dispatchEvent | logException | log => exact .inl (List.mem_singleton.mp member)

end CallShape

namespace Converted

variable {resolver : Resolver} {stream : TokenStream} {site : CallSite} {call : LegacyCall}

/-- Behind its own receiver, a call has receivers in its arguments only. -/
theorem inside_arguments (converted : Converted resolver stream site call) {index : Nat}
    (receiver : stream.isReceiver index = true) (behind : site.start < index)
    (before : index < site.stop) : call.opening < index ∧ index < call.closing := by
  obtain ⟨_, colons, name, token, colonsNext, nameNext, found, openingNext, _, methodEq, _⟩ :=
    TokenStream.legacyCall?_eq_some converted.call_eq
  obtain ⟨_, _, _, opener, closer, tokens⟩ := TokenStream.exists_callTokens converted.call_eq
  have noReceiver {place : Nat} (none : stream.isReceiver place = false) : place ≠ index := by
    rintro rfl
    rw [receiver] at none
    contradiction
  have outside {kind : TokenKind} {first last : Nat} (next : stream.nextOfKind? kind first = some last)
      (between : first < index) : last ≤ index := by
    by_contra inside
    rw [TokenStream.isReceiver_eq_false_of_nextOfKind? next between (by omega)] at receiver
    contradiction
  have atColons := noReceiver (TokenStream.isReceiver_eq_false_of_hasKind rfl
    (TokenStream.nextOfKind?_eq_some_iff.mp colonsNext).2)
  have atOpening := noReceiver (TokenStream.isReceiver_eq_false_of_hasKind rfl
    (TokenStream.nextOfKind?_eq_some_iff.mp openingNext).2)
  have atName : name ≠ index := by
    rintro rfl
    obtain ⟨other, same, _, named⟩ := TokenStream.name_of_isReceiver receiver
    rw [found, Option.some.injEq] at same
    rw [← same, ← methodEq] at named
    exact CallShape.method_ne_receiver (CallShape.accepts_of_select? converted.shape_eq).1 named
  have pastColons := outside colonsNext behind
  have pastName := outside nameNext (by omega)
  have pastOpening := outside openingNext (by omega)
  refine ⟨by omega, ?_⟩
  have atClosing : call.closing ≠ index := by
    rintro rfl
    obtain ⟨last, atClosing, isName, _⟩ := TokenStream.name_of_isReceiver receiver
    have closes := tokens.closes
    rw [tokens.getElem?_closing, Option.some.injEq] at atClosing
    rw [atClosing] at closes
    cases kind : last.kind <;> rw [kind] at isName closes <;> contradiction
  rw [converted.stop_eq, LegacyCall.stop] at before
  omega

/-- A call with a replacement that stands behind the receiver of a converted call stands in a range
that is copied. -/
theorem exists_copied_around (converted : Converted resolver stream site call)
    {inner : CallSite} {innerCall : LegacyCall}
    (innerConverted : Converted resolver stream inner innerCall) (behind : site.start < inner.start)
    (before : inner.start < site.stop) :
    ∃ range ∈ site.shape.copied call, range.start ≤ inner.start ∧ inner.stop ≤ range.stop := by
  obtain ⟨receiver, _⟩ := TokenStream.legacyCall?_eq_some innerConverted.call_eq
  obtain ⟨first, found, isName, _⟩ := TokenStream.name_of_isReceiver receiver
  obtain ⟨opened, closed⟩ := converted.inside_arguments receiver behind before
  obtain ⟨reach, argument, member, lower, upper⟩ := TokenStream.exists_argument_around
    converted.call_eq innerConverted.call_eq opened closed
  have nonempty := innerConverted.start_lt_stop
  rw [← innerConverted.stop_eq] at reach upper
  rcases CallShape.copied_or_constant (CallShape.accepts_of_select? converted.shape_eq).2
    converted.dependency_eq member with whole | copied | constant
  · exact ⟨_, whole, opened, reach⟩
  · exact ⟨argument, copied, lower, upper⟩
  · obtain ⟨text, constant⟩ := Option.isSome_iff_exists.mp constant
    rw [TokenStream.constantArgument?] at constant
    split at constant
    next single =>
      obtain ⟨token, literal, _⟩ := Option.bind_eq_some_iff.mp constant
      obtain ⟨atStart, isString⟩ := Option.filter_eq_some_iff.mp literal
      have same : argument.start = inner.start := by
        rw [IndexRange.length] at single
        omega
      rw [same, found, Option.some.injEq] at atStart
      rw [beq_iff_eq] at isString
      rw [atStart, isString] at isName
      contradiction
    next => contradiction

end Converted

/-- A converted span misses no call with a replacement that ends in it. -/
theorem exists_site_around {resolver : Resolver} {stream : TokenStream} {start stop : Nat}
    {site : CallSite} (dispatched : dispatch? resolver stream site.start = some site)
    (lower : start ≤ site.start) (fits : site.stop ≤ stop) :
    ∃ found ∈ (convertSpan resolver stream start stop).sites,
      found.start ≤ site.start ∧ site.start < found.stop := by
  obtain ⟨_, call, converted⟩ := dispatch?_eq_some dispatched
  have nonempty := converted.start_lt_stop
  obtain ⟨receiver, _⟩ := TokenStream.legacyCall?_eq_some converted.call_eq
  have present : site.start < stream.length := TokenStream.index_lt_of_legacyCall? converted.call_eq
  generalize left : stream.length - start = remaining
  induction remaining using Nat.strongRecOn generalizing start with
  | ind remaining ih =>
      rw [convertSpan]
      rw [dif_pos (by omega)]
      by_cases here : start = site.start
      · subst here
        rw [dispatched, Option.filter_some, if_pos (by simpa using fits)]
        exact ⟨site, List.mem_cons_self, Nat.le_refl _, nonempty⟩
      · split
        next other result =>
          obtain ⟨found, _⟩ := Option.filter_eq_some_iff.mp result
          obtain ⟨sameStart, _⟩ := dispatch?_eq_some found
          by_cases inside : site.start < other.stop
          · exact ⟨other, List.mem_cons_self, by omega, inside⟩
          · have further : max (start + 1) other.stop ≤ site.start := by omega
            obtain ⟨later, member, around⟩ := ih _ (by omega) further rfl
            exact ⟨later, List.mem_cons_of_mem _ member, around⟩
        next => exact ih _ (by omega) (by omega) rfl

/-- A call with a replacement that stands behind the receiver of a converted call is converted with
it. -/
theorem CallSite.within_of_inside {resolver : Resolver} {stream : TokenStream}
    {inner outer : CallSite} (outerDispatched : dispatch? resolver stream outer.start = some outer)
    (innerDispatched : dispatch? resolver stream inner.start = some inner)
    (behind : outer.start < inner.start) (before : inner.start < outer.stop) :
    inner.Within outer := by
  generalize distance : inner.start - outer.start = remaining
  induction remaining using Nat.strongRecOn generalizing outer with
  | ind remaining ih =>
      obtain ⟨_, call, converted⟩ := dispatch?_eq_some outerDispatched
      obtain ⟨_, innerCall, innerConverted⟩ := dispatch?_eq_some innerDispatched
      obtain ⟨range, copied, lower, upper⟩ :=
        converted.exists_copied_around innerConverted behind before
      obtain ⟨middle, member, first, last⟩ := exists_site_around innerDispatched lower upper
      obtain ⟨inSpan, _, middleDispatched⟩ := convertSpan_sites member
      have start := CallShape.start_of_mem_copied converted.call_eq copied
      have listed : middle ∈ outer.nested := by
        rw [converted.nested_eq]
        exact List.mem_flatMap.mpr ⟨range, copied, member⟩
      by_cases same : middle.start = inner.start
      · rw [same, innerDispatched, Option.some.injEq] at middleDispatched
        subst middleDispatched
        exact .nested listed (.itself _)
      · exact .nested listed (ih _ (by omega) middleDispatched (by omega) last rfl)

namespace Converter

/-- The scan passes over a call with a replacement only in a skipped range or in a call that it has
found. -/
theorem exists_sitesFrom_around {converter : Converter} {stream : TokenStream} {stop index : Nat}
    {skipped : List IndexRange} {site : CallSite}
    (dispatched : dispatch? converter.resolver stream site.start = some site)
    (lower : index ≤ site.start) (fits : site.stop ≤ stop) :
    (∃ range ∈ skipped, range.start ≤ site.start ∧ site.start < range.stop) ∨
      ∃ found ∈ converter.sitesFrom stream stop skipped index,
        found.start ≤ site.start ∧ site.start < found.stop := by
  obtain ⟨_, call, converted⟩ := dispatch?_eq_some dispatched
  have nonempty := converted.start_lt_stop
  generalize left : (stop - index) + skipped.length = remaining
  induction remaining using Nat.strongRecOn generalizing index skipped with
  | ind remaining ih =>
      rw [sitesFrom, if_pos (by omega)]
      split
      next range first =>
        obtain ⟨head, started⟩ := Option.filter_eq_some_iff.mp first
        rw [decide_eq_true_eq] at started
        cases skipped with
        | nil => simp at head
        | cons earliest later =>
            rw [List.head?_cons, Option.some.injEq] at head
            subst head
            rw [List.length_cons] at left
            by_cases inside : site.start < earliest.stop
            · exact .inl ⟨earliest, List.mem_cons_self, by omega, inside⟩
            · have further : max index earliest.stop ≤ site.start := by omega
              rcases @ih _ (by omega) _ later further rfl with ⟨other, member, around⟩ | found
              · exact .inl ⟨other, List.mem_cons_of_mem _ member, around⟩
              · exact .inr found
      next =>
        by_cases here : index = site.start
        · subst here
          rw [dispatched, Option.filter_some, if_pos (by simpa using fits)]
          exact .inr ⟨site, List.mem_cons_self, Nat.le_refl _, nonempty⟩
        · split
          next other result =>
            obtain ⟨found, _⟩ := Option.filter_eq_some_iff.mp result
            obtain ⟨sameStart, _⟩ := dispatch?_eq_some found
            by_cases inside : site.start < other.stop
            · exact .inr ⟨other, List.mem_cons_self, by omega, inside⟩
            · have further : max (index + 1) other.stop ≤ site.start := by omega
              rcases @ih _ (by omega) _ skipped further rfl with range | ⟨later, member, around⟩
              · exact .inl range
              · exact .inr ⟨later, List.mem_cons_of_mem _ member, around⟩
          next => exact ih _ (by omega) (by omega) rfl

end Converter

/-- The calls with a replacement that a conversion converts: those in no static part, and those in
the arguments of another converted call. -/
theorem Conversion.converts_iff {converter : Converter} {stream : TokenStream}
    {conversion : Conversion} {declaration : ClassDeclaration} {site : CallSite}
    (processed : converter.process stream = .ok conversion)
    (found : stream.findClass? = some declaration)
    (dispatched : dispatch? converter.resolver stream site.start = some site)
    (behind : declaration.bodyOpen < site.start) (fits : site.stop ≤ declaration.bodyClose) :
    conversion.Converts site ↔
      (∃ outer ∈ conversion.sites, outer.start < site.start ∧ site.start < outer.stop) ∨
        ∀ range ∈ stream.staticRanges declaration,
          ¬ (range.start ≤ site.start ∧ site.start < range.stop) := by
  have scanned := Converter.sites_of_process processed found
  have origin {outer : CallSite} (member : outer ∈ conversion.sites) :
      dispatch? converter.resolver stream outer.start = some outer ∧
        ∀ range ∈ stream.staticRanges declaration,
          ¬ (range.start ≤ outer.start ∧ outer.start < range.stop) := by
    rw [scanned, Converter.sites] at member
    obtain ⟨⟨_, _, outerDispatched⟩, outside⟩ :=
      Converter.mem_sitesFrom (stream.sorted_staticRanges declaration) member
    exact ⟨outerDispatched, outside⟩
  constructor
  · rintro ⟨outer, member, within⟩
    obtain ⟨outerDispatched, outside⟩ := origin member
    obtain ⟨_, start, stop⟩ := within.bounds outerDispatched
    obtain ⟨_, call, converted⟩ := dispatch?_eq_some dispatched
    have nonempty := converted.start_lt_stop
    rcases start with rfl | inner
    · exact .inr outside
    · exact .inl ⟨outer, member, inner, by omega⟩
  · rintro (⟨outer, member, start, stop⟩ | outside)
    · exact ⟨outer, member, CallSite.within_of_inside (origin member).1 dispatched start stop⟩
    · rcases Converter.exists_sitesFrom_around dispatched behind fits with
        ⟨range, member, around⟩ | ⟨outer, member, start, stop⟩
      · exact absurd around (outside range member)
      · rw [← Converter.sites, ← scanned] at member
        refine ⟨outer, member, ?_⟩
        by_cases same : outer.start = site.start
        · have outerDispatched := (origin member).1
          rw [same, dispatched, Option.some.injEq] at outerDispatched
          subst outerDispatched
          exact .itself _
        · exact CallSite.within_of_inside (origin member).1 dispatched (by omega) stop

end ConstructorInjection
