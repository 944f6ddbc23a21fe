import Mathlib.Data.List.Basic
import Mathlib.Tactic.Common
import ConstructorInjection.Proofs.Navigation

/-!
Parameter lists as tokens alone. What is read of a parameter does not depend on where its tokens
stand, nor on the blanks around them, and a list is read item by item between its commas.
-/

namespace ConstructorInjection

def IndexRange.shift (range : IndexRange) (offset : Nat) : IndexRange :=
  ⟨offset + range.start, offset + range.stop⟩

def ParameterHead.shift (head : ParameterHead) (offset : Nat) : ParameterHead :=
  { head with typeRange := head.typeRange.map (·.shift offset) }

theorem ParameterHead.shift_withType (head : ParameterHead) (offset index : Nat) :
    (head.shift offset).withType (offset + index) = (head.withType index).shift offset := by
  obtain ⟨isPromoted, isVariadic, typeRange⟩ := head
  cases typeRange <;>
    simp [ParameterHead.shift, ParameterHead.withType, IndexRange.shift, Nat.add_assoc]

namespace TokenStream

/-- The closer of a delimiter inside of some tokens is its closer in a stream that holds them. -/
theorem matchingClose?_shift {stream : TokenStream} {offset index close : Nat}
    {core rest : List Token} (cut : stream.drop offset = core ++ rest)
    (closed : TokenStream.matchingClose? core index = some close) :
    stream.matchingClose? (offset + index) = some (offset + close) := by
  obtain ⟨first, inner, closer, behind, coreCut, rfl, opens, closes, level⟩ :=
    matchingClose?_eq_some_iff.mp closed
  have inside : index ≤ core.length := by
    by_contra beyond
    rw [List.drop_eq_nil_of_le (by omega)] at coreCut
    simp at coreCut
  refine matchingClose?_eq_some_iff.mpr
    ⟨first, inner, closer, behind ++ rest, ?_, by omega, opens, closes, level⟩
  rw [← List.drop_drop, cut, List.drop_append_of_le_length inside, coreCut]
  simp only [List.append_assoc, List.cons_append]

theorem exists_matchingClose? {tokens : TokenStream} {index : Nat} {opener : Token}
    (level : Level tokens) (found : tokens[index]? = some opener)
    (opens : opener.kind.isOpener = true) :
    ∃ close, tokens.matchingClose? index = some close ∧ index < close ∧ close < tokens.length := by
  have cut := drop_eq_cons_iff.mpr ⟨found, rfl⟩
  have whole : tokens = tokens.take index ++ opener :: tokens.drop (index + 1) := by
    rw [← cut, List.take_append_drop]
  have levelParts := level
  rw [whole] at levelParts
  obtain ⟨inner, closer, rest, behind, closes, inside⟩ := levelParts.exists_closer opens
  refine ⟨index + 1 + inner.length, matchingClose?_eq_some_iff.mpr
    ⟨opener, inner, closer, rest, by rw [cut, behind]; rfl, rfl, opens, closes, inside⟩,
    by omega, ?_⟩
  have size := congrArg List.length behind
  simp only [List.length_drop, List.length_append, List.length_cons] at size
  omega

theorem parameterHead?_blanks {stream : TokenStream} {stop index : Nat} {head : ParameterHead}
    {blanks rest : List Token} (cut : stream.drop index = blanks ++ rest) (blank : Blank blanks)
    (inside : index + blanks.length ≤ stop) :
    stream.parameterHead? stop head index =
      stream.parameterHead? stop head (index + blanks.length) := by
  induction blanks generalizing index with
  | nil => rfl
  | cons first blanks ih =>
      rw [List.cons_append, drop_eq_cons_iff] at cut
      rw [List.length_cons] at inside ⊢
      have isTrivia := blank first (by simp)
      have later := ih cut.2 (fun token member => blank token (List.mem_cons_of_mem _ member))
        (by omega)
      rw [parameterHead?, if_pos (by omega), cut.1]
      simp only [isTrivia, if_true]
      rw [later]
      congr 1
      omega

/-- What stands in front of a variable is read in the same way in a stream that holds the tokens,
and blanks behind them make no difference. -/
theorem parameterHead?_shift {stream : TokenStream} {offset index : Nat}
    {core blanks rest : List Token} (head : ParameterHead)
    (cut : stream.drop offset = core ++ (blanks ++ rest)) (level : Level core)
    (blank : Blank blanks) (inside : index ≤ core.length) :
    stream.parameterHead? (offset + core.length + blanks.length) (head.shift offset)
        (offset + index) =
      (TokenStream.parameterHead? core core.length head index).map fun (head, variableIndex) =>
        (head.shift offset, offset + variableIndex) := by
  generalize left : core.length - index = remaining
  induction remaining using Nat.strongRecOn generalizing index head with
  | ind remaining ih =>
      rcases Nat.lt_or_eq_of_le inside with before | rfl
      · have present := List.getElem?_eq_getElem before
        have sameToken : stream[offset + index]? = some core[index] := by
          rw [← List.getElem?_drop, cut, List.getElem?_append_left before, present]
        have step (further : ParameterHead) (next : Nat) (later : index < next)
            (bound : next ≤ core.length) := ih (core.length - next) (by omega) further bound rfl
        rw [parameterHead?, if_pos (by omega), sameToken,
          TokenStream.parameterHead?.eq_def core, if_pos before, present]
        simp only
        split
        next => exact step head (index + 1) (by omega) before
        next =>
          split
          next isAttribute =>
            have opens : core[index].kind.isOpener = true := by rw [isAttribute]; rfl
            obtain ⟨close, closed, behind, bound⟩ := exists_matchingClose? level present opens
            rw [closed, matchingClose?_shift cut closed, Option.getD_some, Option.getD_some,
              Nat.max_eq_right (by omega), Nat.max_eq_right (by omega)]
            exact step head (close + 1) (by omega) bound
          next =>
            split
            next => exact step { head with isPromoted := true } (index + 1) (by omega) before
            next =>
              split
              next => exact step { head with isVariadic := true } (index + 1) (by omega) before
              next =>
                split
                next => exact step head (index + 1) (by omega) before
                next =>
                  split
                  next => rfl
                  next =>
                    rw [ParameterHead.shift_withType]
                    exact step (head.withType index) (index + 1) (by omega) before
      · have nothing : TokenStream.parameterHead? core core.length head core.length = none := by
          rw [parameterHead?, if_neg (by omega)]
        have behind : stream.drop (offset + core.length) = blanks ++ rest := drop_of_drop_eq cut
        rw [nothing, parameterHead?_blanks behind blank (Nat.le_refl _), parameterHead?,
          if_neg (by omega)]
        rfl

theorem parameterHead?_bounds {stream : TokenStream} {stop index variableIndex : Nat}
    {head result : ParameterHead}
    (found : stream.parameterHead? stop head index = some (result, variableIndex))
    (bounded : ∀ range ∈ head.typeRange, range.stop ≤ index) :
    variableIndex < stop ∧ ∀ range ∈ result.typeRange, range.stop ≤ variableIndex := by
  generalize left : stop - index = remaining
  induction remaining using Nat.strongRecOn generalizing index head with
  | ind remaining ih =>
      rw [parameterHead?] at found
      split at found
      case isFalse => contradiction
      case isTrue before =>
        have step {further : ParameterHead} {next : Nat} (later : index < next)
            (result : stream.parameterHead? stop further next = some (result, variableIndex))
            (within : ∀ range ∈ further.typeRange, range.stop ≤ next) :=
          ih (stop - next) (by omega) result within rfl
        have kept {next : Nat} (later : index < next) :
            ∀ range ∈ head.typeRange, range.stop ≤ next := fun range member =>
          Nat.le_trans (bounded range member) (Nat.le_of_lt later)
        split at found
        next => contradiction
        next token present =>
          split at found
          next => exact step (Nat.lt_succ_self index) found (kept (Nat.lt_succ_self index))
          next =>
            split at found
            next => exact step (by omega) found (kept (by omega))
            next =>
              split at found
              next => exact step (Nat.lt_succ_self index) found (kept (Nat.lt_succ_self index))
              next =>
                split at found
                next => exact step (Nat.lt_succ_self index) found (kept (Nat.lt_succ_self index))
                next =>
                  split at found
                  next => exact step (Nat.lt_succ_self index) found (kept (Nat.lt_succ_self index))
                  next =>
                    split at found
                    next =>
                      cases found
                      exact ⟨before, bounded⟩
                    next =>
                      refine step (Nat.lt_succ_self index) found ?_
                      intro range member
                      simp only [ParameterHead.withType, Option.mem_def, Option.some.injEq] at member
                      subst member
                      exact Nat.le_refl _

end TokenStream

/-- A parameter without its place. -/
def Parameter.bare (parameter : Parameter) : Parameter :=
  { parameter with range := ⟨0, 0⟩ }

/-- The parameter that some tokens hold, without its place. -/
def readParameter (tokens : List Token) : Option Parameter :=
  (TokenStream.parameterIn? tokens ⟨0, tokens.length⟩).map Parameter.bare

namespace TokenStream

theorem slice_shift {stream : TokenStream} {offset : Nat} {core rest : List Token}
    (cut : stream.drop offset = core ++ rest) (range : IndexRange)
    (inside : range.stop ≤ core.length) : stream.slice (range.shift offset) = TokenStream.slice core range := by
  obtain ⟨start, stop⟩ := range
  apply List.ext_getElem?
  intro index
  rw [IndexRange.shift, getElem?_slice, getElem?_slice]
  simp only at inside ⊢
  by_cases within : start + index < stop
  · rw [if_pos within, if_pos (by omega), Nat.add_assoc, ← List.getElem?_drop, cut,
      List.getElem?_append_left (by omega)]
  · rw [if_neg within, if_neg (by omega)]

theorem hasDefault_shift {stream : TokenStream} {offset variableIndex : Nat}
    {core blanks rest : List Token} (cut : stream.drop offset = core ++ (blanks ++ rest))
    (blank : Blank blanks) (inside : variableIndex < core.length) :
    (stream.firstIn? ⟨offset + variableIndex + 1, offset + core.length + blanks.length⟩
        (·.kind == .assign)).isSome =
      (TokenStream.firstIn? core ⟨variableIndex + 1, core.length⟩ (·.kind == .assign)).isSome := by
  have upToCore : stream.slice ⟨offset + (variableIndex + 1), offset + core.length⟩ =
      TokenStream.slice core ⟨variableIndex + 1, core.length⟩ :=
    slice_shift cut ⟨variableIndex + 1, core.length⟩ (Nat.le_refl _)
  have behindCore : stream.slice ⟨offset + core.length, offset + core.length + blanks.length⟩ =
      blanks :=
    slice_of_drop_eq (drop_of_drop_eq cut) rfl
  have noAssign : blanks.any (·.kind == .assign) = false := by
    rw [List.any_eq_false]
    intro token member isAssign
    have trivia := blank token member
    rw [Token.isTrivia, beq_iff_eq.mp isAssign] at trivia
    contradiction
  simp only [firstIn?, Option.isSome_map, List.findIdx?_isSome]
  have lower : offset + variableIndex + 1 ≤ offset + core.length := by omega
  rw [← stream.slice_append_slice lower (Nat.le_add_right _ _), Nat.add_assoc offset, upToCore,
    behindCore, List.any_append, noAssign, Bool.or_false]

/-- A parameter is read from its tokens alone. -/
theorem parameterIn?_eq {stream : TokenStream} {start : Nat}
    {before core behind rest : List Token}
    (cut : stream.drop start = before ++ (core ++ (behind ++ rest))) (blankBefore : Blank before)
    (level : Level core) (blankBehind : Blank behind) :
    (stream.parameterIn? ⟨start, start + before.length + core.length + behind.length⟩).map
        Parameter.bare = readParameter core := by
  have atCore := drop_of_drop_eq cut
  have nothing : ParameterHead.none.shift (start + before.length) = ParameterHead.none := rfl
  have heads := parameterHead?_shift ParameterHead.none atCore level blankBehind (Nat.zero_le _)
  rw [Nat.add_zero, nothing] at heads
  simp only [readParameter, parameterIn?, Option.bind_eq_bind, Option.pure_def]
  rw [parameterHead?_blanks cut blankBefore (by omega), heads]
  cases found : TokenStream.parameterHead? core core.length ParameterHead.none 0 with
  | none => rfl
  | some result =>
      obtain ⟨head, variableIndex⟩ := result
      obtain ⟨inside, bounds⟩ := parameterHead?_bounds found (by simp [ParameterHead.none])
      have sameToken : stream[start + before.length + variableIndex]? = core[variableIndex]? := by
        rw [← List.getElem?_drop, atCore, List.getElem?_append_left inside]
      have sameType : (head.shift (start + before.length)).typeRange.map stream.textOf =
          head.typeRange.map (TokenStream.textOf core) := by
        cases typed : head.typeRange with
        | none => simp [ParameterHead.shift, typed]
        | some range =>
            have bound := bounds range typed
            simp only [ParameterHead.shift, typed, Option.map_some, textOf,
              slice_shift atCore range (by omega)]
      simp only [Option.map_some, Option.bind_some, sameToken, sameType,
        hasDefault_shift atCore blankBehind inside]
      cases core[variableIndex]? <;> rfl

end TokenStream

/-- What is read of some tokens is read of them between blanks as well. -/
theorem readParameter_between {before core behind : List Token} (blankBefore : Blank before)
    (level : Level core) (blankBehind : Blank behind) :
    readParameter (before ++ (core ++ behind)) = readParameter core := by
  have cut : (before ++ (core ++ behind)).drop 0 = before ++ (core ++ (behind ++ [])) := by simp
  have read := TokenStream.parameterIn?_eq cut blankBefore level blankBehind
  have size : (before ++ (core ++ behind)).length =
      0 + before.length + core.length + behind.length := by
    simp only [List.length_append]
    omega
  rw [← read, readParameter, size]

theorem readParameter_blank {tokens : List Token} (blank : Blank tokens) :
    readParameter tokens = none := by
  have noBlanks : Blank [] := by simp [Blank]
  have nothing := readParameter_between blank Level.nil noBlanks
  rw [List.append_nil, List.append_nil] at nothing
  rw [nothing, readParameter, TokenStream.parameterIn?, TokenStream.parameterHead?]
  rfl

/-- The items between the commas outside of all delimiters, for tokens that go on behind `current`
with `depth` delimiters open. -/
def itemsFrom (current : List Token) (depth : Nat) : List Token → List (List Token)
  | [] => [current]
  | token :: rest =>
    if token.kind.isOpener then itemsFrom (current ++ [token]) (depth + 1) rest
    else if token.kind.isCloser then itemsFrom (current ++ [token]) (depth - 1) rest
    else if token.kind = .comma ∧ depth = 0 then current :: itemsFrom [] depth rest
    else itemsFrom (current ++ [token]) depth rest

/-- The parameters that a list holds, without their places. -/
def readParameters (tokens : List Token) : List Parameter :=
  (itemsFrom [] 0 tokens).filterMap readParameter

theorem itemsFrom_append_comma {current left right : List Token} {comma : Token} {depth : Nat}
    (isComma : comma.kind = .comma) (level : openBehind depth left = some 0) :
    itemsFrom current depth (left ++ comma :: right) =
      itemsFrom current depth left ++ itemsFrom [] 0 right := by
  induction left generalizing current depth with
  | nil =>
      cases level
      simp [itemsFrom, isComma, TokenKind.isOpener, TokenKind.closing?, TokenKind.isCloser]
  | cons token left ih =>
      rw [openBehind] at level
      rw [List.cons_append, itemsFrom, itemsFrom]
      split at level
      next opener =>
        rw [if_pos opener, if_pos opener]
        exact ih level
      next noOpener =>
        rw [if_neg noOpener, if_neg noOpener]
        split at level
        next closer =>
          rw [if_pos closer, if_pos closer]
          split at level
          next => contradiction
          next => exact ih level
        next noCloser =>
          rw [if_neg noCloser, if_neg noCloser]
          split
          next => rw [ih level, List.cons_append]
          next => exact ih level

theorem readParameters_append_comma {left right : List Token} {comma : Token}
    (isComma : comma.kind = .comma) (level : Level left) :
    readParameters (left ++ comma :: right) = readParameters left ++ readParameters right := by
  rw [readParameters, itemsFrom_append_comma isComma level, List.filterMap_append]
  rfl

/-- No comma stands outside of all delimiters, `depth` of which are open in front. -/
def Uncut (depth : Nat) (tokens : List Token) : Prop :=
  ∀ before comma after, tokens = before ++ comma :: after → comma.kind = .comma →
    openBehind depth before ≠ some 0

theorem uncut_cons {depth : Nat} {token : Token} {rest : List Token} :
    Uncut depth (token :: rest) ↔ (token.kind = .comma → depth ≠ 0) ∧
      ∀ behind, openBehind depth [token] = some behind → Uncut behind rest := by
  constructor
  · intro uncut
    refine ⟨fun isComma none => uncut [] token rest rfl isComma (by rw [none]; rfl), ?_⟩
    intro behind opened before comma after cut isComma
    have whole := uncut (token :: before) comma after (by rw [cut]; rfl) isComma
    have parts := openBehind_append depth [token] before
    rw [opened, Option.bind_some] at parts
    rwa [← parts]
  · rintro ⟨first, later⟩ before comma after cut isComma closed
    cases before with
    | nil =>
        cases cut
        exact first isComma (Option.some.inj closed)
    | cons _ before =>
        cases cut
        have parts := openBehind_append depth [token] before
        rw [List.singleton_append, closed] at parts
        obtain ⟨behind, opened, again⟩ := Option.bind_eq_some_iff.mp parts.symm
        exact later behind opened before comma after rfl isComma again

theorem itemsFrom_uncut {current tokens : List Token} {depth behind : Nat} (uncut : Uncut depth tokens)
    (opened : openBehind depth tokens = some behind) :
    itemsFrom current depth tokens = [current ++ tokens] := by
  induction tokens generalizing current depth with
  | nil => rw [itemsFrom, List.append_nil]
  | cons token tokens ih =>
      obtain ⟨notCut, later⟩ := uncut_cons.mp uncut
      have whole : current ++ token :: tokens = current ++ [token] ++ tokens := by simp
      rw [whole]
      rw [openBehind] at opened
      rw [itemsFrom]
      split at opened
      next opener =>
        rw [if_pos opener]
        refine ih (later _ ?_) opened
        rw [openBehind, if_pos opener, openBehind]
      next noOpener =>
        rw [if_neg noOpener]
        split at opened
        next closer =>
          rw [if_pos closer]
          split at opened
          next => contradiction
          next positive =>
            refine ih (later _ ?_) opened
            rw [openBehind, if_neg noOpener, if_pos closer, if_neg positive, openBehind]
        next noCloser =>
          rw [if_neg noCloser, if_neg fun both => notCut both.1 both.2]
          refine ih (later _ ?_) opened
          rw [openBehind, if_neg noOpener, if_neg noCloser, openBehind]

theorem readParameters_uncut {tokens : List Token} (uncut : Uncut 0 tokens) (level : Level tokens) :
    readParameters tokens = (readParameter tokens).toList := by
  rw [readParameters, itemsFrom_uncut uncut level, List.nil_append]
  cases found : readParameter tokens <;> simp [found]

theorem Uncut.of_plain {tokens : List Token} (plain : ∀ token ∈ tokens, token.kind ≠ .comma)
    (depth : Nat) : Uncut depth tokens := by
  intro before comma after cut isComma
  exact absurd isComma (plain comma (by simp [cut]))

theorem Level.of_blanks {before core behind : List Token}
    (level : Level (before ++ (core ++ behind))) (blankBefore : Blank before)
    (blankBehind : Blank behind) : Level core := by
  have fromCore := blankBefore.level.of_append_left level
  rw [Level, openBehind_append] at fromCore
  obtain ⟨depth, opened, closed⟩ := Option.bind_eq_some_iff.mp fromCore
  rw [blankBehind.level.openBehind, Option.some.injEq] at closed
  rwa [closed] at opened

namespace TokenStream

/-- Trimming cuts off blanks and comments at the ends, and nothing else. -/
theorem trimTrivia_parts {stream : TokenStream} {start : Nat} {tokens rest : List Token}
    (present : start ≤ stream.length) (cut : stream.drop start = tokens ++ rest) :
    ∃ before core behind, tokens = before ++ (core ++ behind) ∧ Blank before ∧ Blank behind ∧
      stream.trimTrivia ⟨start, start + tokens.length⟩ =
        ⟨start + before.length, start + before.length + core.length⟩ ∧
      (∀ first ∈ core.head?, first.isTrivia = false) ∧
      ∀ last ∈ core.getLast?, last.isTrivia = false := by
  have fits := congrArg List.length cut
  rw [List.length_drop, List.length_append] at fits
  have stop : min (start + tokens.length) stream.length = start + tokens.length :=
    Nat.min_eq_left (by omega)
  have inside := slice_of_drop_eq cut rfl
  let tail := tokens.dropWhile Token.isTrivia
  let behind := (tail.reverse.takeWhile Token.isTrivia).reverse
  let core := (tail.reverse.dropWhile Token.isTrivia).reverse
  have rejoined : core ++ behind = tail := by
    rw [← List.reverse_append, List.takeWhile_append_dropWhile, List.reverse_reverse]
  have whole : tokens.takeWhile Token.isTrivia ++ tail = tokens :=
    List.takeWhile_append_dropWhile
  have dropped : tokens.drop (tokens.takeWhile Token.isTrivia).length = tail := by
    have behindFront : (tokens.takeWhile Token.isTrivia ++ tail).drop
        (tokens.takeWhile Token.isTrivia).length = tail := List.drop_left
    rwa [whole] at behindFront
  have significant {token : Token} {others : List Token}
      (first : token ∈ (others.dropWhile Token.isTrivia).head?) : token.isTrivia = false := by
    have fails := List.head?_dropWhile_not Token.isTrivia others
    rw [first] at fails
    exact fails
  refine ⟨tokens.takeWhile Token.isTrivia, core, behind, ?_, ?_, ?_, ?_, ?_, ?_⟩
  · rw [rejoined, whole]
  · exact List.all_eq_true.mp List.all_takeWhile
  · intro token member
    exact List.all_eq_true.mp List.all_takeWhile token (List.mem_reverse.mp member)
  · have sizes := congrArg List.length rejoined
    have wholeSize := congrArg List.length whole
    rw [List.length_append] at sizes wholeSize
    have behindSize : behind.length = (tail.reverse.takeWhile Token.isTrivia).length :=
      List.length_reverse
    simp only [trimTrivia, stop, inside, dropped, IndexRange.mk.injEq, true_and]
    omega
  · intro first isFirst
    refine @significant first tokens ?_
    change first ∈ tail.head?
    rw [← rejoined, List.head?_append, isFirst]
    rfl
  · intro last isLast
    rw [List.getLast?_reverse] at isLast
    exact significant isLast

/-- An item of a stream is read from its tokens. -/
theorem parameterIn?_trimTrivia {stream : TokenStream} {start : Nat} {tokens rest : List Token}
    (present : start ≤ stream.length) (cut : stream.drop start = tokens ++ rest)
    (level : Level tokens) :
    (stream.parameterIn? (stream.trimTrivia ⟨start, start + tokens.length⟩)).map Parameter.bare =
      readParameter tokens := by
  obtain ⟨before, core, behind, rfl, blankBefore, blankBehind, trimmed, _⟩ :=
    trimTrivia_parts present cut
  have levelCore : Level core := level.of_blanks blankBefore blankBehind
  have atCore : stream.drop (start + before.length) = [] ++ (core ++ ([] ++ (behind ++ rest))) := by
    apply drop_of_drop_eq
    rw [cut]
    simp only [List.append_assoc, List.nil_append]
  have noBlanks : Blank [] := by simp [Blank]
  have read := parameterIn?_eq atCore noBlanks levelCore noBlanks
  rw [List.length_nil, Nat.add_zero, Nat.add_zero] at read
  rw [trimmed, read, readParameter_between blankBefore levelCore blankBehind]

theorem filterMap_parameterIn?_splitFrom {stream : TokenStream} {start index depth : Nat}
    {tokens rest : List Token} (current : List Token) (present : start ≤ stream.length)
    (cut : stream.drop start = current ++ (tokens ++ rest))
    (place : index = start + current.length) (opened : openBehind 0 current = some depth)
    (closed : openBehind depth tokens = some 0) :
    (((splitFrom start index depth tokens).filter stream.isSignificant).filterMap fun item =>
        (stream.parameterIn? (stream.trimTrivia item)).map Parameter.bare) =
      (itemsFrom current depth tokens).filterMap readParameter := by
  have read {start : Nat} {item rest : List Token} (present : start ≤ stream.length)
      (cut : stream.drop start = item ++ rest) (level : Level item) :
      (if stream.isSignificant ⟨start, start + item.length⟩ then
        (stream.parameterIn? (stream.trimTrivia ⟨start, start + item.length⟩)).map Parameter.bare
        else none) = readParameter item := by
    split
    next => exact parameterIn?_trimTrivia present cut level
    next insignificant =>
      refine (readParameter_blank ?_).symm
      rw [isSignificant, slice_of_drop_eq cut rfl, List.any_eq_true] at insignificant
      intro token member
      by_contra significant
      exact insignificant ⟨token, member, by simp [significant]⟩
  rw [List.filterMap_filter]
  induction tokens generalizing start index depth current with
  | nil =>
      cases closed
      subst place
      simp only [splitFrom, itemsFrom, List.filterMap_cons, List.filterMap_nil]
      rw [read present cut opened]
  | cons token tokens ih =>
      have grown : stream.drop start = (current ++ [token]) ++ (tokens ++ rest) := by
        rw [cut]
        simp only [List.append_assoc, List.cons_append, List.nil_append]
      have next : index + 1 = start + (current ++ [token]).length := by
        rw [place, List.length_append, List.length_singleton, Nat.add_assoc]
      have openedNext (behind : Nat) (after : openBehind depth [token] = some behind) :
          openBehind 0 (current ++ [token]) = some behind := by
        rw [openBehind_append, opened, Option.bind_some, after]
      rw [openBehind] at closed
      rw [splitFrom, itemsFrom]
      split at closed
      next opener =>
        rw [if_pos opener, if_pos opener]
        refine ih (current ++ [token]) present grown next (openedNext _ ?_) closed
        simp only [openBehind, if_pos opener]
      next noOpener =>
        rw [if_neg noOpener, if_neg noOpener]
        split at closed
        next closer =>
          rw [if_pos closer, if_pos closer]
          split at closed
          next => contradiction
          next positive =>
            refine ih (current ++ [token]) present grown next (openedNext _ ?_) closed
            simp only [openBehind, if_neg noOpener, if_pos closer, if_neg positive]
        next noCloser =>
          rw [if_neg noCloser, if_neg noCloser]
          split
          next separates =>
            obtain ⟨_, rfl⟩ := separates
            have behindToken : stream.drop (index + 1) = [] ++ (tokens ++ rest) := by
              rw [next]
              exact drop_of_drop_eq grown
            have presentNext : index + 1 ≤ stream.length := by
              have size := congrArg List.length cut
              simp only [List.length_drop, List.length_append, List.length_cons] at size
              omega
            have later := ih [] presentNext behindToken rfl rfl closed
            rw [List.length_nil, Nat.add_zero] at later
            subst place
            rw [List.filterMap_cons, List.filterMap_cons, read present cut opened, later]
          next =>
            refine ih (current ++ [token]) present grown next (openedNext _ ?_) closed
            simp only [openBehind, if_neg noOpener, if_neg noCloser]

/-- The parameters of a list are those that its tokens hold. -/
theorem map_bare_parametersIn {stream : TokenStream} {list : ParameterList}
    {inner rest : List Token} (present : list.opening < stream.length)
    (cut : stream.drop (list.opening + 1) = inner ++ rest)
    (place : list.closing = list.opening + 1 + inner.length) (level : Level inner) :
    (stream.parametersIn list).map Parameter.bare = readParameters inner := by
  have inside : stream.slice list.inner = inner := slice_of_drop_eq cut place
  rw [parametersIn, splitTopLevel, inside, List.map_filterMap]
  exact filterMap_parameterIn?_splitFrom [] present cut rfl rfl level

end TokenStream

theorem Uncut.of_append_left {left right : List Token} {depth : Nat}
    (uncut : Uncut depth (left ++ right)) : Uncut depth left := by
  intro before comma after cut isComma
  exact uncut before comma (after ++ right) (by simp [cut]) isComma

theorem Uncut.of_append_right {left right : List Token} (uncut : Uncut 0 (left ++ right))
    (level : Level left) : Uncut 0 right := by
  intro before comma after cut isComma opened
  exact uncut (left ++ before) comma after (by simp [cut]) isComma (level.append opened)

/-- A comma outside of all delimiters has a first one in front of it. -/
theorem exists_first_comma {before after : List Token} {comma : Token}
    (isComma : comma.kind = .comma) (level : Level before) :
    ∃ left first right, before ++ comma :: after = left ++ first :: right ∧ first.kind = .comma ∧
      Level left ∧ Uncut 0 left := by
  generalize size : before.length = remaining
  induction remaining using Nat.strongRecOn generalizing before comma after with
  | ind remaining ih =>
      by_cases uncut : Uncut 0 before
      · exact ⟨before, comma, after, rfl, isComma, level, uncut⟩
      · simp only [Uncut, not_forall, ne_eq, not_not] at uncut
        obtain ⟨earlier, other, between, rfl, isOther, outside⟩ := uncut
        simp only [List.length_append, List.length_cons] at size
        have found := @ih earlier.length (by omega) earlier (between ++ comma :: after) other isOther
          outside rfl
        simpa only [List.append_assoc, List.cons_append] using found

theorem uncut_or_exists_comma (tokens : List Token) :
    Uncut 0 tokens ∨ ∃ left comma right, tokens = left ++ comma :: right ∧ comma.kind = .comma ∧
      Level left ∧ Uncut 0 left := by
  by_cases uncut : Uncut 0 tokens
  · exact .inl uncut
  · simp only [Uncut, not_forall, ne_eq, not_not] at uncut
    obtain ⟨before, comma, after, rfl, isComma, level⟩ := uncut
    exact .inr (exists_first_comma isComma level)

/-- A parameter among the tokens of a list: around it stand blanks, and the parameters before and
behind it are read alike, whatever stands in its place. -/
def Parameter.StandsIn (parameter : Parameter) (start : Nat) (inner : List Token)
    (front back : List Parameter) : Prop :=
  ∃ left before core behind right, inner = left ++ ((before ++ (core ++ behind)) ++ right) ∧
    parameter.range.start = start + left.length + before.length ∧
    parameter.range.stop = parameter.range.start + core.length ∧ Blank before ∧ Blank behind ∧
    Level core ∧ readParameters (before ++ core) = [parameter.bare] ∧
    readParameters (core ++ behind) = [parameter.bare] ∧
    ∀ tokens, Level tokens → readParameters (left ++ (tokens ++ right)) =
      front.map Parameter.bare ++ (readParameters tokens ++ back.map Parameter.bare)

namespace TokenStream

theorem range_of_parameterIn? {stream : TokenStream} {range : IndexRange} {parameter : Parameter}
    (read : stream.parameterIn? range = some parameter) : parameter.range = range := by
  simp only [parameterIn?, Option.bind_eq_bind, Option.bind_eq_some_iff, Option.pure_def,
    Option.some.injEq] at read
  obtain ⟨_, _, _, _, rfl⟩ := read
  rfl

theorem splitFrom_append_comma {start index depth : Nat} {left right : List Token} {comma : Token}
    (isComma : comma.kind = .comma) (level : openBehind depth left = some 0) :
    splitFrom start index depth (left ++ comma :: right) =
      splitFrom start index depth left ++
        splitFrom (index + left.length + 1) (index + left.length + 1) 0 right := by
  induction left generalizing start index depth with
  | nil =>
      cases level
      simp [splitFrom, isComma, TokenKind.isOpener, TokenKind.closing?, TokenKind.isCloser]
  | cons token left ih =>
      have behind : index + (token :: left).length = index + 1 + left.length := by
        rw [List.length_cons]
        omega
      rw [openBehind] at level
      rw [List.cons_append, splitFrom, splitFrom, behind]
      split at level
      next opener =>
        rw [if_pos opener, if_pos opener]
        exact ih level
      next noOpener =>
        rw [if_neg noOpener, if_neg noOpener]
        split at level
        next closer =>
          rw [if_pos closer, if_pos closer]
          split at level
          next => contradiction
          next => exact ih level
        next noCloser =>
          rw [if_neg noCloser, if_neg noCloser]
          split
          next => rw [ih level, List.cons_append]
          next => exact ih level

theorem splitFrom_append_uncut {start index depth behind : Nat} {tokens : List Token}
    (uncut : Uncut depth tokens) (opened : openBehind depth tokens = some behind)
    (rest : List Token) :
    splitFrom start index depth (tokens ++ rest) =
      splitFrom start (index + tokens.length) behind rest := by
  induction tokens generalizing index depth with
  | nil =>
      cases opened
      rfl
  | cons token tokens ih =>
      obtain ⟨notCut, later⟩ := uncut_cons.mp uncut
      have whole : index + (token :: tokens).length = index + 1 + tokens.length := by
        rw [List.length_cons]
        omega
      rw [whole]
      rw [openBehind] at opened
      rw [List.cons_append, splitFrom]
      split at opened
      next opener =>
        rw [if_pos opener]
        refine ih (later _ ?_) opened
        rw [openBehind, if_pos opener, openBehind]
      next noOpener =>
        rw [if_neg noOpener]
        split at opened
        next closer =>
          rw [if_pos closer]
          split at opened
          next => contradiction
          next positive =>
            refine ih (later _ ?_) opened
            rw [openBehind, if_neg noOpener, if_pos closer, if_neg positive, openBehind]
        next noCloser =>
          rw [if_neg noCloser, if_neg fun both => notCut both.1 both.2]
          refine ih (later _ ?_) opened
          rw [openBehind, if_neg noOpener, if_neg noCloser, openBehind]

theorem splitFrom_uncut {start index depth behind : Nat} {tokens : List Token}
    (uncut : Uncut depth tokens) (opened : openBehind depth tokens = some behind) :
    splitFrom start index depth tokens = [⟨start, index + tokens.length⟩] := by
  simpa [splitFrom] using splitFrom_append_uncut uncut opened []

/-- A comma cuts a list in two. -/
theorem parametersIn_append_comma {stream : TokenStream} {opening : Nat}
    {left right rest : List Token} {comma : Token}
    (cut : stream.drop (opening + 1) = left ++ comma :: (right ++ rest))
    (isComma : comma.kind = .comma) (level : Level left) :
    let separator := opening + 1 + left.length
    let closing := separator + 1 + right.length
    stream.parametersIn ⟨opening, closing⟩ =
      stream.parametersIn ⟨opening, separator⟩ ++ stream.parametersIn ⟨separator, closing⟩ := by
  intro separator closing
  have whole : stream.slice ⟨opening + 1, closing⟩ = left ++ comma :: right := by
    refine slice_of_drop_eq (by rw [cut, List.append_assoc, List.cons_append]) ?_
    simp only [closing, separator, List.length_append, List.length_cons]
    omega
  have front : stream.slice ⟨opening + 1, separator⟩ = left := slice_of_drop_eq cut rfl
  have back : stream.slice ⟨separator + 1, closing⟩ = right :=
    slice_of_drop_eq (drop_of_drop_eq_cons cut) rfl
  rw [parametersIn, parametersIn, parametersIn, splitTopLevel, splitTopLevel, splitTopLevel]
  simp only [ParameterList.inner, whole, front, back]
  rw [splitFrom_append_comma isComma level, List.filter_append, List.filterMap_append]

/-- A list without commas holds one parameter at most: all of it but the blanks at its ends. -/
theorem exists_item_of_uncut {stream : TokenStream} {opening : Nat} {inner rest : List Token}
    {parameter : Parameter} (present : opening < stream.length)
    (cut : stream.drop (opening + 1) = inner ++ rest) (level : Level inner) (uncut : Uncut 0 inner)
    (member : parameter ∈ stream.parametersIn ⟨opening, opening + 1 + inner.length⟩) :
    ∃ before core behind, inner = before ++ (core ++ behind) ∧
      parameter.range.start = opening + 1 + before.length ∧
      parameter.range.stop = parameter.range.start + core.length ∧ Blank before ∧ Blank behind ∧
      Level core ∧ readParameters (before ++ core) = [parameter.bare] ∧
      readParameters (core ++ behind) = [parameter.bare] := by
  obtain ⟨item, inItems, read⟩ := List.mem_filterMap.mp member
  rw [splitTopLevel] at inItems
  simp only [ParameterList.inner, slice_of_drop_eq cut rfl] at inItems
  rw [splitFrom_uncut uncut level] at inItems
  rw [List.mem_singleton.mp (List.mem_filter.mp inItems).1] at read
  have bare := parameterIn?_trimTrivia present cut level
  obtain ⟨before, core, behind, rfl, blankBefore, blankBehind, trimmed, _⟩ :=
    trimTrivia_parts present cut
  have levelCore := level.of_blanks blankBefore blankBehind
  have noBlanks : Blank [] := by simp [Blank]
  have readCore : readParameter core = some parameter.bare := by
    rw [read, Option.map_some, readParameter_between blankBefore levelCore blankBehind] at bare
    exact bare.symm
  have readWith {front tail : List Token} (blankFront : Blank front) (blankTail : Blank tail)
      (uncut : Uncut 0 (front ++ (core ++ tail))) :
      readParameters (front ++ (core ++ tail)) = [parameter.bare] := by
    have levelAll := blankFront.level.append (levelCore.append blankTail.level)
    rw [readParameters_uncut uncut levelAll, readParameter_between blankFront levelCore blankTail,
      readCore, Option.toList_some]
  have range := range_of_parameterIn? read
  rw [trimmed] at range
  refine ⟨before, core, behind, rfl, by rw [range], by rw [range], blankBefore, blankBehind,
    levelCore, ?_, ?_⟩
  · have shorter : Uncut 0 (before ++ core) := by
      rw [← List.append_assoc] at uncut
      exact uncut.of_append_left
    simpa using readWith blankBefore noBlanks (by simpa using shorter)
  · have shorter : Uncut 0 (core ++ behind) := uncut.of_append_right blankBefore.level
    simpa using readWith noBlanks blankBehind (by simpa using shorter)

theorem standsIn_of_parametersIn {stream : TokenStream} {opening : Nat}
    {inner rest : List Token} {parameter : Parameter} {front back : List Parameter}
    (present : opening < stream.length) (cut : stream.drop (opening + 1) = inner ++ rest)
    (level : Level inner)
    (split : stream.parametersIn ⟨opening, opening + 1 + inner.length⟩ = front ++ parameter :: back) :
    parameter.StandsIn (opening + 1) inner front back := by
  have alone {inner : List Token} {parameters : List Parameter}
      (read : parameters.map Parameter.bare = readParameters inner) (uncut : Uncut 0 inner)
      (level : Level inner) : parameters.length ≤ 1 := by
    have count := congrArg List.length read
    rw [List.length_map, readParameters_uncut uncut level] at count
    rw [count]
    cases readParameter inner <;> simp
  generalize size : inner.length = remaining
  induction remaining using Nat.strongRecOn generalizing opening inner front with
  | ind remaining ih =>
      rcases uncut_or_exists_comma inner with uncut | ⟨first, comma, second, rfl, isComma,
        levelFirst, uncut⟩
      · have read := @map_bare_parametersIn stream ⟨opening, opening + 1 + inner.length⟩ _ _ present
          cut rfl level
        have few := alone read uncut level
        rw [split, List.length_append, List.length_cons] at few
        obtain rfl : front = [] := List.length_eq_zero_iff.mp (by omega)
        obtain rfl : back = [] := List.length_eq_zero_iff.mp (by omega)
        obtain ⟨before, core, behind, rfl, starts, stops, blankBefore, blankBehind, levelCore,
          readBefore, readBehind⟩ :=
          exists_item_of_uncut present cut level uncut
            (by rw [split]; exact List.mem_singleton_self parameter)
        exact ⟨[], before, core, behind, [], by simp, by simpa using starts, stops, blankBefore,
          blankBehind, levelCore, readBefore, readBehind, by simp⟩
      · rw [List.append_assoc, List.cons_append] at cut
        have levelSecond : Level second := by
          have levelComma : Level [comma] := by
            apply Level.plain <;> rw [isComma] <;> rfl
          exact levelComma.of_append_left (levelFirst.of_append_left level)
        have behindFirst := drop_of_drop_eq_cons cut
        have atComma := (List.getElem?_eq_some_iff.mp (getElem?_of_drop_eq cut)).1
        have twoLists := parametersIn_append_comma cut isComma levelFirst
        have closing : opening + 1 + (first ++ comma :: second).length =
            opening + 1 + first.length + 1 + second.length := by
          simp only [List.length_append, List.length_cons]
          omega
        rw [closing, twoLists] at split
        have readFirst := @map_bare_parametersIn stream ⟨opening, opening + 1 + first.length⟩ _ _
          present cut rfl levelFirst
        have readSecond := @map_bare_parametersIn stream ⟨opening + 1 + first.length,
          opening + 1 + first.length + 1 + second.length⟩ _ _ atComma behindFirst rfl levelSecond
        have inRest {others : List Parameter}
            (inFront : front = stream.parametersIn ⟨opening, opening + 1 + first.length⟩ ++ others)
            (inSecond : stream.parametersIn ⟨opening + 1 + first.length,
              opening + 1 + first.length + 1 + second.length⟩ = others ++ parameter :: back) :
            parameter.StandsIn (opening + 1) (first ++ comma :: second) front back := by
          have shorter : second.length < remaining := by
            simp only [List.length_append, List.length_cons] at size
            omega
          obtain ⟨left, before, core, behind, right, rfl, starts, stops, blankBefore, blankBehind,
            levelCore, readBefore, readBehind, around⟩ :=
            ih second.length shorter atComma behindFirst levelSecond inSecond rfl
          refine ⟨first ++ comma :: left, before, core, behind, right, by simp, ?_, stops,
            blankBefore, blankBehind, levelCore, readBefore, readBehind, ?_⟩
          · simp only [List.length_append, List.length_cons]
            omega
          · intro tokens levelTokens
            rw [List.append_assoc, List.cons_append, readParameters_append_comma isComma levelFirst,
              around tokens levelTokens, inFront, List.map_append, readFirst, List.append_assoc]
        rcases List.append_eq_append_iff.mp split with ⟨others, inFront, inSecond⟩ |
          ⟨others, inFirst, inSecond⟩
        · exact inRest inFront inSecond
        · cases others with
          | nil => exact @inRest [] (by simp [inFirst]) (by simpa using inSecond.symm)
          | cons only others =>
              rw [List.cons_append, List.cons.injEq] at inSecond
              obtain ⟨rfl, rfl⟩ := inSecond
              have few := alone readFirst uncut levelFirst
              rw [inFirst, List.length_append, List.length_cons] at few
              obtain rfl : front = [] := List.length_eq_zero_iff.mp (by omega)
              obtain rfl : others = [] := List.length_eq_zero_iff.mp (by omega)
              obtain ⟨before, core, behind, rfl, starts, stops, blankBefore, blankBehind,
                levelCore, readBefore, readBehind⟩ :=
                exists_item_of_uncut present cut levelFirst uncut
                  (by rw [inFirst]; exact List.mem_singleton_self parameter)
              refine ⟨[], before, core, behind, comma :: second, by simp, by simpa using starts,
                stops, blankBefore, blankBehind, levelCore, readBefore, readBehind, ?_⟩
              intro tokens levelTokens
              rw [List.nil_append, readParameters_append_comma isComma levelTokens,
                List.nil_append, readSecond]
              rfl

end TokenStream

namespace TokenStream

theorem mem_item_or_isComma {stream : TokenStream} {start index : Nat}
    {tokens rest : List Token} {token : Token} (depth : Nat) (current : List Token)
    (cut : stream.drop start = current ++ (tokens ++ rest)) (place : index = start + current.length)
    (member : token ∈ current ++ tokens) :
    (∃ item ∈ splitFrom start index depth tokens, token ∈ stream.slice item) ∨
      token.kind = .comma := by
  induction tokens generalizing start index depth current with
  | nil =>
      rw [List.append_nil] at member
      refine .inl ⟨⟨start, index⟩, by simp [splitFrom], ?_⟩
      rwa [slice_of_drop_eq cut place]
  | cons first tokens ih =>
      have grown : stream.drop start = (current ++ [first]) ++ (tokens ++ rest) := by
        rw [cut]
        simp only [List.append_assoc, List.cons_append, List.nil_append]
      have next : index + 1 = start + (current ++ [first]).length := by
        rw [place, List.length_append, List.length_singleton, Nat.add_assoc]
      have within : token ∈ (current ++ [first]) ++ tokens := by simpa using member
      rw [splitFrom]
      split
      next => exact ih _ (current ++ [first]) grown next within
      next =>
        split
        next => exact ih _ (current ++ [first]) grown next within
        next =>
          split
          next separates =>
            simp only [List.mem_append, List.mem_cons] at member
            rcases member with inCurrent | rfl | later
            · refine .inl ⟨⟨start, index⟩, by simp, ?_⟩
              rwa [slice_of_drop_eq cut place]
            · exact .inr separates.1
            · have behind : stream.drop (index + 1) = [] ++ (tokens ++ rest) := by
                rw [next]
                exact drop_of_drop_eq grown
              rcases ih depth [] behind rfl later with ⟨item, inItems, inSlice⟩ | isComma
              · exact .inl ⟨item, List.mem_cons_of_mem _ inItems, inSlice⟩
              · exact .inr isComma
          next => exact ih _ (current ++ [first]) grown next within

/-- A list without items is made of blanks, comments and commas. -/
theorem isTrivia_or_isComma_of_splitTopLevel {stream : TokenStream} {list : ParameterList}
    {inner rest : List Token} (cut : stream.drop (list.opening + 1) = inner ++ rest)
    (place : list.closing = list.opening + 1 + inner.length)
    (noItems : stream.splitTopLevel list.inner = []) :
    ∀ token ∈ inner, token.isTrivia = true ∨ token.kind = .comma := by
  have inside : stream.slice list.inner = inner := slice_of_drop_eq cut place
  intro token member
  rw [splitTopLevel, inside, List.filter_eq_nil_iff] at noItems
  rcases mem_item_or_isComma 0 [] cut rfl member with ⟨item, inItems, inSlice⟩ | isComma
  · left
    by_contra significant
    exact noItems item inItems (List.any_eq_true.mpr ⟨token, inSlice, by simp [significant]⟩)
  · exact .inr isComma

end TokenStream

theorem filterMap_itemsFrom_blanks {blanks tokens : List Token} {depth : Nat}
    (blank : Blank blanks) (current : List Token) (opened : openBehind 0 current = some depth)
    (closed : openBehind depth tokens = some 0) :
    (itemsFrom (blanks ++ current) depth tokens).filterMap readParameter =
      (itemsFrom current depth tokens).filterMap readParameter := by
  have noBlanks : Blank [] := by simp [Blank]
  have read {item : List Token} (level : Level item) :
      readParameter (blanks ++ item) = readParameter item := by
    have between := readParameter_between blank level noBlanks
    rwa [List.append_nil] at between
  induction tokens generalizing current depth with
  | nil =>
      cases closed
      simp only [itemsFrom, List.filterMap_cons, read opened]
  | cons token tokens ih =>
      have openedNext (behind : Nat) (after : openBehind depth [token] = some behind) :
          openBehind 0 (current ++ [token]) = some behind := by
        rw [openBehind_append, opened, Option.bind_some, after]
      rw [openBehind] at closed
      rw [itemsFrom, itemsFrom, List.append_assoc]
      split at closed
      next opener =>
        rw [if_pos opener, if_pos opener]
        refine ih (current ++ [token]) (openedNext _ ?_) closed
        simp only [openBehind, if_pos opener]
      next noOpener =>
        rw [if_neg noOpener, if_neg noOpener]
        split at closed
        next closer =>
          rw [if_pos closer, if_pos closer]
          split at closed
          next => contradiction
          next positive =>
            refine ih (current ++ [token]) (openedNext _ ?_) closed
            simp only [openBehind, if_neg noOpener, if_pos closer, if_neg positive]
        next noCloser =>
          rw [if_neg noCloser, if_neg noCloser]
          split
          next separates =>
            obtain ⟨_, rfl⟩ := separates
            rw [List.filterMap_cons, List.filterMap_cons, read opened]
          next =>
            refine ih (current ++ [token]) (openedNext _ ?_) closed
            simp only [openBehind, if_neg noOpener, if_neg noCloser]

theorem readParameters_blanks {blanks tokens : List Token} (blank : Blank blanks)
    (level : Level tokens) : readParameters (blanks ++ tokens) = readParameters tokens := by
  have behind (current : List Token) (depth : Nat) :
      itemsFrom current depth (blanks ++ tokens) = itemsFrom (current ++ blanks) depth tokens := by
    induction blanks generalizing current with
    | nil => simp
    | cons first blanks ih =>
        have trivia := blank first (by simp)
        have plain : first.kind.isOpener = false ∧ first.kind.isCloser = false ∧
            first.kind ≠ .comma := by
          rw [Token.isTrivia] at trivia
          cases kind : first.kind <;> rw [kind] at trivia <;>
            first | contradiction | exact ⟨rfl, rfl, by decide⟩
        rw [List.cons_append, itemsFrom]
        simp only [plain.1, plain.2.1, plain.2.2, Bool.false_eq_true, if_false, false_and]
        rw [ih (fun token member => blank token (List.mem_cons_of_mem _ member)),
          List.append_assoc, List.singleton_append]
  have read := filterMap_itemsFrom_blanks blank [] rfl level
  rw [List.append_nil] at read
  rw [readParameters, behind, List.nil_append, read, readParameters]

theorem readParameters_separators {separators tokens : List Token}
    (only : ∀ token ∈ separators, token.isTrivia = true ∨ token.kind = .comma)
    (level : Level tokens) : readParameters (separators ++ tokens) = readParameters tokens := by
  induction separators with
  | nil => rfl
  | cons first separators ih =>
      have onlyLater : ∀ token ∈ separators, token.isTrivia = true ∨ token.kind = .comma :=
        fun token member => only token (List.mem_cons_of_mem _ member)
      have levelLater : Level (separators ++ tokens) := by
        refine Level.append (Level.of_plain ?_) level
        intro token member
        rcases onlyLater token member with trivia | isComma
        · rw [Token.isTrivia] at trivia
          cases kind : token.kind <;> rw [kind] at trivia <;>
            first | contradiction | exact ⟨rfl, rfl⟩
        · rw [isComma]
          exact ⟨rfl, rfl⟩
      rcases only first (by simp) with trivia | isComma
      · have blank : Blank [first] := by simpa [Blank] using trivia
        have skipped := readParameters_blanks blank levelLater
        rw [List.singleton_append] at skipped
        rw [List.cons_append, skipped, ih onlyLater]
      · have skipped := @readParameters_append_comma [] (separators ++ tokens) _ isComma Level.nil
        have nothing : readParameters [] = [] := by
          rw [readParameters, itemsFrom, List.filterMap_cons, readParameter_blank (by simp [Blank])]
          rfl
        rw [List.nil_append, nothing, List.nil_append] at skipped
        rw [List.cons_append, skipped, ih onlyLater]

end ConstructorInjection
