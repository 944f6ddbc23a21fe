import Mathlib.Data.List.Basic
import Mathlib.Tactic.Common
import ConstructorInjection.Proofs.CallSites
import ConstructorInjection.Proofs.Lexing
import ConstructorInjection.Proofs.Nesting

/-!
Legacy calls where there is no `$this`. The static parts of a class are described here as PHP has
them, and the main statement says exactly when a conversion leaves the calls in them alone.
-/

namespace ConstructorInjection

/-- Tokens of one expression: no comma, semicolon or closer stands at their level. -/
inductive SingleExpression : List Token → Prop where
  | nil : SingleExpression []
  | plain {token : Token} {rest : List Token} (noOpener : token.kind.isOpener = false)
      (noCloser : token.kind.isCloser = false) (noComma : token.kind ≠ .comma)
      (noSemicolon : token.kind ≠ .semicolon) (later : SingleExpression rest) :
      SingleExpression (token :: rest)
  | pair {opener closer : Token} {inner rest : List Token}
      (partners : opener.kind.closing? = some closer.kind) (nested : Nested inner)
      (later : SingleExpression rest) : SingleExpression (opener :: inner ++ closer :: rest)

namespace TokenStream

/-- A modifier in the run of modifiers in front of `function`. -/
inductive Modifies (stream : TokenStream) (function : Nat) : Nat → Prop where
  | nearest {modifier : Nat} (previous : stream.previousSignificant? function = some modifier)
      (allowed : methodModifiers.any (stream.isKeyword · modifier) = true) :
      Modifies stream function modifier
  | further {modifier next : Nat} (within : Modifies stream function next)
      (previous : stream.previousSignificant? next = some modifier)
      (allowed : methodModifiers.any (stream.isKeyword · modifier) = true) :
      Modifies stream function modifier

/-- PHP takes any word as the name of a method. -/
def IsWord (stream : TokenStream) (index : Nat) : Prop :=
  stream.hasKind .identifier index = true ∨ stream.hasKind .keyword index = true

/-- The name of a method that is declared by reference. -/
def NamesReference (stream : TokenStream) (function name : Nat) : Prop :=
  ∃ ampersand, stream.nextOfKind? .ampersand function = some ampersand ∧
    stream.nextSignificant? ampersand = some name

def NamesMethod (stream : TokenStream) (function name : Nat) : Prop :=
  stream.IsWord name ∧
    (stream.nextSignificant? function = some name ∨ stream.NamesReference function name)

/-- The body of the static method of a class whose `function` and name are at the given indices. -/
inductive StaticMethodBody (stream : TokenStream) (declaration : ClassDeclaration)
    (function name : Nat) : IndexRange → Prop where
  | mk {modifier opening closing bodyOpen bodyClose : Nat}
      (member : function ∈ stream.members declaration.bodyOpen declaration.bodyClose)
      (keyword : stream.isKeyword "function" function = true)
      (modified : stream.Modifies function modifier)
      (isStatic : stream.isKeyword "static" modifier = true)
      (named : stream.NamesMethod function name)
      (listOpen : stream.nextOfKind? .openParen name = some opening)
      (listClose : stream.matchingClose? opening = some closing)
      (start : stream.bodyOpen? (closing + 1) declaration.bodyClose = some bodyOpen)
      (stop : stream.matchingClose? bodyOpen = some bodyClose) :
      StaticMethodBody stream declaration function name ⟨bodyOpen, bodyClose + 1⟩

/-- The parenthesis behind `function` or `fn`, where an ampersand may come first. -/
def OpensClosure (stream : TokenStream) (keyword opening : Nat) : Prop :=
  stream.nextOfKind? .openParen keyword = some opening ∨
    ∃ ampersand, stream.nextOfKind? .ampersand keyword = some ampersand ∧
      stream.nextOfKind? .openParen ampersand = some opening

/-- A static closure or arrow function in the body of a class, from its `static` on. -/
inductive StaticFunction (stream : TokenStream) (declaration : ClassDeclaration) :
    IndexRange → Prop where
  | closure {start keyword opening closing bodyOpen bodyClose : Nat}
      (inside : declaration.bodyOpen < start ∧ start < declaration.bodyClose)
      (isStatic : stream.isKeyword "static" start = true)
      (next : stream.nextSignificant? start = some keyword)
      (isFunction : stream.isKeyword "function" keyword = true)
      (listOpen : stream.OpensClosure keyword opening)
      (listClose : stream.matchingClose? opening = some closing)
      (body : stream.firstIn? ⟨closing + 1, declaration.bodyClose⟩ (·.kind == .openBrace) =
        some bodyOpen)
      (bodyEnd : stream.matchingClose? bodyOpen = some bodyClose) :
      StaticFunction stream declaration ⟨start, bodyClose + 1⟩
  | arrow {start keyword opening closing stop : Nat}
      (inside : declaration.bodyOpen < start ∧ start < declaration.bodyClose)
      (isStatic : stream.isKeyword "static" start = true)
      (next : stream.nextSignificant? start = some keyword)
      (isArrow : stream.isKeyword "fn" keyword = true)
      (listOpen : stream.OpensClosure keyword opening)
      (listClose : stream.matchingClose? opening = some closing)
      (behind : closing < stop) (limit : stop ≤ declaration.bodyClose)
      (expression : SingleExpression (stream.slice ⟨closing + 1, stop⟩)) :
      StaticFunction stream declaration ⟨start, stop⟩

/-- A part of a class in which there is no `$this`. -/
def StaticContext (stream : TokenStream) (declaration : ClassDeclaration) (range : IndexRange) :
    Prop :=
  (∃ function name, stream.StaticMethodBody declaration function name range) ∨
    stream.StaticFunction declaration range

theorem methodStart_le (stream : TokenStream) (index : Nat) : stream.methodStart index ≤ index := by
  induction index using Nat.strongRecOn with
  | ind index ih =>
      rw [methodStart]
      split
      next => exact Nat.le_refl _
      next previous found =>
        have before := stream.lt_of_previousSignificant? found
        split
        · exact Nat.le_trans (ih previous before) (Nat.le_of_lt before)
        · exact Nat.le_refl _

theorem methodStart_of_previous {stream : TokenStream} {index modifier : Nat}
    (previous : stream.previousSignificant? index = some modifier)
    (allowed : methodModifiers.any (stream.isKeyword · modifier) = true) :
    stream.methodStart index = stream.methodStart modifier := by
  rw [methodStart]
  split
  next missing => simp [missing] at previous
  next other found =>
    rw [previous] at found
    cases found
    rw [if_pos allowed]

theorem Modifies.bounds {stream : TokenStream} {function modifier : Nat}
    (modifies : stream.Modifies function modifier) :
    stream.methodStart function = stream.methodStart modifier ∧ modifier < function := by
  induction modifies with
  | nearest previous allowed =>
      exact ⟨methodStart_of_previous previous allowed,
        stream.lt_of_previousSignificant? previous⟩
  | further _ previous allowed ih =>
      have before := stream.lt_of_previousSignificant? previous
      exact ⟨ih.1.trans (methodStart_of_previous previous allowed), by omega⟩

theorem isStaticMethod_of_modifies {stream : TokenStream} {function modifier : Nat}
    (modifies : stream.Modifies function modifier)
    (isStatic : stream.isKeyword "static" modifier = true) :
    stream.isStaticMethod function = true := by
  obtain ⟨start, before⟩ := modifies.bounds
  rw [isStaticMethod, isSome_firstIn?_iff]
  refine ⟨modifier, ?_, before, isStatic⟩
  rw [start]
  exact stream.methodStart_le modifier

theorem methodName?_of_namesMethod {stream : TokenStream} {function name : Nat}
    (named : stream.NamesMethod function name)
    (unreserved : stream.hasKind .identifier name = true) :
    stream.methodName? function = some name := by
  rw [methodName?_eq_some_iff]
  rcases named.2 with direct | ⟨ampersand, first, next⟩
  · exact .inl (nextOfKind?_eq_some_iff.mpr ⟨direct, unreserved⟩)
  · exact .inr ⟨ampersand, first, nextOfKind?_eq_some_iff.mpr ⟨next, unreserved⟩⟩

/-- The static methods with a name that is no keyword are found, with their bodies. -/
theorem StaticMethodBody.mem_staticMethodBodies {stream : TokenStream}
    {declaration : ClassDeclaration} {function name : Nat} {range : IndexRange}
    (body : stream.StaticMethodBody declaration function name range)
    (unreserved : stream.hasKind .identifier name = true) :
    range ∈ stream.staticMethodBodies declaration := by
  cases body with
  | mk member keyword modified isStatic named listOpen listClose start stop =>
      refine List.mem_filterMap.mpr ⟨function, member, ?_⟩
      rw [keyword, isStaticMethod_of_modifies modified isStatic, Bool.and_self, if_pos rfl]
      simp [methodBody?, methodName?_of_namesMethod named unreserved, listOpen, listClose, start,
        bracedFrom?, stop]

theorem SingleExpression.length_le {tokens : List Token} (single : SingleExpression tokens)
    (rest : List Token) : tokens.length ≤ expressionLength 0 (tokens ++ rest) := by
  induction single with
  | nil => simp
  | @plain token _ noOpener noCloser noComma noSemicolon _ ih =>
      rw [List.cons_append, expressionLength, if_neg (by simp [noOpener]),
        if_neg (by simp [noCloser]), if_neg (by simp [noComma, noSemicolon]), List.length_cons]
      omega
  | @pair opener closer inner later partners nested _ ih =>
      have opens := TokenKind.isOpener_of_closing? partners
      have closes := TokenKind.isCloser_of_closing? partners
      have noOpener := TokenKind.isOpener_of_isCloser closes
      have reach : expressionLength 0 (opener :: inner ++ closer :: later ++ rest) =
          inner.length + (expressionLength 0 (later ++ rest) + 1) + 1 := by
        rw [List.cons_append, List.cons_append, expressionLength, if_pos opens, List.append_assoc,
          expressionLength_append nested.level, List.cons_append, expressionLength.eq_def]
        simp [noOpener, closes]
      rw [reach]
      simp only [List.cons_append, List.length_cons, List.length_append]
      omega

/-- The reading of a static closure up to its parameters, and then of what is behind them. -/
theorem staticClosure?_of_opensClosure {stream : TokenStream}
    {start keyword opening closing : Nat} (limit : Nat)
    (isStatic : stream.isKeyword "static" start = true)
    (next : stream.nextSignificant? start = some keyword)
    (introduces : (stream.isKeyword "fn" keyword || stream.isKeyword "function" keyword) = true)
    (opens : stream.OpensClosure keyword opening)
    (listClose : stream.matchingClose? opening = some closing) :
    stream.staticClosure? limit start =
      if stream.isKeyword "fn" keyword then
        some ⟨start, if closing + 1 < limit then
          closing + 1 + expressionLength 0 (stream.slice ⟨closing + 1, limit⟩) else limit⟩
      else
        (stream.firstIn? ⟨closing + 1, limit⟩ (·.kind == .openBrace)).bind fun body =>
          (stream.bracedFrom? body).bind fun braced => some ⟨start, braced.stop⟩ := by
  have parameters : ∃ behind, stream.nextSignificant? keyword = some behind ∧
      ((stream.hasKind .ampersand behind = true ∧ stream.nextSignificant? behind = some opening) ∨
        (stream.hasKind .ampersand behind = false ∧ behind = opening)) ∧
      stream.hasKind .openParen opening = true := by
    rcases opens with direct | ⟨ampersand, first, second⟩
    · obtain ⟨found, isParen⟩ := nextOfKind?_eq_some_iff.mp direct
      refine ⟨opening, found, .inr ⟨?_, rfl⟩, isParen⟩
      rw [Bool.eq_false_iff]
      intro isAmpersand
      exact absurd (hasKind_unique isParen isAmpersand) (by decide)
    · obtain ⟨found, isAmpersand⟩ := nextOfKind?_eq_some_iff.mp first
      obtain ⟨later, isParen⟩ := nextOfKind?_eq_some_iff.mp second
      exact ⟨ampersand, found, .inl ⟨isAmpersand, later⟩, isParen⟩
  obtain ⟨behind, found, place, isParen⟩ := parameters
  unfold staticClosure?
  rw [isStatic, next]
  rcases place with ⟨isAmpersand, later⟩ | ⟨noAmpersand, rfl⟩
  · simp only [guard, if_true, Option.bind_eq_bind, Option.pure_def, Option.bind_some, introduces,
      found, isAmpersand, later, isParen, listClose]
  · simp only [guard, if_true, Option.bind_eq_bind, Option.pure_def, Option.bind_some, introduces,
      found, noAmpersand, Bool.false_eq_true, if_false, isParen, listClose]

theorem StaticFunction.exists_mem_staticClosures {stream : TokenStream}
    {declaration : ClassDeclaration} {range : IndexRange}
    (complete : declaration.bodyClose < stream.length)
    (function : stream.StaticFunction declaration range) :
    ∃ found ∈ stream.staticClosures declaration,
      found.start = range.start ∧ range.stop ≤ found.stop := by
  have listed {start : Nat} {found : IndexRange}
      (inside : declaration.bodyOpen < start ∧ start < declaration.bodyClose)
      (result : stream.staticClosure? declaration.bodyClose start = some found) :
      found ∈ stream.staticClosures declaration := by
    refine List.mem_filterMap.mpr ⟨start, ?_, result⟩
    rw [List.mem_range'_1]
    omega
  cases function with
  | @closure start keyword opening closing bodyOpen bodyClose inside isStatic next isFunction
      listOpen listClose body bodyEnd =>
      have noArrow : stream.isKeyword "fn" keyword = false := by
        rw [Bool.eq_false_iff]
        intro isArrow
        exact absurd (isKeyword_unique isFunction isArrow) (by decide)
      refine ⟨⟨start, bodyClose + 1⟩, listed inside ?_, rfl, Nat.le_refl _⟩
      rw [staticClosure?_of_opensClosure _ isStatic next (by rw [isFunction, Bool.or_true]) listOpen
        listClose, noArrow, body, Option.bind_some, bracedFrom?, bodyEnd]
      rfl
  | @arrow start keyword opening closing stop inside isStatic next isArrow listOpen listClose
      behind limit expression =>
      have result := staticClosure?_of_opensClosure declaration.bodyClose isStatic next
        (by rw [isArrow, Bool.true_or]) listOpen listClose
      rw [isArrow, if_pos rfl] at result
      refine ⟨_, listed inside result, rfl, ?_⟩
      simp only
      split
      next room =>
        have reach := SingleExpression.length_le expression
          (stream.slice ⟨stop, declaration.bodyClose⟩)
        rw [slice_append_slice _ (by omega) limit, length_slice] at reach
        simp only at reach
        omega
      next => exact limit

end TokenStream

end ConstructorInjection
