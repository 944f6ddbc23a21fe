import Mathlib.Data.List.Basic
import Mathlib.Tactic.Common
import ConstructorInjection.Injection.Plan
import ConstructorInjection.Proofs.Locating

/-!
The parts of a constructor behind its name: the parameter list, the body, and the assignments to
properties in it.
-/

namespace ConstructorInjection

/-- From `$this` through the sign of an assignment to a property. -/
inductive PropertyAssignment (name : Text) : List Token → Prop where
  | mk {object operator member sign : Token} {behindObject behindOperator behindMember : List Token}
      (isVariable : object.kind = .variableName) (isThis : object.text = ("$this" : Text))
      (blankObject : Blank behindObject) (isArrow : operator.kind = .objectOperator)
      (blankOperator : Blank behindOperator) (isMember : member.kind = .identifier)
      (named : member.text = name) (blankMember : Blank behindMember)
      (isAssign : sign.kind = .assign) :
      PropertyAssignment name (object :: (behindObject ++ operator :: (behindOperator ++
        member :: (behindMember ++ [sign]))))

/-- Somewhere among the tokens stands an assignment to a property of the object. -/
def Assigns (name : Text) (tokens : List Token) : Prop :=
  ∃ before assignment after, tokens = before ++ (assignment ++ after) ∧
    PropertyAssignment name assignment

theorem Assigns.append_left {name : Text} {tokens : List Token} (assigns : Assigns name tokens)
    (left : List Token) : Assigns name (left ++ tokens) := by
  obtain ⟨before, assignment, after, rfl, isAssignment⟩ := assigns
  exact ⟨left ++ before, assignment, after, by simp, isAssignment⟩

theorem Assigns.append_right {name : Text} {tokens : List Token} (assigns : Assigns name tokens)
    (right : List Token) : Assigns name (tokens ++ right) := by
  obtain ⟨before, assignment, after, rfl, isAssignment⟩ := assigns
  exact ⟨before, assignment, after ++ right, by simp, isAssignment⟩

theorem PropertyAssignment.exists_sign {name : Text} {tokens : List Token}
    (isAssignment : PropertyAssignment name tokens) :
    ∃ front sign, tokens = front ++ [sign] ∧ sign.kind = .assign := by
  cases isAssignment with
  | @mk object operator member sign behindObject behindOperator behindMember isVariable isThis
      blankObject isArrow blankOperator isMember named blankMember isAssign =>
      exact ⟨object :: (behindObject ++ operator :: (behindOperator ++ member :: behindMember)),
        sign, by simp, isAssign⟩

theorem Assigns.exists_operator {name : Text} {tokens : List Token} (assigns : Assigns name tokens) :
    ∃ token ∈ tokens, token.kind = .objectOperator := by
  obtain ⟨before, assignment, after, rfl, isAssignment⟩ := assigns
  cases isAssignment with
  | @mk object operator member sign behindObject behindOperator behindMember isVariable isThis
      blankObject isArrow => exact ⟨operator, by simp, isArrow⟩

theorem PropertyAssignment.noCloser {name : Text} {tokens : List Token}
    (isAssignment : PropertyAssignment name tokens) :
    ∀ token ∈ tokens, token.kind.isCloser = false := by
  have ofBlank {tokens : List Token} (blank : Blank tokens) {token : Token}
      (member : token ∈ tokens) : token.kind.isCloser = false := by
    have trivia := blank token member
    rw [Token.isTrivia] at trivia
    cases kind : token.kind <;> rw [kind] at trivia <;> first | contradiction | rfl
  cases isAssignment with
  | mk isVariable isThis blankObject isArrow blankOperator isMember named blankMember isAssign =>
      intro token member
      simp only [List.mem_cons, List.mem_append, List.not_mem_nil, or_false] at member
      rcases member with rfl | inBlanks | rfl | inBlanks | rfl | inBlanks | rfl
      · rw [isVariable]; rfl
      · exact ofBlank blankObject inBlanks
      · rw [isArrow]; rfl
      · exact ofBlank blankOperator inBlanks
      · rw [isMember]; rfl
      · exact ofBlank blankMember inBlanks
      · rw [isAssign]; rfl

namespace TokenStream

theorem isAssignment_iff {stream : TokenStream} {name : Text} {index : Nat} :
    stream.isAssignment name index = true ↔
      ∃ assignment rest, stream.drop index = assignment ++ rest ∧
        PropertyAssignment name assignment := by
  simp only [isAssignment, Bool.and_eq_true, Option.any_eq_true, beq_iff_eq,
    Option.bind_eq_some_iff, Option.isSome_iff_exists,
    nextOfKind?_iff_append .objectOperator rfl, nextOfKind?_iff_append .identifier rfl,
    nextOfKind?_iff_append .assign rfl]
  constructor
  · rintro ⟨⟨object, found, isVariable, isThis⟩, _,
      ⟨_, ⟨behindObject, operator, _, cutObject, rfl, isArrow, blankObject⟩,
        behindOperator, member, _, cutOperator, rfl, isMember, blankOperator⟩,
      ⟨other, atMember, named⟩, _, behindMember, sign, rest, cutMember, _, isAssign, blankMember⟩
    rw [getElem?_of_drop_eq cutOperator, Option.some.injEq] at atMember
    subst atMember
    refine ⟨_, rest, ?_, .mk isVariable isThis blankObject isArrow blankOperator isMember named
      blankMember isAssign⟩
    have second := (drop_of_drop_eq_cons cutObject).symm.trans cutOperator
    have third := (drop_of_drop_eq_cons cutOperator).symm.trans cutMember
    rw [drop_eq_cons_iff.mpr ⟨found, rfl⟩, cutObject, second, third]
    simp only [List.cons_append, List.append_assoc, List.nil_append]
  · rintro ⟨assignment, rest, cut, isAssignment⟩
    cases isAssignment with
    | mk isVariable isThis blankObject isArrow blankOperator isMember named blankMember isAssign =>
      simp only [List.cons_append, List.append_assoc, List.nil_append] at cut
      have found := drop_eq_cons_iff.mp cut
      have second := drop_of_drop_eq_cons found.2
      have third := drop_of_drop_eq_cons second
      exact ⟨⟨_, found.1, isVariable, isThis⟩, _,
        ⟨_, ⟨_, _, _, found.2, rfl, isArrow, blankObject⟩, _, _, _, second, rfl, isMember,
          blankOperator⟩,
        ⟨_, getElem?_of_drop_eq second, named⟩, _, _, _, _, third, rfl, isAssign, blankMember⟩

theorem assignsProperty_iff {stream : TokenStream} {opening closing : Nat} {name : Text}
    {body rest : List Token} {closer : Token}
    (cut : stream.drop (opening + 1) = body ++ closer :: rest)
    (place : closing = opening + 1 + body.length) (closes : closer.kind.isCloser = true) :
    stream.assignsProperty opening closing name = true ↔ Assigns name body := by
  simp only [assignsProperty, List.any_eq_true, List.mem_range'_1, isAssignment_iff]
  constructor
  · rintro ⟨index, ⟨lower, upper⟩, assignment, behind, found, isAssignment⟩
    obtain ⟨distance, rfl⟩ := Nat.exists_eq_add_of_le lower
    have inside : distance ≤ body.length := by omega
    have split : body.drop distance ++ closer :: rest = assignment ++ behind := by
      rw [← found, ← List.drop_drop, cut, List.drop_append_of_le_length inside]
    rcases List.append_eq_append_iff.mp split with ⟨more, longer, later⟩ | ⟨more, shorter, _⟩
    · cases more with
      | nil =>
          refine ⟨body.take distance, assignment, [], ?_, isAssignment⟩
          rw [List.append_nil, longer, List.append_nil, List.take_append_drop]
      | cons first more =>
          simp only [List.cons_append, List.cons.injEq] at later
          have noCloser := isAssignment.noCloser first (by simp [longer])
          rw [← later.1, closes] at noCloser
          contradiction
    · refine ⟨body.take distance, assignment, more, ?_, isAssignment⟩
      rw [← shorter, List.take_append_drop]
  · rintro ⟨before, assignment, after, rfl, isAssignment⟩
    refine ⟨opening + 1 + before.length, ⟨by omega, ?_⟩, assignment, after ++ closer :: rest, ?_,
      isAssignment⟩
    · cases isAssignment
      simp only [List.length_append, List.length_cons] at place
      omega
    · apply drop_of_drop_eq
      rw [cut]
      simp only [List.append_assoc]

/-- Before the body of a method stands no semicolon. -/
theorem bodyOpen?_eq_some_iff {stream : TokenStream} {start found : Nat} :
    stream.bodyOpen? start stream.length = some found ↔
      ∃ between brace rest, stream.drop start = between ++ brace :: rest ∧
        found = start + between.length ∧ brace.kind = .openBrace ∧
        ∀ token ∈ between, token.kind ≠ .openBrace ∧ token.kind ≠ .semicolon := by
  rw [bodyOpen?, Option.filter_eq_some_iff, firstIn?_eq_some_iff_append, slice_to_end, hasKind_iff]
  constructor
  · rintro ⟨⟨between, brace, rest, cut, rfl, _, earlier⟩, other, atFound, isBrace⟩
    rw [getElem?_of_drop_eq cut, Option.some.injEq] at atFound
    subst atFound
    refine ⟨between, brace, rest, cut, rfl, isBrace, ?_⟩
    intro token member
    simpa using earlier token member
  · rintro ⟨between, brace, rest, cut, rfl, isBrace, earlier⟩
    refine ⟨⟨between, brace, rest, cut, rfl, by simp [isBrace], ?_⟩, brace,
      getElem?_of_drop_eq cut, isBrace⟩
    intro token member
    simpa using earlier token member

/-- The places of a constructor follow from the parts behind its name. -/
theorem constructorAt_eq {stream : TokenStream} {name : Nat} {opener closer : Token}
    {blanks inner tail : List Token} (function : Nat)
    (cut : stream.drop (name + 1) = blanks ++ opener :: (inner ++ closer :: tail))
    (blank : Blank blanks) (opens : opener.kind = .openParen) (level : Level inner)
    (closes : closer.kind.isCloser = true) :
    let opening := name + 1 + blanks.length
    let closing := opening + 1 + inner.length
    let bodyOpen := stream.bodyOpen? (closing + 1) stream.length
    stream.constructorAt function name =
      ⟨stream.methodStart function, some ⟨opening, closing⟩,
        stream.parametersIn ⟨opening, closing⟩, bodyOpen, bodyOpen.bind stream.matchingClose?⟩ := by
  have opened : stream.nextOfKind? .openParen name = some (name + 1 + blanks.length) :=
    (nextOfKind?_iff_append .openParen rfl).mpr ⟨blanks, opener, _, cut, rfl, opens, blank⟩
  have closed : stream.matchingClose? (name + 1 + blanks.length) =
      some (name + 1 + blanks.length + 1 + inner.length) :=
    matchingClose?_eq_some_iff.mpr ⟨opener, inner, closer, tail,
      by rw [drop_of_drop_eq cut]; rfl, rfl, by rw [opens]; rfl, closes, level⟩
  simp only [constructorAt, opened, closed, Option.bind_eq_bind, Option.bind_some, Option.pure_def]

theorem constructorAt_parts {stream : TokenStream} {function name : Nat} {list : ParameterList}
    (listed : (stream.constructorAt function name).parameterList = some list) :
    ∃ blanks opener inner closer tail,
      stream.drop (name + 1) = blanks ++ opener :: (inner ++ closer :: tail) ∧ Blank blanks ∧
      opener.kind = .openParen ∧ Level inner ∧ closer.kind.isCloser = true ∧
      list.opening = name + 1 + blanks.length ∧
      list.closing = list.opening + 1 + inner.length := by
  rw [constructorAt] at listed
  simp only [Option.bind_eq_bind, Option.pure_def] at listed
  split at listed
  next => simp at listed
  next found result =>
    simp only [Option.some.injEq] at listed
    subst listed
    simp only [Option.bind_eq_some_iff, Option.some.injEq] at result
    obtain ⟨opening, opened, closing, closed, rfl⟩ := result
    obtain ⟨blanks, opener, rest, cut, rfl, opens, blank⟩ :=
      (nextOfKind?_iff_append .openParen rfl).mp opened
    obtain ⟨first, inner, closer, tail, atOpener, rfl, _, closes, level⟩ :=
      matchingClose?_eq_some_iff.mp closed
    rw [drop_of_drop_eq cut, List.cons_append, List.cons.injEq] at atOpener
    obtain ⟨_, rfl⟩ := atOpener
    exact ⟨blanks, opener, inner, closer, tail, cut, blank, opens, level, closes, rfl, rfl⟩

/-- A constructor without a parameter list has no body either. -/
theorem bodyOpen_eq_none_of_unlisted {stream : TokenStream} {function name : Nat}
    (unlisted : (stream.constructorAt function name).parameterList = none) :
    (stream.constructorAt function name).bodyOpen = none := by
  rw [constructorAt] at unlisted ⊢
  simp only at unlisted ⊢
  split
  next => rfl
  next list found =>
    rw [found] at unlisted
    contradiction

end TokenStream

end ConstructorInjection
