import Mathlib.Data.List.Basic
import Mathlib.Tactic.Common
import ConstructorInjection.Proofs.Navigation

/-!
Where a constructor is found. The class and its constructor are described by the parts that the
stream is made of, so that they can be found again in a stream that has grown between these parts.
-/

namespace ConstructorInjection

/-- From `function` through a name that is the marker in any case. -/
inductive MethodHead (marker : Text) : List Token → Prop where
  | direct {function name : Token} {blanks : List Token}
      (keyword : function.isKeyword "function" = true) (blank : Blank blanks)
      (identifier : name.kind = .identifier) (marked : name.text.equalIgnoringCase marker = true) :
      MethodHead marker (function :: (blanks ++ [name]))
  | byReference {function ampersand name : Token} {blanks more : List Token}
      (keyword : function.isKeyword "function" = true) (blank : Blank blanks)
      (isAmpersand : ampersand.kind = .ampersand) (furtherBlank : Blank more)
      (identifier : name.kind = .identifier) (marked : name.text.equalIgnoringCase marker = true) :
      MethodHead marker (function :: (blanks ++ ampersand :: (more ++ [name])))

namespace MethodHead

theorem exists_cons {marker : Text} {head : List Token} (method : MethodHead marker head) :
    ∃ function rest, head = function :: rest ∧ function.isKeyword "function" = true ∧
      ∀ token ∈ rest, token.kind ≠ .keyword ∧ token.kind.isOpener = false ∧
        token.kind.isCloser = false := by
  have ofTrivia {token : Token} (trivia : token.isTrivia = true) :
      token.kind ≠ .keyword ∧ token.kind.isOpener = false ∧ token.kind.isCloser = false := by
    rw [Token.isTrivia] at trivia
    cases kind : token.kind <;> rw [kind] at trivia <;>
      first | contradiction | exact ⟨by decide, rfl, rfl⟩
  have ofKind {token : Token} {kind : TokenKind} (isKind : token.kind = kind)
      (plain : kind ≠ .keyword ∧ kind.isOpener = false ∧ kind.isCloser = false) :
      token.kind ≠ .keyword ∧ token.kind.isOpener = false ∧ token.kind.isCloser = false := by
    rwa [isKind]
  cases method with
  | direct keyword blank identifier marked =>
      refine ⟨_, _, rfl, keyword, ?_⟩
      intro token member
      rcases List.mem_append.mp member with inBlanks | last
      · exact ofTrivia (blank token inBlanks)
      · rw [List.mem_singleton.mp last]
        exact ofKind identifier (by decide)
  | byReference keyword blank isAmpersand furtherBlank identifier marked =>
      refine ⟨_, _, rfl, keyword, ?_⟩
      intro token member
      simp only [List.mem_append, List.mem_cons, List.not_mem_nil, or_false] at member
      rcases member with inBlanks | rfl | inMore | rfl
      · exact ofTrivia (blank token inBlanks)
      · exact ofKind isAmpersand (by decide)
      · exact ofTrivia (furtherBlank token inMore)
      · exact ofKind identifier (by decide)

theorem plain {marker : Text} {head : List Token} (method : MethodHead marker head) :
    ∀ token ∈ head, token.kind.isOpener = false ∧ token.kind.isCloser = false := by
  obtain ⟨function, rest, rfl, keyword, noDelimiter⟩ := method.exists_cons
  intro token member
  rcases List.mem_cons.mp member with rfl | later
  · rw [Token.isKeyword, Bool.and_eq_true, beq_iff_eq] at keyword
    rw [keyword.1]
    exact ⟨rfl, rfl⟩
  · exact (noDelimiter token later).2

theorem level {marker : Text} {head : List Token} (method : MethodHead marker head) :
    Level head :=
  Level.of_plain method.plain

end MethodHead

namespace TokenStream

theorem markedMethod?_eq_some {stream : TokenStream} {marker : Text} {index function name : Nat} :
    stream.markedMethod? marker index = some (function, name) ↔
      stream.isKeyword "function" index = true ∧ stream.methodName? index = some name ∧
        stream[name]?.any (·.text.equalIgnoringCase marker) = true ∧ function = index := by
  rw [markedMethod?]
  by_cases keyword : stream.isKeyword "function" index = true
  · rw [if_pos keyword]
    simp only [Option.bind_eq_bind, Option.bind_eq_some_iff, keyword, true_and]
    constructor
    · rintro ⟨found, named, result⟩
      split at result
      next marked =>
        cases result
        exact ⟨named, marked, rfl⟩
      next => contradiction
    · rintro ⟨named, marked, rfl⟩
      exact ⟨name, named, by rw [if_pos marked]⟩
  · rw [if_neg keyword]
    constructor
    · intro result
      contradiction
    · rintro ⟨isFunction, _⟩
      contradiction

theorem markedMethod?_eq_some_iff {stream : TokenStream} {marker : Text}
    {index function name : Nat} :
    stream.markedMethod? marker index = some (function, name) ↔
      function = index ∧ ∃ head rest, stream.drop index = head ++ rest ∧
        MethodHead marker head ∧ index + head.length = name + 1 := by
  rw [markedMethod?_eq_some, methodName?_eq_some_iff]
  simp only [nextOfKind?_iff_append .identifier rfl, nextOfKind?_iff_append .ampersand rfl]
  constructor
  · rintro ⟨keyword, named, marked, rfl⟩
    refine ⟨rfl, ?_⟩
    rw [isKeyword, Option.any_eq_true] at keyword
    obtain ⟨first, found, isFunction⟩ := keyword
    have start := drop_eq_cons_iff.mpr ⟨found, rfl⟩
    rcases named with ⟨blanks, token, rest, cut, rfl, identifier, blank⟩ |
      ⟨_, ⟨blanks, ampersand, rest, cut, rfl, isAmpersand, blank⟩,
        more, token, behind, further, rfl, identifier, furtherBlank⟩
    · rw [getElem?_of_drop_eq cut, Option.any_some] at marked
      refine ⟨first :: (blanks ++ [token]), rest, ?_, .direct isFunction blank identifier marked, ?_⟩
      · rw [start, cut]
        simp
      · simp only [List.length_cons, List.length_append, List.length_nil]
        omega
    · have second : rest = more ++ token :: behind := by
        rw [← further, Nat.add_assoc]
        exact (drop_of_drop_eq_cons cut).symm
      rw [getElem?_of_drop_eq further, Option.any_some] at marked
      refine ⟨first :: (blanks ++ ampersand :: (more ++ [token])), behind, ?_,
        .byReference isFunction blank isAmpersand furtherBlank identifier marked, ?_⟩
      · rw [start, cut, second]
        simp
      · simp only [List.length_cons, List.length_append, List.length_nil]
        omega
  · rintro ⟨rfl, head, rest, cut, method, position⟩
    have isFunction : stream.isKeyword "function" function = true := by
      obtain ⟨first, behind, rfl, keyword, _⟩ := method.exists_cons
      rw [List.cons_append, drop_eq_cons_iff] at cut
      rw [isKeyword, cut.1, Option.any_some, keyword]
    refine ⟨isFunction, ?_⟩
    cases method with
    | @direct first token blanks keyword blank identifier marked =>
        simp only [List.length_cons, List.length_append, List.length_nil, List.cons_append,
          List.append_assoc, List.nil_append] at cut position
        have behind : stream.drop (function + 1) = blanks ++ token :: rest :=
          (drop_eq_cons_iff.mp cut).2
        have place : name = function + 1 + blanks.length := by omega
        refine ⟨.inl ⟨blanks, token, rest, behind, place, identifier, blank⟩, ?_, rfl⟩
        rw [place, getElem?_of_drop_eq behind, Option.any_some, marked]
    | @byReference first ampersand token blanks more keyword blank isAmpersand furtherBlank
        identifier marked =>
        simp only [List.length_cons, List.length_append, List.length_nil, List.cons_append,
          List.append_assoc, List.nil_append] at cut position
        have behind : stream.drop (function + 1) =
            blanks ++ ampersand :: (more ++ token :: rest) :=
          (drop_eq_cons_iff.mp cut).2
        have further := drop_of_drop_eq_cons behind
        have place : name = function + 1 + blanks.length + 1 + more.length := by omega
        refine ⟨.inr ⟨_, ⟨blanks, ampersand, _, behind, rfl, isAmpersand, blank⟩,
          more, token, rest, further, place, identifier, furtherBlank⟩, ?_, rfl⟩
        rw [place, getElem?_of_drop_eq further, Option.any_some, marked]

theorem mem_outermostFrom_iff {index depth behind found : Nat} {tokens : List Token}
    (opened : openBehind depth tokens = some behind) :
    found ∈ outermostFrom index depth tokens ↔
      ∃ before token after, tokens = before ++ token :: after ∧ found = index + before.length ∧
        token.kind.isCloser = false ∧ openBehind depth before = some 0 := by
  induction tokens generalizing index depth with
  | nil => simp [outermostFrom]
  | cons token tokens ih =>
      have cases_before : (∃ before other after, token :: tokens = before ++ other :: after ∧
            found = index + before.length ∧ other.kind.isCloser = false ∧
            openBehind depth before = some 0) ↔
          (found = index ∧ token.kind.isCloser = false ∧ depth = 0) ∨
            ∃ before other after, tokens = before ++ other :: after ∧
              found = index + 1 + before.length ∧ other.kind.isCloser = false ∧
              openBehind depth (token :: before) = some 0 := by
        constructor
        · rintro ⟨before, other, after, cut, rfl, noCloser, level⟩
          cases before with
          | nil =>
              cases cut
              cases level
              exact .inl ⟨rfl, noCloser, rfl⟩
          | cons first before =>
              cases cut
              refine .inr ⟨before, other, after, rfl, ?_, noCloser, level⟩
              rw [List.length_cons]
              omega
        · rintro (⟨rfl, noCloser, rfl⟩ | ⟨before, other, after, rfl, rfl, noCloser, level⟩)
          · exact ⟨[], token, tokens, rfl, rfl, noCloser, rfl⟩
          · refine ⟨token :: before, other, after, rfl, ?_, noCloser, level⟩
            rw [List.length_cons]
            omega
      rw [cases_before, outermostFrom]
      rw [openBehind] at opened
      split at opened
      next opener =>
        have noCloser : token.kind.isCloser = false := by
          rw [Bool.eq_false_iff]
          intro closer
          rw [TokenKind.isOpener_of_isCloser closer] at opener
          contradiction
        rw [if_pos opener]
        simp only [openBehind, if_pos opener]
        split
        next outside => rw [List.mem_cons, ih opened]; simp [noCloser, outside]
        next inside => rw [ih opened]; simp [inside]
      next noOpener =>
        rw [if_neg noOpener]
        split at opened
        next closer =>
          split at opened
          next => contradiction
          next positive =>
            rw [if_pos closer, ih opened]
            simp only [openBehind, if_neg noOpener, if_pos closer, if_neg positive]
            simp [closer]
        next noCloser =>
          rw [if_neg noCloser]
          simp only [openBehind, if_neg noOpener, if_neg noCloser]
          split
          next outside => rw [List.mem_cons, ih opened]; simp [noCloser, outside]
          next inside => rw [ih opened]; simp [inside]

theorem pairwise_outermostFrom (index depth : Nat) (tokens : List Token) :
    (∀ found ∈ outermostFrom index depth tokens, index ≤ found) ∧
      (outermostFrom index depth tokens).Pairwise (· < ·) := by
  induction tokens generalizing index depth with
  | nil => simp [outermostFrom]
  | cons token tokens ih =>
      have later (next : Nat) : (∀ found ∈ outermostFrom (index + 1) next tokens, index ≤ found) ∧
          (outermostFrom (index + 1) next tokens).Pairwise (· < ·) := by
        obtain ⟨above, sorted⟩ := ih (index + 1) next
        refine ⟨?_, sorted⟩
        intro found member
        have bound := above found member
        omega
      have first (next : Nat) :
          (∀ found ∈ index :: outermostFrom (index + 1) next tokens, index ≤ found) ∧
            (index :: outermostFrom (index + 1) next tokens).Pairwise (· < ·) := by
        obtain ⟨above, sorted⟩ := ih (index + 1) next
        refine ⟨?_, List.pairwise_cons.mpr ⟨?_, sorted⟩⟩
        · intro found member
          rcases List.mem_cons.mp member with rfl | inLater
          · exact Nat.le_refl _
          · exact (later next).1 found inLater
        · intro found member
          exact above found member
      rw [outermostFrom]
      split
      next =>
        simp only
        split
        · exact first _
        · exact later _
      next =>
        split
        · exact later _
        · split
          · exact first _
          · exact later _

end TokenStream

/-- No method that the marker names stands outside of all delimiters. -/
def Unmarked (marker : Text) (tokens : List Token) : Prop :=
  ∀ before head after, tokens = before ++ head ++ after → MethodHead marker head →
    ¬ Level before

theorem Unmarked.of_noFunction {marker : Text} {tokens : List Token}
    (noFunction : ∀ token ∈ tokens, token.isKeyword "function" = false) :
    Unmarked marker tokens := by
  intro before head after cut method
  obtain ⟨function, rest, rfl, keyword, _⟩ := method.exists_cons
  have absent := noFunction function (by simp [cut])
  rw [keyword] at absent
  contradiction

theorem Unmarked.append {marker : Text} {left right : List Token}
    (noFunction : ∀ token ∈ left, token.isKeyword "function" = false) (level : Level left)
    (unmarked : Unmarked marker right) : Unmarked marker (left ++ right) := by
  intro before head after cut method outside
  obtain ⟨function, rest, rfl, keyword, _⟩ := method.exists_cons
  rw [List.append_assoc] at cut
  rcases List.append_eq_append_iff.mp cut with ⟨more, rfl, later⟩ | ⟨more, rfl, later⟩
  · exact unmarked more _ after (by rw [later, List.append_assoc]) method
      (level.of_append_left outside)
  · cases more with
    | nil =>
        exact unmarked [] _ after (by simpa using later.symm) method Level.nil
    | cons first more =>
        simp only [List.cons_append, List.cons.injEq] at later
        have absent := noFunction function (by simp [later.1])
        rw [keyword] at absent
        contradiction

/-- A method whose head starts before a `function` ends before it. -/
theorem MethodHead.ends_before {marker : Text} {function : Token}
    {before tail earlier head rest : List Token} (method : MethodHead marker head)
    (keyword : function.isKeyword "function" = true)
    (cut : before ++ function :: tail = earlier ++ head ++ rest)
    (starts : earlier.length < before.length) : ∃ after, before = earlier ++ head ++ after := by
  rcases List.append_eq_append_iff.mp cut with ⟨more, longer, later⟩ | ⟨after, shorter, _⟩
  · cases more with
    | nil => exact ⟨[], by simpa using longer.symm⟩
    | cons first more =>
        simp only [List.cons_append, List.cons.injEq] at later
        obtain ⟨rfl, _⟩ := later
        rcases List.append_eq_append_iff.mp longer with ⟨middle, rfl, inHead⟩ | ⟨_, rfl, _⟩
        · obtain ⟨_, others, rfl, _, plain⟩ := method.exists_cons
          cases middle with
          | nil => simp at starts
          | cons other middle =>
              simp only [List.cons_append, List.cons.injEq] at inHead
              have notKeyword := (plain function (by simp [inHead.2])).1
              rw [Token.isKeyword, Bool.and_eq_true, beq_iff_eq] at keyword
              exact absurd keyword.1 notKeyword
        · simp only [List.length_append] at starts
          omega
  · exact ⟨after, shorter⟩

namespace TokenStream

theorem findClass?_parts {stream : TokenStream} {declaration : ClassDeclaration}
    (found : stream.findClass? = some declaration) :
    ∃ body closer rest, stream.drop (declaration.bodyOpen + 1) = body ++ closer :: rest ∧
      declaration.bodyClose = declaration.bodyOpen + 1 + body.length ∧
      closer.kind.isCloser = true ∧ Level body := by
  simp only [findClass?, Option.bind_eq_bind, Option.bind_eq_some_iff, Option.pure_def,
    Option.some.injEq] at found
  obtain ⟨keyword, _, bodyOpen, _, bodyClose, closes, rfl⟩ := found
  obtain ⟨first, body, closer, rest, cut, place, _, closer_closes, level⟩ :=
    matchingClose?_eq_some_iff.mp closes
  rw [List.cons_append, drop_eq_cons_iff] at cut
  exact ⟨body, closer, rest, cut.2, place, closer_closes, level⟩

theorem bodyOpen_lt_length {stream : TokenStream} {declaration : ClassDeclaration}
    (found : stream.findClass? = some declaration) : declaration.bodyOpen < stream.length := by
  obtain ⟨body, closer, rest, cut, _⟩ := findClass?_parts found
  have size := congrArg List.length cut
  simp only [List.length_drop, List.length_append, List.length_cons] at size
  omega

/-- Something closes the brace of a class. -/
theorem openBehind_eq_none_of_findClass? {stream : TokenStream} {declaration : ClassDeclaration}
    (found : stream.findClass? = some declaration) :
    openBehind 0 (stream.drop (declaration.bodyOpen + 1)) = none := by
  obtain ⟨body, closer, rest, cut, _, closes, level⟩ := findClass?_parts found
  rw [cut, openBehind_append, level, Option.bind_some, openBehind,
    TokenKind.isOpener_of_isCloser closes, closes]
  rfl

theorem mem_members_iff {stream : TokenStream} {declaration : ClassDeclaration}
    {body rest : List Token} {closer : Token} (index : Nat)
    (cut : stream.drop (declaration.bodyOpen + 1) = body ++ closer :: rest)
    (place : declaration.bodyClose = declaration.bodyOpen + 1 + body.length) (level : Level body) :
    index ∈ stream.members declaration.bodyOpen declaration.bodyClose ↔
      ∃ before token after, body = before ++ token :: after ∧
        index = declaration.bodyOpen + 1 + before.length ∧ token.kind.isCloser = false ∧
        Level before := by
  have inside := slice_of_drop_eq cut place
  rw [members, inside, mem_outermostFrom_iff level]
  rfl

theorem head?_marked_eq_some_iff {stream : TokenStream} {declaration : ClassDeclaration}
    {marker : Text} {function name : Nat} (found : stream.findClass? = some declaration) :
    ((stream.members declaration.bodyOpen declaration.bodyClose).filterMap
        (stream.markedMethod? marker)).head? = some (function, name) ↔
      ∃ before head rest, stream.drop (declaration.bodyOpen + 1) = before ++ head ++ rest ∧
        Level before ∧ Unmarked marker before ∧ MethodHead marker head ∧
        function = declaration.bodyOpen + 1 + before.length ∧
        function + head.length = name + 1 := by
  obtain ⟨body, closer, behind, cut, place, closes, level⟩ := findClass?_parts found
  have member (index : Nat) := mem_members_iff index cut place level
  have sorted := (pairwise_outermostFrom (declaration.bodyOpen + 1) 0
    (stream.slice ⟨declaration.bodyOpen + 1, declaration.bodyClose⟩)).2
  rw [← members] at sorted
  rw [List.head?_filterMap, List.findSome?_eq_some_iff]
  constructor
  · rintro ⟨earlier, index, later, split, marked, unmarked⟩
    rw [split, List.pairwise_append] at sorted
    obtain ⟨rfl, head, rest, headCut, method, position⟩ := markedMethod?_eq_some_iff.mp marked
    obtain ⟨before, token, after, rfl, functionPlace, _, levelBefore⟩ :=
      (member function).mp (by simp [split])
    have behindBefore : stream.drop (declaration.bodyOpen + 1) =
        before ++ (token :: after ++ closer :: behind) := by
      rw [cut, List.append_assoc]
    have whole : stream.drop (declaration.bodyOpen + 1) = before ++ head ++ rest := by
      rw [behindBefore, ← drop_of_drop_eq behindBefore, ← functionPlace, headCut,
        List.append_assoc]
    refine ⟨before, head, rest, whole, levelBefore, ?_, method, functionPlace, position⟩
    intro first otherHead between cutBefore otherMethod levelFirst
    have inMembers : declaration.bodyOpen + 1 + first.length ∈
        stream.members declaration.bodyOpen declaration.bodyClose := by
      obtain ⟨other, others, rfl, keyword, _⟩ := otherMethod.exists_cons
      refine (member _).mpr ⟨first, other, others ++ between ++ token :: after, ?_, rfl, ?_,
        levelFirst⟩
      · simp [cutBefore]
      · rw [Token.isKeyword, Bool.and_eq_true, beq_iff_eq] at keyword
        rw [keyword.1]
        rfl
    have found : ∃ otherName, stream.markedMethod? marker (declaration.bodyOpen + 1 + first.length) =
        some (declaration.bodyOpen + 1 + first.length, otherName) := by
      have positive : 0 < otherHead.length := by
        obtain ⟨other, others, rfl, _⟩ := otherMethod.exists_cons
        simp
      refine ⟨declaration.bodyOpen + 1 + first.length + otherHead.length - 1,
        markedMethod?_eq_some_iff.mpr ⟨rfl, otherHead, between ++ head ++ rest, ?_, otherMethod,
          by omega⟩⟩
      apply drop_of_drop_eq
      rw [whole, cutBefore]
      simp only [List.append_assoc]
    obtain ⟨otherName, foundMarked⟩ := found
    rw [split, List.mem_append, List.mem_cons] at inMembers
    rcases inMembers with inEarlier | same | inLater
    · rw [unmarked _ inEarlier] at foundMarked
      contradiction
    · have shorter : first.length < before.length := by
        obtain ⟨other, others, rfl, _⟩ := otherMethod.exists_cons
        simp only [cutBefore, List.length_append, List.length_cons]
        omega
      omega
    · have order := (List.pairwise_cons.mp sorted.2.1).1 _ inLater
      have shorter : first.length ≤ before.length := by
        simp only [cutBefore, List.length_append]
        omega
      omega
  · rintro ⟨before, head, rest, whole, levelBefore, unmarked, method, rfl, position⟩
    obtain ⟨first, others, rfl, keyword, _⟩ := method.exists_cons
    have noCloser : first.kind.isCloser = false := by
      rw [Token.isKeyword, Bool.and_eq_true, beq_iff_eq] at keyword
      rw [keyword.1]
      rfl
    have wholeCut : before ++ first :: (others ++ rest) = body ++ closer :: behind := by
      rw [← cut, whole]
      simp
    obtain ⟨after, bodyCut⟩ := levelBefore.within_delimiters level closes noCloser wholeCut
    have inMembers : declaration.bodyOpen + 1 + before.length ∈
        stream.members declaration.bodyOpen declaration.bodyClose :=
      (member _).mpr ⟨before, first, after, bodyCut, rfl, noCloser, levelBefore⟩
    obtain ⟨earlier, later, split⟩ := List.append_of_mem inMembers
    refine ⟨earlier, _, later, split, ?_, ?_⟩
    · refine markedMethod?_eq_some_iff.mpr ⟨rfl, first :: others, rest, ?_, method, position⟩
      apply drop_of_drop_eq
      rw [whole, List.append_assoc]
    · intro index inEarlier
      rw [split, List.pairwise_append] at sorted
      have order := sorted.2.2 index inEarlier _ (List.mem_cons_self)
      obtain ⟨otherBefore, token, otherAfter, otherCut, rfl, _, otherLevel⟩ :=
        (member index).mp (by simp [split, inEarlier])
      rw [Option.eq_none_iff_forall_ne_some]
      rintro ⟨function, otherName⟩ marked
      obtain ⟨rfl, otherHead, otherRest, headCut, otherMethod, _⟩ :=
        markedMethod?_eq_some_iff.mp marked
      have overlap : before ++ first :: (others ++ rest) = otherBefore ++ otherHead ++ otherRest := by
        have otherWhole : stream.drop (declaration.bodyOpen + 1) =
            otherBefore ++ (token :: otherAfter ++ closer :: behind) := by
          rw [cut, otherCut, List.append_assoc]
        rw [List.append_assoc, ← headCut, drop_of_drop_eq otherWhole, ← otherWhole, whole,
          List.append_assoc, List.cons_append]
      obtain ⟨between, early⟩ := otherMethod.ends_before keyword overlap (by omega)
      exact unmarked otherBefore otherHead between early otherMethod otherLevel

theorem getElem?_of_take_eq {stream other : TokenStream} {limit index : Nat}
    (same : other.take limit = stream.take limit) (inside : index < limit) :
    other[index]? = stream[index]? := by
  have equal : (other.take limit)[index]? = (stream.take limit)[index]? := by rw [same]
  rwa [List.getElem?_take, List.getElem?_take, if_pos inside, if_pos inside] at equal

theorem isClassKeyword_of_take_eq {stream other : TokenStream} {limit index : Nat}
    (same : other.take limit = stream.take limit) (inside : index < limit) :
    (other.isKeyword "class" index && !other.refersToClass index) =
      (stream.isKeyword "class" index && !stream.refersToClass index) := by
  have before : other.take index = stream.take index := by
    have equal : (other.take limit).take index = (stream.take limit).take index := by rw [same]
    rwa [List.take_take, List.take_take, Nat.min_eq_left (Nat.le_of_lt inside)] at equal
  have previous : other.previousSignificant? index = stream.previousSignificant? index := by
    simp only [previousSignificant?, lastIn?, slice, before]
  have refers : other.refersToClass index = stream.refersToClass index := by
    rw [refersToClass, refersToClass, previous]
    cases found : stream.previousSignificant? index with
    | none => rfl
    | some earlier =>
        have order := stream.lt_of_previousSignificant? found
        rw [Option.bind_some, Option.bind_some, getElem?_of_take_eq same (by omega)]
  rw [refers, isKeyword, isKeyword, getElem?_of_take_eq same inside]

/-- The brace of a class stands where it was in a stream that is the same up to it. -/
theorem classBrace_of_take_eq {stream other : TokenStream} {declaration : ClassDeclaration}
    (found : stream.findClass? = some declaration)
    (same : other.take (declaration.bodyOpen + 1) = stream.take (declaration.bodyOpen + 1)) :
    ∃ keyword, other.classKeyword? = some keyword ∧
      other.firstIn? ⟨keyword + 1, other.length⟩ (·.kind == .openBrace) =
        some declaration.bodyOpen := by
  simp only [findClass?, Option.bind_eq_bind, Option.bind_eq_some_iff, Option.pure_def,
    Option.some.injEq] at found
  obtain ⟨keyword, isClass, bodyOpen, brace, bodyClose, _, rfl⟩ := found
  obtain ⟨⟨lower, upper, passes⟩, earlier⟩ := firstIn?_eq_some_iff.mp brace
  simp only at same lower upper earlier
  have atBrace := getElem?_of_take_eq same (Nat.lt_succ_self bodyOpen)
  have inside : bodyOpen < other.length := by
    rw [List.getElem?_eq_getElem upper] at atBrace
    exact (List.getElem?_eq_some_iff.mp atBrace).1
  refine ⟨keyword, ?_, firstIn?_eq_some_iff.mpr ⟨⟨lower, inside, ?_⟩, ?_⟩⟩
  · rw [classKeyword?, List.find?_range_eq_some] at isClass ⊢
    obtain ⟨accepted, _, rejected⟩ := isClass
    refine ⟨?_, List.mem_range.mpr (by omega), ?_⟩
    · rwa [isClassKeyword_of_take_eq same (by omega)]
    · intro index before
      rw [isClassKeyword_of_take_eq same (by omega)]
      exact rejected index before
  · rwa [Passes, atBrace]
  · intro index first before
    have inFront : index < bodyOpen + 1 := Nat.lt_succ_of_lt before
    rw [Passes, getElem?_of_take_eq same inFront]
    exact earlier index first before

theorem bodyOpen_of_take_eq {stream other : TokenStream} {declaration again : ClassDeclaration}
    (found : stream.findClass? = some declaration)
    (same : other.take (declaration.bodyOpen + 1) = stream.take (declaration.bodyOpen + 1))
    (foundAgain : other.findClass? = some again) : again.bodyOpen = declaration.bodyOpen := by
  obtain ⟨keyword, isClass, brace⟩ := classBrace_of_take_eq found same
  simp only [findClass?, isClass, Option.bind_eq_bind, Option.bind_eq_some_iff, Option.pure_def,
    Option.some.injEq] at foundAgain
  obtain ⟨_, rfl, _, braceAgain, _, _, rfl⟩ := foundAgain
  rw [brace, Option.some.injEq] at braceAgain
  exact braceAgain.symm

/-- A class is found again in a stream that is the same up to the brace of the class, if something
closes that brace. -/
theorem findClass?_of_closed {stream other : TokenStream} {declaration : ClassDeclaration}
    (found : stream.findClass? = some declaration)
    (same : other.take (declaration.bodyOpen + 1) = stream.take (declaration.bodyOpen + 1))
    (closed : openBehind 0 (other.drop (declaration.bodyOpen + 1)) = none) :
    ∃ again, other.findClass? = some again ∧ again.bodyOpen = declaration.bodyOpen := by
  obtain ⟨keyword, isClass, brace⟩ := classBrace_of_take_eq found same
  obtain ⟨⟨_, inside, passes⟩, _⟩ := firstIn?_eq_some_iff.mp brace
  obtain ⟨opener, atOpener, isBrace⟩ := (Option.any_eq_true _ _).mp passes
  have opens : opener.kind.isOpener = true := by
    rw [beq_iff_eq] at isBrace
    rw [isBrace]
    rfl
  obtain ⟨inner, closer, rest, behind, closes, level⟩ := exists_closer_of_openBehind_eq_none closed
  have matched : other.matchingClose? declaration.bodyOpen =
      some (declaration.bodyOpen + 1 + inner.length) :=
    matchingClose?_eq_some_iff.mpr ⟨opener, inner, closer, rest,
      by rw [drop_eq_cons_iff.mpr ⟨atOpener, behind⟩]; rfl, rfl, opens, closes, level⟩
  simp only [findClass?, isClass, brace, matched, Option.bind_eq_bind, Option.bind_some,
    Option.pure_def, Option.some.injEq, exists_eq_left']

/-- A class is found again in a stream whose delimiters match. -/
theorem findClass?_of_take_eq {stream other : TokenStream} {declaration : ClassDeclaration}
    (found : stream.findClass? = some declaration)
    (same : other.take (declaration.bodyOpen + 1) = stream.take (declaration.bodyOpen + 1))
    (level : Level other) :
    ∃ again, other.findClass? = some again ∧ again.bodyOpen = declaration.bodyOpen := by
  obtain ⟨keyword, isClass, brace⟩ := classBrace_of_take_eq found same
  obtain ⟨⟨_, inside, passes⟩, _⟩ := firstIn?_eq_some_iff.mp brace
  obtain ⟨opener, atOpener, isBrace⟩ := (Option.any_eq_true _ _).mp passes
  have opens : opener.kind.isOpener = true := by
    rw [beq_iff_eq] at isBrace
    rw [isBrace]
    rfl
  have whole : other =
      other.take declaration.bodyOpen ++ opener :: other.drop (declaration.bodyOpen + 1) := by
    rw [← drop_eq_cons_iff.mpr ⟨atOpener, rfl⟩, List.take_append_drop]
  rw [whole] at level
  exact findClass?_of_closed found same (level.openBehind_eq_none opens)

end TokenStream

end ConstructorInjection
