import Mathlib.Data.List.Basic
import Mathlib.Tactic.Common
import ConstructorInjection.Proofs.Replacements

/-!
What a conversion leaves alone. Its two batches of edits put tokens in, and beside the converted
calls they take nothing out but blanks in the parameter list and in the body of the constructor.
-/

namespace ConstructorInjection

/-- What is left of tokens, the first of which has the given index, when some that may go have
gone. -/
inductive Thinned (mayGo : Nat → Token → Prop) : Nat → List Token → List Token → Prop where
  | done (index : Nat) : Thinned mayGo index [] []
  | keep {index : Nat} {token : Token} {rest kept : List Token}
      (later : Thinned mayGo (index + 1) rest kept) :
      Thinned mayGo index (token :: rest) (token :: kept)
  | drop {index : Nat} {token : Token} {rest kept : List Token} (goes : mayGo index token)
      (later : Thinned mayGo (index + 1) rest kept) : Thinned mayGo index (token :: rest) kept

namespace Thinned

variable {mayGo : Nat → Token → Prop} {index : Nat} {tokens kept : List Token}

theorem refl (index : Nat) (tokens : List Token) : Thinned mayGo index tokens tokens := by
  induction tokens generalizing index with
  | nil => exact .done index
  | cons token rest ih => exact .keep (ih (index + 1))

theorem of_mayGo (goes : ∀ offset token, tokens[offset]? = some token →
    mayGo (index + offset) token) : Thinned mayGo index tokens [] := by
  induction tokens generalizing index with
  | nil => exact .done index
  | cons token rest ih =>
      refine .drop (goes 0 token rfl) (ih ?_)
      intro offset other found
      have next := goes (offset + 1) other (by simpa using found)
      rwa [Nat.add_right_comm, Nat.add_assoc]

theorem append {others otherKept : List Token} (first : Thinned mayGo index tokens kept)
    (second : Thinned mayGo (index + tokens.length) others otherKept) :
    Thinned mayGo index (tokens ++ others) (kept ++ otherKept) := by
  induction first with
  | done => exact second
  | @keep index token rest kept _ ih =>
      rw [List.length_cons, ← Nat.add_assoc, Nat.add_right_comm] at second
      exact .keep (ih second)
  | @drop index token rest kept goes _ ih =>
      rw [List.length_cons, ← Nat.add_assoc, Nat.add_right_comm] at second
      exact .drop goes (ih second)

theorem mono {other : Nat → Token → Prop} (thinned : Thinned mayGo index tokens kept)
    (weaker : ∀ index token, mayGo index token → other index token) :
    Thinned other index tokens kept := by
  induction thinned with
  | done => exact .done _
  | keep _ ih => exact .keep ih
  | drop goes _ ih => exact .drop (weaker _ _ goes) ih

theorem filter_eq {test : Token → Bool} (thinned : Thinned mayGo index tokens kept)
    (rejected : ∀ index token, mayGo index token → test token = false) :
    kept.filter test = tokens.filter test := by
  induction thinned with
  | done => rfl
  | keep _ ih => rw [List.filter_cons, List.filter_cons, ih]
  | drop goes _ ih => rw [List.filter_cons, rejected _ _ goes, ih]; rfl

end Thinned

namespace Edit

/-- Edits within a range that take away only tokens that may go. -/
structure Trims (mayGo : Nat → Token → Prop) (edits : List Edit) (stream : TokenStream)
    (range : IndexRange) : Prop where
  inOrder : InOrder edits stream
  within : ∀ edit ∈ edits, range.start ≤ edit.range.start ∧ edit.range.stop ≤ range.stop
  removed : ∀ edit ∈ edits, ∀ index token, edit.range.start ≤ index → index < edit.range.stop →
    stream[index]? = some token → mayGo index token

namespace Trims

variable {mayGo : Nat → Token → Prop} {stream : TokenStream} {edits later : List Edit}
  {range : IndexRange}

theorem nil : Trims mayGo [] stream range :=
  ⟨⟨List.Pairwise.nil, by simp⟩, by simp, by simp⟩

theorem single {removed : IndexRange} (tokens : List Token) (lower : range.start ≤ removed.start)
    (ordered : removed.start ≤ removed.stop) (upper : removed.stop ≤ range.stop)
    (inside : removed.stop ≤ stream.length)
    (goes : ∀ index token, removed.start ≤ index → index < removed.stop →
      stream[index]? = some token → mayGo index token) :
    Trims mayGo [⟨removed, tokens⟩] stream range := by
  refine ⟨⟨List.pairwise_singleton _ _, ?_⟩, ?_, ?_⟩ <;> intro edit member <;>
    rw [List.mem_singleton.mp member]
  · exact ⟨ordered, inside⟩
  · exact ⟨lower, upper⟩
  · exact goes

theorem insertion {index : Nat} (tokens : List Token) (lower : range.start ≤ index)
    (upper : index ≤ range.stop) (inside : index ≤ stream.length) :
    Trims mayGo [Edit.insertion index tokens] stream range := by
  apply single tokens lower (Nat.le_refl index) upper inside
  intro other token behind before
  exact absurd before (Nat.not_lt.mpr behind)

theorem append {middle : Nat} (first : Trims mayGo edits stream ⟨range.start, middle⟩)
    (second : Trims mayGo later stream ⟨middle, range.stop⟩) (lower : range.start ≤ middle)
    (upper : middle ≤ range.stop) : Trims mayGo (edits ++ later) stream range := by
  refine ⟨⟨List.pairwise_append.mpr ⟨first.inOrder.apart, second.inOrder.apart, ?_⟩, ?_⟩, ?_, ?_⟩
  · intro left inFirst right inSecond
    exact Nat.le_trans (first.within left inFirst).2 (second.within right inSecond).1
  · intro edit member
    rcases List.mem_append.mp member with inFirst | inSecond
    · exact first.inOrder.proper edit inFirst
    · exact second.inOrder.proper edit inSecond
  · intro edit member
    rcases List.mem_append.mp member with inFirst | inSecond
    · have bounds := first.within edit inFirst
      exact ⟨bounds.1, Nat.le_trans bounds.2 upper⟩
    · have bounds := second.within edit inSecond
      exact ⟨Nat.le_trans lower bounds.1, bounds.2⟩
  · intro edit member
    rcases List.mem_append.mp member with inFirst | inSecond
    · exact first.removed edit inFirst
    · exact second.removed edit inSecond

theorem widen {wider : IndexRange} (trims : Trims mayGo edits stream range)
    (lower : wider.start ≤ range.start) (upper : range.stop ≤ wider.stop) :
    Trims mayGo edits stream wider :=
  ⟨trims.inOrder, fun edit member =>
    ⟨Nat.le_trans lower (trims.within edit member).1,
      Nat.le_trans (trims.within edit member).2 upper⟩, trims.removed⟩

theorem exists_thinned {start : Nat} (trims : Trims mayGo edits stream range)
    (behind : ∀ edit ∈ edits, start ≤ edit.range.start) :
    ∃ kept, Thinned mayGo start (stream.drop start) kept ∧
      kept.Sublist (rebuilt stream start edits) := by
  induction edits generalizing start with
  | nil => exact ⟨stream.drop start, .refl start _, List.Sublist.refl _⟩
  | cons edit edits ih =>
      obtain ⟨ordered, inside⟩ := trims.inOrder.proper edit (by simp)
      have first := behind edit (by simp)
      have others : Trims mayGo edits stream range := ⟨trims.inOrder.tail,
        fun other member => trims.within other (List.mem_cons_of_mem _ member),
        fun other member => trims.removed other (List.mem_cons_of_mem _ member)⟩
      obtain ⟨kept, thinned, remain⟩ :=
        ih others (List.pairwise_cons.mp trims.inOrder.apart).1
      have lengthFront : start + (stream.slice ⟨start, edit.range.start⟩).length =
          edit.range.start := by
        rw [TokenStream.length_slice]
        simp only
        omega
      have lengthRemoved : edit.range.start + (stream.slice edit.range).length =
          edit.range.stop := by
        rw [TokenStream.length_slice]
        omega
      have gone : Thinned mayGo edit.range.start (stream.slice edit.range) [] := by
        refine .of_mayGo ?_
        intro offset token found
        rw [TokenStream.getElem?_slice] at found
        split at found
        next before => exact trims.removed edit (by simp) _ token (by omega) before found
        next => contradiction
      have both := gone.append (by rw [lengthRemoved]; exact thinned)
      refine ⟨stream.slice ⟨start, edit.range.start⟩ ++ kept, ?_, ?_⟩
      · rw [stream.drop_eq_slices first ordered inside]
        exact (Thinned.refl start _).append (by rw [lengthFront]; exact both)
      · rw [rebuilt, List.append_assoc]
        exact (List.Sublist.refl _).append (remain.trans (List.sublist_append_right _ _))

end Trims

end Edit

/-- Whether an index lies in the parameter list or in the body. -/
def Constructor.Encloses (constructor : Constructor) (index : Nat) : Prop :=
  (∃ list, constructor.parameterList = some list ∧ list.opening < index ∧ index < list.closing) ∨
    ∃ opening closing, constructor.bodyOpen = some opening ∧ constructor.bodyClose = some closing ∧
      opening < index ∧ index < closing

/-- Blanks in the parameter list or in the body of the constructor may make room for code. -/
def ConstructorSite.MayLose (site : ConstructorSite) (index : Nat) (token : Token) : Prop :=
  token.kind = .whitespace ∧
    ∃ constructor, site.constructor? = some constructor ∧ constructor.Encloses index

namespace TokenStream

/-- Behind the last content of a range stand only blanks. -/
theorem whitespace_of_lastContent? {stream : TokenStream} {opening closing index : Nat}
    {token : Token}
    (behind : (stream.lastContent? opening closing).getD opening + 1 ≤ index)
    (before : index < closing) (found : stream[index]? = some token) :
    token.kind = .whitespace := by
  by_contra content
  have passes : (token.kind != .whitespace) = true := by simpa using content
  rcases lastIn?_cases stream ⟨opening + 1, closing⟩ (·.kind != .whitespace) with
    ⟨noContent, blank⟩ | ⟨front, last, after, whole, _, blank, isLast⟩
  · rw [lastContent?, noContent, Option.getD_none] at behind
    rw [blank token (mem_slice_iff.mpr ⟨index, behind, before, found⟩)] at passes
    contradiction
  · rw [lastContent?, isLast, Option.getD_some] at behind
    simp only at behind
    obtain ⟨offset, rfl⟩ := Nat.exists_eq_add_of_le behind
    have inSlice : (stream.slice ⟨opening + 1, closing⟩)[front.length + 1 + offset]? =
        some token := by
      rw [getElem?_slice, ← found]
      simp only
      rw [if_pos (by omega)]
      congr 1
      omega
    rw [whole, List.getElem?_append_right (by omega)] at inSlice
    have inAfter : after[offset]? = some token := by
      rw [← inSlice, show front.length + 1 + offset - front.length = offset + 1 by omega]
      rfl
    rw [blank token (List.mem_of_getElem? inAfter)] at passes
    contradiction

end TokenStream

section Parts

variable {stream : TokenStream} {constructor : Constructor} {new : List Dependency}
  {indent lineEnding : Text} {options : InjectionOptions} {edits : List Edit}

theorem parameterEdit_trims {list : ParameterList} {inner rest : List Token}
    (listed : constructor.parameterList = some list)
    (read : constructor.parameters = stream.parametersIn list)
    (present : list.opening < stream.length)
    (cut : stream.drop (list.opening + 1) = inner ++ rest)
    (place : list.closing = list.opening + 1 + inner.length) (level : Level inner)
    (result : parameterEdit stream constructor new indent options lineEnding = .ok edits) :
    Edit.Trims (fun index token => token.kind = .whitespace ∧ constructor.Encloses index) edits
      stream list.inner := by
  have size := congrArg List.length cut
  rw [List.length_drop, List.length_append] at size
  have bounds {parameter : Parameter} (member : parameter ∈ stream.parametersIn list) :
      list.opening + 1 ≤ parameter.range.start ∧ parameter.range.start ≤ parameter.range.stop ∧
        parameter.range.stop ≤ list.closing := by
    obtain ⟨opening, closing⟩ := list
    simp only at place present cut ⊢
    subst place
    obtain ⟨front, back, split⟩ := List.append_of_mem member
    obtain ⟨left, before, core, behind, right, rfl, starts, stops, _⟩ :=
      TokenStream.standsIn_of_parametersIn present cut level split
    simp only [List.length_append]
    omega
  have inserted {parameter : Parameter} (tokens : List Token) {index : Nat}
      (member : parameter ∈ stream.parametersIn list)
      (atEnd : index = parameter.range.start ∨ index = parameter.range.stop) :
      Edit.Trims (fun index token => token.kind = .whitespace ∧ constructor.Encloses index)
        [Edit.insertion index tokens] stream list.inner := by
    have within := bounds member
    exact .insertion tokens (by simp only [ParameterList.inner]; omega)
      (by simp only [ParameterList.inner]; omega) (by omega)
  unfold parameterEdit at result
  simp only [listed, read] at result
  split at result
  next =>
    cases result
    exact .nil
  next =>
    obtain ⟨tokens, _, rest⟩ := exists_of_bind_eq_ok result
    cases rest
    obtain ⟨lower, upper⟩ :=
      @TokenStream.lastContent?_bounds stream list.opening list.closing (by omega)
    refine .single tokens (Nat.add_le_add_right lower 1) upper (Nat.le_refl _)
      (by simp only; omega) ?_
    intro index token behind before found
    exact ⟨TokenStream.whitespace_of_lastContent? behind before found,
      .inl ⟨list, listed, Nat.lt_of_le_of_lt lower behind, before⟩⟩
  next first others _ parameters =>
    have inList {parameter : Parameter} (member : parameter ∈ first :: others) :
        parameter ∈ stream.parametersIn list := by rwa [parameters]
    split at result
    next last found =>
      obtain ⟨tokens, _, rest⟩ := exists_of_bind_eq_ok result
      cases rest
      obtain ⟨front, back, split, _⟩ := lastMandatory?_eq_some found
      exact inserted tokens (inList (by rw [split]; simp)) (.inr rfl)
    next last next found =>
      obtain ⟨tokens, _, rest⟩ := exists_of_bind_eq_ok result
      cases rest
      obtain ⟨front, back, split, follows, _⟩ := lastMandatory?_eq_some found
      have inBack := List.mem_of_mem_head? follows
      exact inserted tokens (inList (by rw [split]; simp [inBack])) (.inl rfl)
    next =>
      obtain ⟨tokens, _, rest⟩ := exists_of_bind_eq_ok result
      cases rest
      exact inserted tokens (inList List.mem_cons_self) (.inl rfl)

theorem assignmentEdit_trims {opening closing : Nat} (atBody : constructor.bodyOpen = some opening)
    (atEnd : constructor.bodyClose = some closing) (ordered : opening < closing)
    (inside : closing ≤ stream.length)
    (result : assignmentEdit stream constructor new indent options lineEnding = .ok edits) :
    Edit.Trims (fun index token => token.kind = .whitespace ∧ constructor.Encloses index) edits
      stream ⟨opening + 1, closing⟩ := by
  have bounds := @TokenStream.lastContent?_bounds stream opening closing ordered
  unfold assignmentEdit at result
  split at result
  next first others bodyOpen bodyClose isOpen isClose =>
    rw [atBody, Option.some.injEq] at isOpen
    rw [atEnd, Option.some.injEq] at isClose
    subst isOpen isClose
    simp only at result
    split at result
    next noContent =>
      rw [noContent, Option.getD_none] at bounds
      split at result
      next =>
        obtain ⟨tokens, _, rest⟩ := exists_of_bind_eq_ok result
        cases rest
        exact .insertion tokens (Nat.le_refl _) ordered (by omega)
      next =>
        obtain ⟨tokens, _, rest⟩ := exists_of_bind_eq_ok result
        cases rest
        refine .single tokens (Nat.le_refl _) ordered (Nat.le_refl _) inside ?_
        intro index token behind before found
        exact ⟨TokenStream.whitespace_of_lastContent? (by rwa [noContent]) before found,
          .inr ⟨opening, closing, atBody, atEnd, behind, before⟩⟩
    next last found =>
      rw [found, Option.getD_some] at bounds
      obtain ⟨tokens, _, rest⟩ := exists_of_bind_eq_ok result
      cases rest
      exact .insertion tokens (by simp only; omega) bounds.2 (by omega)
  next =>
    cases result
    exact .nil

end Parts

section Injections

variable {stream : TokenStream} {site : ConstructorSite} {options : InjectionOptions}
  {marker : Text}

/-- The edits of a class with a constructor take away blanks at most, and leave the content of the
constructor's body alone. -/
theorem planEdits_existing_trims {plan : InjectionPlan} {edits : List Edit}
    {constructor : Constructor} (located : stream.locate? marker = some site)
    (existing : site.constructor? = some constructor)
    (result : planEdits stream site plan options = .ok edits) :
    Edit.Trims site.MayLose edits stream ⟨site.declaration.bodyOpen + 1, stream.length⟩ ∧
      ∀ opening closing, constructor.bodyOpen = some opening →
        constructor.bodyClose = some closing → ∀ edit ∈ edits, edit.range.stop ≤ opening ∨
          ((stream.lastContent? opening closing).getD opening < edit.range.start ∧
            edit.range.stop ≤ closing) := by
  obtain ⟨found, isConstructor, _⟩ := TokenStream.locate?_eq_some_iff.mp located
  have braceInside : site.declaration.bodyOpen + 1 ≤ stream.length :=
    TokenStream.bodyOpen_lt_length found
  have mayLose {edits : List Edit} {range : IndexRange}
      (trims : Edit.Trims (fun index token =>
        token.kind = .whitespace ∧ constructor.Encloses index) edits stream range) :
      Edit.Trims site.MayLose edits stream range := by
    refine ⟨trims.inOrder, trims.within, ?_⟩
    intro edit member index token behind before found
    obtain ⟨blank, encloses⟩ := trims.removed edit member index token behind before found
    exact ⟨blank, constructor, existing, encloses⟩
  obtain ⟨headEdits, listEdits, bodyEdits, rfl, headed, listResult, bodyResult⟩ :=
    planEdits_parts existing result
  have headTrims : Edit.Trims site.MayLose headEdits stream
      ⟨site.declaration.bodyOpen + 1, site.declaration.bodyOpen + 1⟩ := by
    rcases headed with ⟨_, rfl⟩ | ⟨edit, rfl, _, headResult⟩
    · exact .nil
    · obtain ⟨tokens, _, rest⟩ := exists_of_bind_eq_ok headResult
      cases rest
      exact .insertion tokens (Nat.le_refl _) (Nat.le_refl _) braceInside
  cases listed : constructor.parameterList with
  | none =>
      have noBody : constructor.bodyOpen = none := by
        rw [existing, Option.map_eq_some_iff] at isConstructor
        obtain ⟨⟨function, name⟩, _, rfl⟩ := isConstructor
        exact TokenStream.bodyOpen_eq_none_of_unlisted listed
      have noListEdits : listEdits = [] := by
        rw [parameterEdit] at listResult
        simp only [listed] at listResult
        cases listResult
        rfl
      rw [noListEdits, assignmentEdit_eq_nil (.inl noBody) bodyResult, noBody]
      exact ⟨headTrims.append .nil (Nat.le_refl _) braceInside, by simp⟩
  | some list =>
      obtain ⟨before, head, blanks, opener, inner, closer, tail, cut, _, _, _, _, _, levelInner,
        _, opening, closing, parameters, atBody, atEnd⟩ :=
        TokenStream.locate?_parts located existing listed
      have behindHead := TokenStream.drop_of_drop_eq (TokenStream.drop_of_drop_eq cut)
      have behindOpener := TokenStream.drop_of_drop_eq_cons behindHead
      have atOpener := TokenStream.getElem?_of_drop_eq behindHead
      rw [← opening] at behindOpener atOpener
      have present : list.opening < stream.length := (List.getElem?_eq_some_iff.mp atOpener).1
      have size := congrArg List.length behindOpener
      simp only [List.length_drop, List.length_append, List.length_cons] at size
      have listTrims := mayLose (parameterEdit_trims listed parameters present behindOpener
        closing levelInner listResult)
      have listWide : Edit.Trims site.MayLose listEdits stream
          ⟨site.declaration.bodyOpen + 1, list.closing⟩ :=
        listTrims.widen (by simp only [ParameterList.inner]; omega) (Nat.le_refl _)
      have bodyBehind {opening : Nat} (opened : constructor.bodyOpen = some opening) :
          list.closing < opening := by
        rw [opened] at atBody
        obtain ⟨_, _, _, _, rfl, _⟩ := TokenStream.bodyOpen?_eq_some_iff.mp atBody.symm
        omega
      have bodyTrims {opening closing : Nat} (opened : constructor.bodyOpen = some opening)
          (closed : constructor.bodyClose = some closing) :
          Edit.Trims site.MayLose bodyEdits stream ⟨opening + 1, closing⟩ ∧
            closing < stream.length := by
        rw [closed, opened, Option.bind_some] at atEnd
        have order := TokenStream.lt_of_matchingClose? atEnd.symm
        have inside := TokenStream.lt_length_of_matchingClose? atEnd.symm
        exact ⟨mayLose (assignmentEdit_trims opened closed order (Nat.le_of_lt inside) bodyResult),
          inside⟩
      constructor
      · refine headTrims.append (listWide.append ?_ (by simp only; omega) (by simp only; omega))
          (Nat.le_refl _) braceInside
        cases opened : constructor.bodyOpen with
        | none =>
            rw [assignmentEdit_eq_nil (.inl opened) bodyResult]
            exact .nil
        | some opening =>
            cases closed : constructor.bodyClose with
            | none =>
                rw [assignmentEdit_eq_nil (.inr closed) bodyResult]
                exact .nil
            | some bodyClosing =>
                obtain ⟨trims, inside⟩ := bodyTrims opened closed
                have behind := bodyBehind opened
                exact trims.widen (by simp only; omega) (Nat.le_of_lt inside)
      · intro opening bodyClosing opened closed edit member
        have behind := bodyBehind opened
        rcases List.mem_append.mp member with inHead | inOthers
        · have bound := (headTrims.within edit inHead).2
          simp only at bound
          exact .inl (by omega)
        · rcases List.mem_append.mp inOthers with inList | inBody
          · have bound := (listWide.within edit inList).2
            simp only at bound
            exact .inl (by omega)
          · have bound := assignmentEdit_behind opened closed bodyResult edit inBody
            exact .inr ⟨bound, ((bodyTrims opened closed).1.within edit inBody).2⟩

/-- The edits of an injection come behind the brace of the class, and take away blanks at most. -/
theorem planEdits_trims {plan : InjectionPlan} {edits : List Edit}
    (located : stream.locate? marker = some site)
    (result : planEdits stream site plan options = .ok edits) :
    Edit.Trims site.MayLose edits stream ⟨site.declaration.bodyOpen + 1, stream.length⟩ := by
  have braceInside : site.declaration.bodyOpen + 1 ≤ stream.length :=
    TokenStream.bodyOpen_lt_length (TokenStream.locate?_eq_some_iff.mp located).1
  cases existing : site.constructor? with
  | none =>
      unfold planEdits at result
      simp only [existing] at result
      obtain ⟨edit, headResult, rest⟩ := exists_of_bind_eq_ok result
      cases rest
      obtain ⟨tokens, _, rest⟩ := exists_of_bind_eq_ok headResult
      cases rest
      exact .insertion tokens (Nat.le_refl _) braceInside braceInside
  | some constructor => exact (planEdits_existing_trims located existing result).1

/-- The edits that carry out the plan for a request. -/
def injectionEdits (stream : TokenStream) (site : ConstructorSite) (request : List Dependency)
    (options : InjectionOptions) : Except InjectionError (List Edit) := do
  let dependencies ← distinctDependencies request
  let plan ← site.plan stream options dependencies
  if plan.isEmpty then return [] else planEdits stream site plan options

variable {request : List Dependency} {edits : List Edit}

theorem injectionEdits_eq_ok (result : injectionEdits stream site request options = .ok edits) :
    edits = [] ∨ ∃ dependencies plan, distinctDependencies request = .ok dependencies ∧
      site.plan stream options dependencies = .ok plan ∧
      planEdits stream site plan options = .ok edits := by
  obtain ⟨dependencies, distinct, result⟩ := exists_of_bind_eq_ok result
  obtain ⟨plan, planned, result⟩ := exists_of_bind_eq_ok result
  split at result
  next =>
    cases result
    exact .inl rfl
  next => exact .inr ⟨dependencies, plan, distinct, planned, result⟩

theorem injectionEdits_trims (located : stream.locate? marker = some site)
    (result : injectionEdits stream site request options = .ok edits) :
    Edit.Trims site.MayLose edits stream ⟨site.declaration.bodyOpen + 1, stream.length⟩ := by
  rcases injectionEdits_eq_ok result with rfl | ⟨_, _, _, _, edited⟩
  · exact .nil
  · exact planEdits_trims located edited

/-- The edits of an injection never get into each other's way. -/
theorem inject_eq_ok_iff {injected : Injected}
    (located : stream.locate? marker = some site) :
    inject stream site request options = .ok injected ↔
      ∃ dependencies plan edits, distinctDependencies request = .ok dependencies ∧
        site.plan stream options dependencies = .ok plan ∧
        injectionEdits stream site request options = .ok edits ∧
        injected = ⟨Edit.rebuilt stream 0 edits, plan.parameters⟩ := by
  constructor
  · intro result
    obtain ⟨dependencies, distinct, result⟩ := exists_of_bind_eq_ok result
    obtain ⟨plan, planned, result⟩ := exists_of_bind_eq_ok result
    have unfolded : injectionEdits stream site request options =
        if plan.isEmpty then .ok [] else planEdits stream site plan options := by
      rw [injectionEdits, distinct]
      simp only [bind, Except.bind, planned]
      rfl
    split at result
    next isEmpty =>
      cases result
      refine ⟨dependencies, plan, [], distinct, planned, by rw [unfolded, if_pos isEmpty], ?_⟩
      simp only [InjectionPlan.isEmpty, Bool.and_eq_true, List.isEmpty_iff] at isEmpty
      rw [isEmpty.1.1.1]
      rfl
    next nonempty =>
      obtain ⟨edits, edited, result⟩ := exists_of_bind_eq_ok result
      obtain ⟨between, applied, result⟩ := exists_of_bind_eq_ok result
      cases result
      rw [Edit.applyAll_eq_ok (planEdits_trims located edited).inOrder] at applied
      cases applied
      exact ⟨dependencies, plan, edits, distinct, planned, by rw [unfolded, if_neg nonempty, edited],
        rfl⟩
  · rintro ⟨dependencies, plan, edits, distinct, planned, edited, rfl⟩
    have applied := Edit.applyAll_eq_ok (injectionEdits_trims located edited).inOrder
    unfold inject
    unfold injectionEdits at edited
    simp only [distinct, planned, bind, Except.bind, pure, Except.pure] at edited ⊢
    split at edited
    next isEmpty =>
      cases edited
      rw [if_pos isEmpty]
      simp only [InjectionPlan.isEmpty, Bool.and_eq_true, List.isEmpty_iff] at isEmpty
      rw [isEmpty.1.1.1]
      rfl
    next nonempty =>
      rw [if_neg nonempty, edited]
      simp only [applied, Except.mapError]

/-- An injection changes nothing up to the brace of the class, and loses blanks of the constructor
at most. -/
theorem inject_thinned {injected : Injected}
    (located : stream.locate? marker = some site)
    (result : inject stream site request options = .ok injected) :
    injected.stream.take (site.declaration.bodyOpen + 1) =
        stream.take (site.declaration.bodyOpen + 1) ∧
      ∃ kept, Thinned site.MayLose 0 stream kept ∧ kept.Sublist injected.stream := by
  obtain ⟨_, _, edits, _, _, edited, rfl⟩ := (inject_eq_ok_iff located).mp result
  have trims := injectionEdits_trims located edited
  have behind : ∀ edit ∈ edits, site.declaration.bodyOpen + 1 ≤ edit.range.start :=
    fun edit member => (trims.within edit member).1
  have inside : site.declaration.bodyOpen + 1 ≤ stream.length :=
    TokenStream.bodyOpen_lt_length (TokenStream.locate?_eq_some_iff.mp located).1
  refine ⟨?_, trims.exists_thinned fun edit _ => Nat.zero_le _⟩
  simp only
  rw [Edit.rebuilt_from (Nat.zero_le _) behind inside, TokenStream.slice, List.drop_zero,
    List.take_left' (List.length_take_of_le inside)]

end Injections

namespace Converter

variable {converter : Converter} {stream : TokenStream} {conversion : Conversion}

/-- A conversion puts the replacements in place and then injects what they use. -/
theorem process_eq_ok (processed : converter.process stream = .ok conversion) :
    let replaced : TokenStream := Edit.rebuilt stream 0 (replacementEdits conversion.sites)
    Edit.InOrder (replacementEdits conversion.sites) stream ∧
      ((conversion.sites = [] ∨ replaced.locate? converter.options.marker = none) ∧
          conversion.stream = replaced ∨ ∃ site,
        replaced.locate? converter.options.marker = some site ∧
          inject replaced site (distinct (CallSite.dependenciesOfAll conversion.sites))
            converter.options = .ok ⟨conversion.stream, conversion.added⟩) := by
  have untouched (noSites : conversion.sites = []) (same : conversion.stream = stream) :
      Edit.InOrder (replacementEdits conversion.sites) stream ∧
        conversion.stream = Edit.rebuilt stream 0 (replacementEdits conversion.sites) := by
    rw [noSites]
    exact ⟨⟨List.Pairwise.nil, by simp [replacementEdits]⟩, by rw [same]; rfl⟩
  cases found : stream.findClass? with
  | none =>
      rw [process, found] at processed
      cases processed
      obtain ⟨inOrder, same⟩ := untouched rfl rfl
      exact ⟨inOrder, .inl ⟨.inl rfl, same⟩⟩
  | some declaration =>
      have inOrder := @inOrder_replacementEdits converter stream declaration
      rw [process, found] at processed
      simp only at processed
      split at processed
      next =>
        cases processed
        obtain ⟨inOrder, same⟩ := untouched rfl rfl
        exact ⟨inOrder, .inl ⟨.inl rfl, same⟩⟩
      next first others someSites =>
        rw [someSites] at inOrder
        obtain ⟨edited, applied, processed⟩ := exists_of_bind_eq_ok processed
        rw [← replacementEdits, Edit.applyAll_eq_ok inOrder] at applied
        cases applied
        obtain ⟨injected, injects, processed⟩ := exists_of_bind_eq_ok processed
        cases processed
        have injects := eq_ok_of_mapError injects
        refine ⟨inOrder, ?_⟩
        simp only
        cases located : TokenStream.locate? (Edit.rebuilt stream 0 (replacementEdits (first :: others)))
            converter.options.marker with
        | none =>
            rw [located] at injects
            cases injects
            exact .inl ⟨.inr rfl, rfl⟩
        | some site =>
            rw [located] at injects
            exact .inr ⟨site, rfl, injects⟩

/-- Where calls can be converted and the class they stand in takes what they use, so it is done. -/
theorem exists_process {declaration : ClassDeclaration} {site : ConstructorSite}
    {injected : Injected} (found : stream.findClass? = some declaration)
    (someSites : converter.sites stream declaration ≠ [])
    (located : TokenStream.locate?
      (Edit.rebuilt stream 0 (replacementEdits (converter.sites stream declaration)))
      converter.options.marker = some site)
    (injects : inject (Edit.rebuilt stream 0 (replacementEdits (converter.sites stream declaration)))
      site (distinct (CallSite.dependenciesOfAll (converter.sites stream declaration)))
      converter.options = .ok injected) :
    ∃ conversion, converter.process stream = .ok conversion ∧
      conversion.sites = converter.sites stream declaration ∧
      conversion.stream = injected.stream := by
  have applied := Edit.applyAll_eq_ok (@inOrder_replacementEdits converter stream declaration)
  rw [process, found]
  simp only
  split
  next noSites => exact absurd noSites someSites
  next first others isSites =>
    rw [isSites] at applied located injects
    rw [← replacementEdits, applied]
    simp only [Except.mapError, bind, Except.bind, injectInto, located, injects, pure, Except.pure]
    exact ⟨_, rfl, isSites.symm, rfl⟩

/-- The tokens outside of the converted calls. -/
def outside (stream : TokenStream) (sites : List CallSite) : List Token :=
  Edit.rebuilt stream 0 (sites.map fun site => ⟨site.range, []⟩)

theorem outside_sublist (stream : TokenStream) (start : Nat) (sites : List CallSite) :
    (Edit.rebuilt stream start (sites.map fun site => ⟨site.range, []⟩)).Sublist
      (Edit.rebuilt stream start (replacementEdits sites)) := by
  induction sites generalizing start with
  | nil => exact List.Sublist.refl _
  | cons site sites ih =>
      rw [replacementEdits, List.map_cons, List.map_cons, Edit.rebuilt, Edit.rebuilt,
        List.append_nil, List.append_assoc]
      exact (List.Sublist.refl _).append ((ih site.stop).trans (List.sublist_append_right _ _))

/-- Blanks in the parameter list or in the body of the constructor, in a stream whose calls have
been replaced. -/
def MayLose (converter : Converter) (stream : TokenStream) (index : Nat) (token : Token) : Prop :=
  ∃ site, stream.locate? converter.options.marker = some site ∧ site.MayLose index token

/-- What is not a converted call stays as it is and where it is, but for blanks of the
constructor. -/
structure Preserves (converter : Converter) (stream : TokenStream) (conversion : Conversion) :
    Prop where
  inOrder : Edit.InOrder (replacementEdits conversion.sites) stream
  front : ∀ declaration, stream.findClass? = some declaration →
    conversion.stream.take (declaration.bodyOpen + 1) = stream.take (declaration.bodyOpen + 1)
  replaced : ∃ kept,
    Thinned (converter.MayLose (Edit.rebuilt stream 0 (replacementEdits conversion.sites))) 0
        (Edit.rebuilt stream 0 (replacementEdits conversion.sites)) kept ∧
      kept.Sublist conversion.stream
  outside : ((outside stream conversion.sites).filter (·.kind != .whitespace)).Sublist
    conversion.stream

/-- No properties, so that the parameter list is all that an abstract constructor lets change. -/
def withoutProperties : Converter :=
  ⟨conventions.resolver, ⟨defaultMarker, false, "    "⟩⟩

def blankList : Text :=
  "<?php class A\x7babstract function __construct( );function f()\x7bMage::log(1);\x7d\x7d"

def blankListTokens : TokenStream :=
  [⟨.openTag, "<?php ", 1⟩, ⟨.keyword, "class", 1⟩, ⟨.whitespace, " ", 1⟩, ⟨.identifier, "A", 1⟩,
   ⟨.openBrace, "\x7b", 1⟩, ⟨.keyword, "abstract", 1⟩, ⟨.whitespace, " ", 1⟩,
   ⟨.keyword, "function", 1⟩, ⟨.whitespace, " ", 1⟩, ⟨.identifier, "__construct", 1⟩,
   ⟨.openParen, "(", 1⟩, ⟨.whitespace, " ", 1⟩, ⟨.closeParen, ")", 1⟩, ⟨.semicolon, ";", 1⟩,
   ⟨.keyword, "function", 1⟩, ⟨.whitespace, " ", 1⟩, ⟨.identifier, "f", 1⟩, ⟨.openParen, "(", 1⟩,
   ⟨.closeParen, ")", 1⟩, ⟨.openBrace, "\x7b", 1⟩, ⟨.identifier, "Mage", 1⟩,
   ⟨.doubleColon, "::", 1⟩, ⟨.identifier, "log", 1⟩, ⟨.openParen, "(", 1⟩, ⟨.number, "1", 1⟩,
   ⟨.closeParen, ")", 1⟩, ⟨.semicolon, ";", 1⟩, ⟨.closeBrace, "\x7d", 1⟩, ⟨.closeBrace, "\x7d", 1⟩]

theorem tokenize_blankList : tokenize blankList = .ok blankListTokens :=
  eq_ok_of_toOption (by decide +kernel)

theorem process_blankList :
    ∃ conversion, withoutProperties.process blankListTokens = .ok conversion ∧
      conversion.sites ≠ [] ∧ conversion.added ≠ [] := by
  have converted : (withoutProperties.process blankListTokens).toOption.any
      (fun conversion => !conversion.sites.isEmpty && !conversion.added.isEmpty) = true := by
    decide +kernel
  obtain ⟨conversion, result, nonempty⟩ := (Option.any_eq_true _ _).mp converted
  exact ⟨conversion, eq_ok_of_toOption result, by simpa using nonempty⟩

end Converter

end ConstructorInjection
