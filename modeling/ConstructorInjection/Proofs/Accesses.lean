import Mathlib.Data.List.Basic
import Mathlib.Tactic.Common
import ConstructorInjection.Proofs.Dependencies
import ConstructorInjection.Proofs.Preservation

/-!
Accesses in the constructor. The assignments of an injection go behind all that the body holds, so
an access there comes after the assignments that were in front of it before, and after no other one.
-/

namespace ConstructorInjection

/-- Tokens that begin with `$this->name`. -/
def StartsAccess (name : Text) (tokens : List Token) : Prop :=
  ∃ this arrow member rest, tokens = this :: arrow :: member :: rest ∧
    this.kind = .variableName ∧ this.text = "$this" ∧ arrow.kind = .objectOperator ∧
    member.kind = .identifier ∧ member.text = name

/-- The braces around the body of the constructor of the first class. -/
def TokenStream.HasBody (stream : TokenStream) (marker : Text) (opening closing : Nat) : Prop :=
  ∃ site constructor, stream.locate? marker = some site ∧ site.constructor? = some constructor ∧
    constructor.bodyOpen = some opening ∧ constructor.bodyClose = some closing

namespace Converter

variable {converter : Converter} {stream : TokenStream} {conversion : Conversion}

/-- A stream with its calls replaced and nothing injected yet. -/
def replaced (stream : TokenStream) (conversion : Conversion) : TokenStream :=
  Edit.rebuilt stream 0 (replacementEdits conversion.sites)

/-- A converted call brings in an access to `$this->name`, at `index` among the replacements, which
the injection moves to `place`. -/
structure Access (converter : Converter) (stream : TokenStream) (conversion : Conversion)
    (name : Text) (index place : Nat) : Prop where
  placed : ∃ site ∈ conversion.sites, ∃ before access, site.replacement = before ++ access ∧
    StartsAccess name access ∧
    index = Edit.placeAfter stream (replacementEdits conversion.sites) site.start + before.length
  moved : ∃ site edits, (replaced stream conversion).locate? converter.options.marker = some site ∧
    injectionEdits (replaced stream conversion) site
      (distinct (CallSite.dependenciesOfAll conversion.sites)) converter.options = .ok edits ∧
    place = Edit.placeAfter (replaced stream conversion) edits index

/-- Every access that a converted call brings into the constructor comes after an assignment to the
property, unless that is a promoted parameter. -/
def AssignsBeforeUse (converter : Converter) (stream : TokenStream) (conversion : Conversion) :
    Prop :=
  ∀ site constructor opening closing name index place,
    conversion.stream.locate? converter.options.marker = some site →
      site.constructor? = some constructor → constructor.bodyOpen = some opening →
        constructor.bodyClose = some closing →
          converter.Access stream conversion name index place → opening < place →
            place < closing →
              Assigns name (conversion.stream.slice ⟨opening + 1, place⟩) ∨
                (site.parameter? name).any (·.isPromoted) = true

theorem exists_mem_sites (processed : converter.process stream = .ok conversion) {site : CallSite}
    (member : site ∈ conversion.sites) :
    ∃ declaration, stream.findClass? = some declaration ∧
      site ∈ converter.sites stream declaration := by
  cases found : stream.findClass? with
  | none =>
      rw [process, found] at processed
      cases processed
      contradiction
  | some declaration =>
      rw [sites_of_process processed found] at member
      exact ⟨declaration, rfl, member⟩

/-- The class stays where it is when the calls are replaced. -/
theorem bodyOpen_replaced (processed : converter.process stream = .ok conversion)
    {declaration again : ClassDeclaration} (found : stream.findClass? = some declaration)
    (foundAgain : (replaced stream conversion).findClass? = some again) :
    again.bodyOpen = declaration.bodyOpen := by
  obtain ⟨whole, length⟩ := @rebuilt_eq converter stream declaration found
  rw [← sites_of_process processed found, ← replaced] at whole
  exact TokenStream.bodyOpen_of_take_eq found (by rw [whole]; exact List.take_left' length)
    foundAgain

namespace Access

variable {name : Text} {index place : Nat}

theorem injected (access : converter.Access stream conversion name index place)
    (processed : converter.process stream = .ok conversion) :
    ∃ site edits, (replaced stream conversion).locate? converter.options.marker = some site ∧
      injectionEdits (replaced stream conversion) site
        (distinct (CallSite.dependenciesOfAll conversion.sites)) converter.options = .ok edits ∧
      Edit.Trims site.MayLose edits (replaced stream conversion)
        ⟨site.declaration.bodyOpen + 1, (replaced stream conversion).length⟩ ∧
      conversion.stream = Edit.rebuilt (replaced stream conversion) 0 edits ∧
      place = Edit.placeAfter (replaced stream conversion) edits index := by
  obtain ⟨⟨call, member, _⟩, site, edits, located, edited, moved⟩ := access
  refine ⟨site, edits, located, edited, ?_⟩
  rcases (process_eq_ok processed).2 with ⟨absent, _⟩ | ⟨again, locatedAgain, injects⟩
  · rcases absent with noSites | unlocated
    · rw [noSites] at member
      contradiction
    · rw [replaced, unlocated] at located
      contradiction
  · rw [← replaced] at locatedAgain injects
    rw [located, Option.some.injEq] at locatedAgain
    subst locatedAgain
    obtain ⟨_, _, editsAgain, _, _, editedAgain, isInjected⟩ :=
      (inject_eq_ok_iff located).mp injects
    rw [edited, Except.ok.injEq] at editedAgain
    subst editedAgain
    exact ⟨injectionEdits_trims located edited, congrArg Injected.stream isInjected, moved⟩

/-- An access begins with a variable behind the brace of the class. -/
theorem exists_variable (access : converter.Access stream conversion name index place)
    (processed : converter.process stream = .ok conversion) :
    (∃ token, (replaced stream conversion)[index]? = some token ∧ token.kind = .variableName) ∧
      ∀ again, (replaced stream conversion).findClass? = some again → again.bodyOpen < index := by
  obtain ⟨site, member, before, tokens, replacement, starts, rfl⟩ := access.placed
  obtain ⟨this, arrow, name, rest, rfl, isVariable, _⟩ := starts
  obtain ⟨declaration, found, inSites⟩ := exists_mem_sites processed member
  obtain ⟨dispatched, lower, _⟩ := dispatched_of_mem_sites inSites
  obtain ⟨_, call, converted⟩ := dispatch?_eq_some dispatched
  have inOrder := (process_eq_ok processed).1
  have inEdits : Edit.mk site.range site.replacement ∈ replacementEdits conversion.sites :=
    List.mem_map_of_mem member
  obtain ⟨front, later, whole, place⟩ :=
    Edit.rebuilt_of_mem inOrder inEdits converted.start_lt_stop
  simp only [CallSite.range] at place
  rw [place]
  refine ⟨⟨this, ?_, isVariable⟩, ?_⟩
  · rw [replaced, whole, replacement, ← List.append_assoc, ← List.append_assoc,
      List.append_assoc (front ++ before), ← List.length_append]
    simp
  · intro again foundAgain
    rw [bodyOpen_replaced processed found foundAgain]
    have behind : ∀ edit ∈ replacementEdits conversion.sites,
        declaration.bodyOpen < edit.range.start := by
      rw [sites_of_process processed found]
      exact replacementEdits_behind
    obtain ⟨sized, inside⟩ := inOrder.proper _ inEdits
    simp only [CallSite.range] at sized inside
    have ordered := @Edit.placeAfter_lt stream _ declaration.bodyOpen site.start inOrder
      (fun edit inEdits => .inr (behind edit inEdits)) (by omega) (by omega)
    have unmoved := @Edit.placeAfter_append stream [] (replacementEdits conversion.sites)
      declaration.bodyOpen (by simp) fun edit inEdits =>
        Nat.lt_of_lt_of_le (behind edit inEdits) (inOrder.proper edit inEdits).1
    rw [List.nil_append, Edit.rebuilt, List.drop_zero, List.length_take_of_le (by omega)] at unmoved
    omega

/-- What stands between the brace of the body and an access stays there. -/
theorem slice_eq {site : ConstructorSite} {constructor : Constructor} {edits : List Edit}
    {opening closing : Nat}
    (access : converter.Access stream conversion name index place)
    (processed : converter.process stream = .ok conversion)
    (located : (replaced stream conversion).locate? converter.options.marker = some site)
    (edited : injectionEdits (replaced stream conversion) site
      (distinct (CallSite.dependenciesOfAll conversion.sites)) converter.options = .ok edits)
    (existing : site.constructor? = some constructor)
    (opened : constructor.bodyOpen = some opening) (closed : constructor.bodyClose = some closing)
    (behind : opening < index) (before : index < closing) :
    conversion.stream.slice ⟨Edit.placeAfter (replaced stream conversion) edits opening, place⟩ =
      (replaced stream conversion).slice ⟨opening, index⟩ := by
  obtain ⟨⟨token, found, isVariable⟩, _⟩ := access.exists_variable processed
  obtain ⟨again, editsAgain, locatedAgain, editedAgain, trims, whole, rfl⟩ :=
    access.injected processed
  rw [located, Option.some.injEq] at locatedAgain
  subst locatedAgain
  rw [edited, Except.ok.injEq] at editedAgain
  subst editedAgain
  have content : index ≤ ((replaced stream conversion).lastContent? opening closing).getD opening := by
    by_contra beyond
    have blank := TokenStream.whitespace_of_lastContent? (Nat.lt_of_not_le beyond) before found
    rw [isVariable] at blank
    contradiction
  have spare : Edit.Spare edits ⟨opening, index⟩ := by
    rcases injectionEdits_eq_ok edited with rfl | ⟨_, _, _, _, planned⟩
    · simp [Edit.Spare]
    · intro edit member
      rcases (planEdits_existing_trims located existing planned).2 opening closing opened closed edit
        member with early | ⟨late, _⟩
      · exact .inl early
      · exact .inr (Nat.lt_of_le_of_lt content late)
  have inside := (List.getElem?_eq_some_iff.mp found).1
  obtain ⟨front, later, _, rebuilt, placeOpening, placeIndex⟩ :=
    Edit.rebuilt_spare trims.inOrder spare (Nat.le_of_lt behind) (Nat.le_of_lt inside)
  rw [whole, rebuilt, placeOpening, placeIndex]
  apply TokenStream.slice_of_drop_eq List.drop_left
  rw [TokenStream.length_slice, Nat.min_eq_left (Nat.le_of_lt inside)]

end Access

end Converter

theorem TokenStream.HasBody.of_located {stream : TokenStream} {marker : Text}
    {opening closing : Nat} {site : ConstructorSite} {constructor : Constructor}
    (body : stream.HasBody marker opening closing) (located : stream.locate? marker = some site)
    (existing : site.constructor? = some constructor) :
    constructor.bodyOpen = some opening ∧ constructor.bodyClose = some closing := by
  obtain ⟨other, found, isLocated, isExisting, opened, closed⟩ := body
  rw [located, Option.some.injEq] at isLocated
  rw [← isLocated, existing, Option.some.injEq] at isExisting
  rw [isExisting]
  exact ⟨opened, closed⟩

section Bodies

variable {stream : TokenStream} {site : ConstructorSite} {plan : InjectionPlan}
  {options : InjectionOptions} {edits : List Edit} {openingAgain closingAgain : Nat}

/-- The body of a new constructor lies in front of all that stood behind the brace of the class. -/
theorem planEdits_new_body {index : Nat} (located : stream.locate? options.marker = some site)
    (absent : site.constructor? = none) (marker : options.marker = defaultMarker)
    (nonempty : plan.parameters ≠ []) (spaces : Spaces options.indent)
    (writableProperties : ∀ dependency ∈ plan.properties, dependency.Writable)
    (writableParameters : ∀ dependency ∈ plan.parameters, dependency.Writable)
    (writableAssignments : ∀ dependency ∈ plan.assignments, dependency.Writable)
    (result : planEdits stream site plan options = .ok edits)
    (body : TokenStream.HasBody (Edit.rebuilt stream 0 edits) options.marker openingAgain
      closingAgain)
    (behind : site.declaration.bodyOpen < index) (inside : index ≤ stream.length) :
    closingAgain < Edit.placeAfter stream edits index := by
  obtain ⟨new, edited, after, again, closing, shape, applied, locatedAgain, existingAgain,
    closedAgain, bound, _⟩ := planEdits_new located absent marker nonempty spaces writableProperties
      writableParameters writableAssignments result
  rw [Edit.applyAll_eq_ok (planEdits_trims located result).inOrder, Except.ok.injEq] at applied
  rw [applied] at body
  have closed := (body.of_located locatedAgain existingAgain).2
  rw [closedAgain, Option.some.injEq] at closed
  subst closed
  refine Nat.lt_of_lt_of_le bound ?_
  rw [← applied] at shape
  unfold planEdits at result
  simp only [absent] at result
  obtain ⟨edit, headResult, rest⟩ := exists_of_bind_eq_ok result
  cases rest
  obtain ⟨tokens, _, rest⟩ := exists_of_bind_eq_ok headResult
  cases rest
  have size := congrArg List.length shape
  have taken : decide (site.declaration.bodyOpen + 1 ≤ index) = true := decide_eq_true behind
  simp only [Edit.rebuilt, Edit.insertion, TokenStream.slice, List.length_append, List.length_drop,
    List.length_take] at size
  simp only [Edit.placeAfter, Edit.insertion, List.takeWhile_cons, taken, List.takeWhile_nil,
    Edit.rebuilt, TokenStream.slice, List.length_append, List.length_drop, List.length_take, if_true]
  omega

/-- A body ends behind its beginning. -/
theorem TokenStream.body_bounds {marker : Text} {constructor : Constructor} {opening closing : Nat}
    (located : stream.locate? marker = some site) (existing : site.constructor? = some constructor)
    (opened : constructor.bodyOpen = some opening) (closed : constructor.bodyClose = some closing) :
    opening < closing ∧ closing < stream.length := by
  cases listed : constructor.parameterList with
  | none =>
      obtain ⟨_, _, _, _, _, _, _, _, _, rfl, _⟩ := locate?_head located existing
      rw [bodyOpen_eq_none_of_unlisted listed] at opened
      contradiction
  | some list =>
      obtain ⟨_, _, _, _, _, _, _, _, _, _, _, _, _, _, _, _, _, _, _, atEnd⟩ :=
        locate?_parts located existing listed
      rw [opened, closed, Option.bind_some] at atEnd
      exact ⟨lt_of_matchingClose? atEnd.symm, lt_length_of_matchingClose? atEnd.symm⟩

/-- The braces around a body and their places behind a batch of edits. -/
structure Constructor.BodyMoved (constructor : Constructor) (stream : TokenStream)
    (edits : List Edit) (opening closing openingAgain closingAgain : Nat) : Prop where
  opened : constructor.bodyOpen = some opening
  closed : constructor.bodyClose = some closing
  inside : opening ≤ stream.length
  spare : Edit.Spare edits ⟨closing, closing⟩
  placeOpening : openingAgain = Edit.placeAfter stream edits opening
  placeClosing : closingAgain = Edit.placeAfter stream edits closing

/-- The end of a body moves to the end of the longer one. -/
theorem Constructor.BodyGrown.bodyMoved {new : List Dependency} {edited : TokenStream}
    {constructor again : Constructor} (grown : constructor.BodyGrown new stream edits again edited)
    (inOrder : Edit.InOrder edits stream) (applied : edited = Edit.rebuilt stream 0 edits)
    (openedAgain : again.bodyOpen = some openingAgain)
    (closedAgain : again.bodyClose = some closingAgain)
    (within : ∀ opening closing, constructor.bodyOpen = some opening →
      constructor.bodyClose = some closing → ∀ edit ∈ edits, edit.range.stop ≤ closing) :
    ∃ opening closing,
      constructor.BodyMoved stream edits opening closing openingAgain closingAgain := by
  cases grown with
  | unclosed _ after =>
      rw [closedAgain] at after
      contradiction
  | @grown opening _ brace closer content blanks added rest opens place closes cut opensAgain
      closesAgain cutAgain _ _ _ =>
      rw [openedAgain, Option.some.injEq] at opensAgain
      rw [closedAgain, Option.some.injEq] at closesAgain
      subst opensAgain closesAgain
      have size := congrArg List.length cut
      have sizeAgain := congrArg List.length cutAgain
      simp only [List.length_drop, List.length_cons, List.length_append] at size sizeAgain
      have inside : opening + 1 + (content ++ blanks).length ≤ stream.length := by
        rw [List.length_append]
        omega
      have early := within _ _ opens closes
      obtain ⟨front, later, isLater, rebuilt, moved, _⟩ :=
        @Edit.rebuilt_spare stream edits (opening + 1 + (content ++ blanks).length) _ inOrder
          (fun edit member => .inl (early edit member)) (Nat.le_refl _) inside
      have noneLater : later = [] := by
        rw [List.eq_nil_iff_forall_not_mem]
        intro edit member
        obtain ⟨inEdits, beyond⟩ := isLater edit member
        exact absurd (early edit inEdits) (Nat.not_le.mpr beyond)
      have total := congrArg List.length (applied.trans rebuilt)
      rw [noneLater, Edit.rebuilt] at total
      simp only [List.length_append, TokenStream.length_slice, List.length_drop] at total inside
      refine ⟨opening, _, opens, closes, by omega, fun edit member => .inl (early edit member),
        place, ?_⟩
      rw [moved]
      simp only [List.length_append]
      omega

/-- A constructor that has a body after an injection had it before. -/
theorem planEdits_existing_body {constructor : Constructor}
    (located : stream.locate? options.marker = some site)
    (existing : site.constructor? = some constructor) (wellSpaced : WellSpaced stream)
    (spaces : Spaces options.indent)
    (writableProperties : ∀ dependency ∈ plan.properties, dependency.Writable)
    (writableParameters : ∀ dependency ∈ plan.parameters, dependency.Writable)
    (writableAssignments : ∀ dependency ∈ plan.assignments, dependency.Writable)
    (result : planEdits stream site plan options = .ok edits)
    (body : TokenStream.HasBody (Edit.rebuilt stream 0 edits) options.marker openingAgain
      closingAgain) :
    ∃ opening closing,
      constructor.BodyMoved stream edits opening closing openingAgain closingAgain := by
  obtain ⟨trims, apart⟩ := planEdits_existing_trims located existing result
  have applied := Edit.applyAll_eq_ok trims.inOrder
  cases listed : constructor.parameterList with
  | none =>
      obtain ⟨edited, after, again, appliedAgain, locatedAgain, existingAgain, bodiless⟩ :=
        planEdits_unlisted located existing listed wellSpaced spaces writableProperties result
      rw [applied, Except.ok.injEq] at appliedAgain
      rw [appliedAgain] at body
      rw [(body.of_located locatedAgain existingAgain).1] at bodiless
      contradiction
  | some list =>
      obtain ⟨edited, after, again, appliedAgain, locatedAgain, existingAgain, _, grown, _⟩ :=
        planEdits_existing located existing listed wellSpaced spaces writableProperties
          writableParameters writableAssignments result
      rw [applied, Except.ok.injEq] at appliedAgain
      rw [appliedAgain] at body
      obtain ⟨opened, closed⟩ := body.of_located locatedAgain existingAgain
      refine grown.bodyMoved trims.inOrder appliedAgain.symm opened closed ?_
      intro opening closing opened closed edit member
      have order := (TokenStream.body_bounds located existing opened closed).1
      rcases apart opening closing opened closed edit member with early | ⟨_, late⟩
      · omega
      · exact late

end Bodies

namespace Converter

variable {converter : Converter} {stream : TokenStream} {conversion : Conversion} {source name : Text}
  {index place openingAgain closingAgain : Nat}

theorem wellSpaced_of_process (lexed : tokenize source = .ok stream)
    (processed : converter.process stream = .ok conversion) :
    WellSpaced (replaced stream conversion) := by
  have wellSpaced := wellSpaced_of_tokenize lexed
  cases found : stream.findClass? with
  | none =>
      rw [process, found] at processed
      cases processed
      exact wellSpaced
  | some declaration =>
      rw [replaced, sites_of_process processed found]
      exact wellSpaced_replaced wellSpaced

theorem isQualified_of_process (processed : converter.process stream = .ok conversion) :
    ∀ dependency ∈ distinct (CallSite.dependenciesOfAll conversion.sites),
      dependency.IsQualified := by
  intro dependency member
  rw [mem_distinct_iff] at member
  obtain ⟨site, inSites, _⟩ := (CallSite.mem_dependenciesOfAll_iff _).mp member
  obtain ⟨declaration, found, _⟩ := exists_mem_sites processed inSites
  rw [sites_of_process processed found] at member
  exact isQualified_of_mem_dependenciesOfAll member

/-- The body in which an access stands after an injection is the one in which it stood before. -/
theorem Access.within {site : ConstructorSite} {edits : List Edit}
    (access : converter.Access stream conversion name index place)
    (lexed : tokenize source = .ok stream) (processed : converter.process stream = .ok conversion)
    (located : (replaced stream conversion).locate? converter.options.marker = some site)
    (edited : injectionEdits (replaced stream conversion) site
      (distinct (CallSite.dependenciesOfAll conversion.sites)) converter.options = .ok edits)
    (spaces : Spaces converter.options.indent) (marker : converter.options.marker = defaultMarker)
    (body : TokenStream.HasBody (Edit.rebuilt (replaced stream conversion) 0 edits)
      converter.options.marker openingAgain closingAgain)
    (before : Edit.placeAfter (replaced stream conversion) edits index < closingAgain) :
    ∃ constructor opening closing, site.constructor? = some constructor ∧
      constructor.BodyMoved (replaced stream conversion) edits opening closing openingAgain
        closingAgain := by
  obtain ⟨⟨token, found, _⟩, behindBrace⟩ := access.exists_variable processed
  have inside := (List.getElem?_eq_some_iff.mp found).1
  rcases injectionEdits_eq_ok edited with
    rfl | ⟨dependencies, plan, distinctResult, planned, result⟩
  · obtain ⟨again, constructor, locatedAgain, existing, opened, closed⟩ := body
    rw [Edit.rebuilt, List.drop_zero, located, Option.some.injEq] at locatedAgain
    subst locatedAgain
    obtain ⟨order, closingInside⟩ := TokenStream.body_bounds located existing opened closed
    have stays {place : Nat} (placed : place ≤ (replaced stream conversion).length) :
        place = Edit.placeAfter (replaced stream conversion) [] place :=
      (List.length_take_of_le placed).symm
    exact ⟨constructor, openingAgain, closingAgain, existing, opened, closed, by omega,
      by simp [Edit.Spare], stays (by omega), stays (by omega)⟩
  · obtain ⟨writable, someDependency⟩ :=
      distinctDependencies_writable distinctResult (isQualified_of_process processed)
    obtain ⟨writableParameters, writableAssignments, writableProperties⟩ :=
      ConstructorSite.forall_mem_planned planned writable
    cases existing : site.constructor? with
    | none =>
        have someRequest : distinct (CallSite.dependenciesOfAll conversion.sites) ≠ [] := by
          obtain ⟨call, member, _⟩ := access.placed
          have inAll := (CallSite.mem_dependenciesOfAll_iff _).mpr
            ⟨call, member, call, .itself _, rfl⟩
          exact List.ne_nil_of_mem (mem_distinct_iff.mpr inAll)
        have declared := (TokenStream.locate?_eq_some_iff.mp located).1
        have beyond := planEdits_new_body located existing marker
          (parameters_ne_nil_of_absent planned (someDependency someRequest) existing) spaces
          writableProperties writableParameters writableAssignments result body
          (behindBrace _ declared) (Nat.le_of_lt inside)
        omega
    | some constructor =>
        obtain ⟨opening, closing, moved⟩ := planEdits_existing_body located existing
          (wellSpaced_of_process lexed processed) spaces writableProperties writableParameters
          writableAssignments result body
        exact ⟨constructor, opening, closing, rfl, moved⟩

/-- What an injection does to accesses in the constructor: the tokens between the brace of the body
and the access stay, and so the access comes after an assignment exactly if it did before. -/
theorem process_assigns_iff (lexed : tokenize source = .ok stream)
    (processed : converter.process stream = .ok conversion)
    (access : converter.Access stream conversion name index place) :
    (∀ opening closing,
      (replaced stream conversion).HasBody converter.options.marker opening closing →
        opening < index → index < closing →
          ∃ openingAgain, conversion.stream.slice ⟨openingAgain, place⟩ =
            (replaced stream conversion).slice ⟨opening, index⟩) ∧
      (Spaces converter.options.indent → converter.options.marker = defaultMarker →
        ∀ openingAgain closingAgain,
          conversion.stream.HasBody converter.options.marker openingAgain closingAgain →
            openingAgain < place → place < closingAgain →
              ∃ opening closing,
                (replaced stream conversion).HasBody converter.options.marker opening closing ∧
                opening < index ∧ index < closing ∧
                (Assigns name (conversion.stream.slice ⟨openingAgain + 1, place⟩) ↔
                  Assigns name ((replaced stream conversion).slice ⟨opening + 1, index⟩))) := by
  obtain ⟨⟨token, found, isVariable⟩, _⟩ := access.exists_variable processed
  obtain ⟨site, edits, located, edited, trims, whole, isPlace⟩ := access.injected processed
  have inside := (List.getElem?_eq_some_iff.mp found).1
  refine ⟨?_, ?_⟩
  · intro opening closing body behind before
    obtain ⟨other, constructor, locatedAgain, existing, opened, closed⟩ := body
    rw [located, Option.some.injEq] at locatedAgain
    subst locatedAgain
    exact ⟨_, access.slice_eq processed located edited existing opened closed behind before⟩
  · intro spaces marker openingAgain closingAgain body behindAgain beforeAgain
    rw [whole] at body
    rw [isPlace] at behindAgain beforeAgain
    obtain ⟨constructor, opening, closing, existing, moved⟩ :=
      access.within lexed processed located edited spaces marker body beforeAgain
    have spare : Edit.Spare edits ⟨index, index⟩ := by
      intro edit member
      by_contra touched
      simp only [not_or, Nat.not_le, Nat.not_lt] at touched
      have blank := (trims.removed edit member index token touched.2 touched.1 found).1
      rw [isVariable] at blank
      contradiction
    have behind : opening < index := by
      by_contra early
      rw [moved.placeOpening] at behindAgain
      rcases Nat.eq_or_lt_of_le (Nat.not_lt.mp early) with rfl | earlier
      · exact Nat.lt_irrefl _ behindAgain
      · have order := Edit.placeAfter_lt trims.inOrder spare earlier moved.inside
        omega
    have before : index < closing := by
      by_contra late
      rw [moved.placeClosing] at beforeAgain
      rcases Nat.eq_or_lt_of_le (Nat.not_lt.mp late) with rfl | later
      · exact Nat.lt_irrefl _ beforeAgain
      · have order := Edit.placeAfter_lt trims.inOrder moved.spare later (Nat.le_of_lt inside)
        omega
    have same := access.slice_eq processed located edited existing moved.opened moved.closed behind
      before
    rw [← moved.placeOpening] at same
    have sameBehind := congrArg (List.drop 1) same
    simp only [TokenStream.slice, List.drop_drop] at sameBehind
    refine ⟨opening, closing, ⟨site, constructor, located, existing, moved.opened, moved.closed⟩,
      behind, before, ?_⟩
    simp only [TokenStream.slice, sameBehind]

section CallInConstructor

/-- A constructor whose only statement uses what its injection assigns behind it. -/
def callInConstructor : Text :=
  "<?php class A\x7bfunction __construct()\x7b$x=Mage::helper('tax');\x7d\x7d"

def callInConstructorTokens : TokenStream :=
  [⟨.openTag, "<?php ", 1⟩, ⟨.keyword, "class", 1⟩, ⟨.whitespace, " ", 1⟩, ⟨.identifier, "A", 1⟩,
   ⟨.openBrace, "\x7b", 1⟩, ⟨.keyword, "function", 1⟩, ⟨.whitespace, " ", 1⟩,
   ⟨.identifier, "__construct", 1⟩, ⟨.openParen, "(", 1⟩, ⟨.closeParen, ")", 1⟩,
   ⟨.openBrace, "\x7b", 1⟩, ⟨.variableName, "$x", 1⟩, ⟨.assign, "=", 1⟩, ⟨.identifier, "Mage", 1⟩,
   ⟨.doubleColon, "::", 1⟩, ⟨.identifier, "helper", 1⟩, ⟨.openParen, "(", 1⟩,
   ⟨.stringLiteral, "'tax'", 1⟩, ⟨.closeParen, ")", 1⟩, ⟨.semicolon, ";", 1⟩,
   ⟨.closeBrace, "\x7d", 1⟩, ⟨.closeBrace, "\x7d", 1⟩]

def taxHelper : Dependency :=
  ⟨"\\Magento\\Tax\\Helper\\Data", "taxHelper"⟩

def taxHelperAccess : List Token :=
  [⟨.variableName, "$this", 0⟩, ⟨.objectOperator, "->", 0⟩, ⟨.identifier, "taxHelper", 0⟩]

def callInConstructorReplaced : TokenStream :=
  [⟨.openTag, "<?php ", 1⟩, ⟨.keyword, "class", 1⟩, ⟨.whitespace, " ", 1⟩, ⟨.identifier, "A", 1⟩,
   ⟨.openBrace, "\x7b", 1⟩, ⟨.keyword, "function", 1⟩, ⟨.whitespace, " ", 1⟩,
   ⟨.identifier, "__construct", 1⟩, ⟨.openParen, "(", 1⟩, ⟨.closeParen, ")", 1⟩,
   ⟨.openBrace, "\x7b", 1⟩, ⟨.variableName, "$x", 1⟩, ⟨.assign, "=", 1⟩,
   ⟨.variableName, "$this", 0⟩, ⟨.objectOperator, "->", 0⟩, ⟨.identifier, "taxHelper", 0⟩,
   ⟨.semicolon, ";", 1⟩, ⟨.closeBrace, "\x7d", 1⟩, ⟨.closeBrace, "\x7d", 1⟩]

def callInConstructorSite : ConstructorSite :=
  ⟨⟨1, some "A", none, 4, 18⟩, some ⟨5, some ⟨8, 9⟩, [], some 10, some 17⟩, 0⟩

theorem tokenize_callInConstructor : tokenize callInConstructor = .ok callInConstructorTokens :=
  eq_ok_of_toOption (by decide +kernel)

theorem startsAccess_taxHelper : StartsAccess "taxHelper" taxHelperAccess :=
  ⟨⟨.variableName, "$this", 0⟩, ⟨.objectOperator, "->", 0⟩, ⟨.identifier, "taxHelper", 0⟩, [], rfl,
    rfl, rfl, rfl, rfl, rfl⟩

theorem findClass?_callInConstructor :
    callInConstructorTokens.findClass? = some ⟨1, some "A", none, 4, 21⟩ := by
  decide +kernel

theorem sites_callInConstructor :
    let sites := conventions.sites callInConstructorTokens ⟨1, some "A", none, 4, 21⟩
    replacementEdits sites = [⟨⟨13, 19⟩, taxHelperAccess⟩] ∧
      distinct (CallSite.dependenciesOfAll sites) = [taxHelper] := by
  decide +kernel

theorem locate?_callInConstructorReplaced :
    callInConstructorReplaced.locate? InjectionOptions.default.marker =
      some callInConstructorSite := by
  decide +kernel

theorem injectionEdits_callInConstructor :
    ∃ edits, injectionEdits callInConstructorReplaced callInConstructorSite [taxHelper] .default =
        .ok edits ∧
      Edit.placeAfter callInConstructorReplaced edits 13 = 26 ∧
      TokenStream.slice (Edit.rebuilt callInConstructorReplaced 0 edits) ⟨24, 26⟩ =
        [⟨.variableName, "$x", 1⟩, ⟨.assign, "=", 1⟩] ∧
      ∃ site constructor, TokenStream.locate? (Edit.rebuilt callInConstructorReplaced 0 edits)
          defaultMarker = some site ∧ site.constructor? = some constructor ∧
        constructor.bodyOpen = some 23 ∧ constructor.bodyClose = some 39 ∧
        (site.parameter? "taxHelper").any (·.isPromoted) = false := by
  have computed : (injectionEdits callInConstructorReplaced callInConstructorSite [taxHelper]
      .default).toOption.any (fun edits =>
        decide (Edit.placeAfter callInConstructorReplaced edits 13 = 26) &&
        decide (TokenStream.slice (Edit.rebuilt callInConstructorReplaced 0 edits) ⟨24, 26⟩ =
          [⟨.variableName, "$x", 1⟩, ⟨.assign, "=", 1⟩]) &&
        (TokenStream.locate? (Edit.rebuilt callInConstructorReplaced 0 edits) defaultMarker).any
          fun site => (site.constructor?.any fun constructor =>
              constructor.bodyOpen == some 23 && constructor.bodyClose == some 39) &&
            !(site.parameter? "taxHelper").any (·.isPromoted)) = true := by
    decide +kernel
  simp only [Option.any_eq_true, Bool.and_eq_true, decide_eq_true_eq, beq_iff_eq,
    Bool.not_eq_true'] at computed
  obtain ⟨edits, edited, ⟨moved, before⟩, site, located, ⟨constructor, existing, body⟩, unpromoted⟩ :=
    computed
  exact ⟨edits, eq_ok_of_toOption edited, moved, before, site, constructor, located, existing,
    body.1, body.2, unpromoted⟩

theorem process_callInConstructor :
    ∃ conversion, conventions.process callInConstructorTokens = .ok conversion ∧
      conventions.Access callInConstructorTokens conversion "taxHelper" 13 26 ∧
      conversion.stream.slice ⟨24, 26⟩ = [⟨.variableName, "$x", 1⟩, ⟨.assign, "=", 1⟩] ∧
      ∃ site constructor, conversion.stream.locate? defaultMarker = some site ∧
        site.constructor? = some constructor ∧ constructor.bodyOpen = some 23 ∧
        constructor.bodyClose = some 39 ∧
        (site.parameter? "taxHelper").any (·.isPromoted) = false := by
  obtain ⟨replacements, dependencies⟩ := sites_callInConstructor
  have isReplaced : Edit.rebuilt callInConstructorTokens 0 [⟨⟨13, 19⟩, taxHelperAccess⟩] =
      callInConstructorReplaced := by
    decide
  obtain ⟨edits, edited, moved, before, body⟩ := injectionEdits_callInConstructor
  have distinctEq : distinctDependencies [taxHelper] = .ok [taxHelper] :=
    eq_ok_of_toOption (by decide +kernel)
  have planned : callInConstructorSite.plan callInConstructorReplaced .default [taxHelper] =
      .ok ⟨[taxHelper], [taxHelper], [taxHelper], false⟩ :=
    eq_ok_of_toOption (by decide +kernel)
  have injects : inject callInConstructorReplaced callInConstructorSite [taxHelper] .default =
      .ok ⟨Edit.rebuilt callInConstructorReplaced 0 edits, [taxHelper]⟩ :=
    (inject_eq_ok_iff locate?_callInConstructorReplaced).mpr
      ⟨_, _, edits, distinctEq, planned, edited, rfl⟩
  have someSites : conventions.sites callInConstructorTokens ⟨1, some "A", none, 4, 21⟩ ≠ [] := by
    intro none
    rw [none] at replacements
    contradiction
  obtain ⟨conversion, processed, sites, stream⟩ := exists_process findClass?_callInConstructor
    someSites (by rw [replacements, isReplaced]; exact locate?_callInConstructorReplaced)
    (by rw [replacements, isReplaced, dependencies]; exact injects)
  simp only at stream
  rw [← stream] at before body
  refine ⟨conversion, processed, ⟨?_, ?_⟩, before, body⟩
  · have member : Edit.mk ⟨13, 19⟩ taxHelperAccess ∈ replacementEdits conversion.sites := by
      rw [sites, replacements]
      exact List.mem_singleton_self _
    obtain ⟨site, inSites, isEdit⟩ := List.mem_map.mp member
    simp only [Edit.mk.injEq, CallSite.range, IndexRange.mk.injEq] at isEdit
    refine ⟨site, inSites, [], taxHelperAccess, isEdit.2, startsAccess_taxHelper, ?_⟩
    rw [isEdit.1.1, sites, replacements]
    decide
  · rw [replaced, sites, replacements, isReplaced, dependencies]
    exact ⟨callInConstructorSite, edits, locate?_callInConstructorReplaced, edited, moved.symm⟩

theorem process_assigns_iff_callInConstructor :
    ∃ conversion, tokenize callInConstructor = .ok callInConstructorTokens ∧
      conventions.process callInConstructorTokens = .ok conversion ∧
      conventions.Access callInConstructorTokens conversion "taxHelper" 13 26 ∧
      conversion.stream.HasBody defaultMarker 23 39 ∧
      ∃ opening closing,
        (replaced callInConstructorTokens conversion).HasBody defaultMarker opening closing ∧
        opening < 13 ∧ 13 < closing ∧
        (Assigns "taxHelper" (conversion.stream.slice ⟨23 + 1, 26⟩) ↔ Assigns "taxHelper"
          ((replaced callInConstructorTokens conversion).slice ⟨opening + 1, 13⟩)) := by
  obtain ⟨conversion, processed, access, _, site, constructor, located, existing, opened, closed, _⟩ :=
    process_callInConstructor
  have spaces : Spaces conventions.options.indent := .of_all rfl
  have body : conversion.stream.HasBody defaultMarker 23 39 :=
    ⟨site, constructor, located, existing, opened, closed⟩
  exact ⟨conversion, tokenize_callInConstructor, processed, access, body,
    (process_assigns_iff tokenize_callInConstructor processed access).2 spaces rfl 23 39 body
      (by decide) (by decide)⟩

theorem not_assignsBeforeUse_callInConstructor :
    ¬ ∀ (converter : Converter) (source : Text) (stream : TokenStream) (conversion : Conversion),
      tokenize source = .ok stream → converter.process stream = .ok conversion →
        converter.AssignsBeforeUse stream conversion := by
  intro assigned
  obtain ⟨conversion, processed, access, before, site, constructor, located, existing, opened,
    closed, unpromoted⟩ := process_callInConstructor
  rcases assigned _ _ _ _ tokenize_callInConstructor processed site constructor 23 39 _ _ _ located
    existing opened closed access (by decide) (by decide) with assigns | promoted
  · rw [before] at assigns
    obtain ⟨token, member, isArrow⟩ := assigns.exists_operator
    simp only [List.mem_cons, List.not_mem_nil, or_false] at member
    rcases member with rfl | rfl <;> contradiction
  · rw [unpromoted] at promoted
    contradiction

end CallInConstructor

end Converter

end ConstructorInjection
