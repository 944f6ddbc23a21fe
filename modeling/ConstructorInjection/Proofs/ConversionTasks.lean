import Mathlib.Data.List.Basic
import Mathlib.Tactic.Common
import ConstructorInjection.Proofs.StaticCalls

/-!
The conversion of calls as a task that starts others. A call starts the spans that its replacement
copies, and a span looks for a call at each of its places, also for one that reaches beyond the span
and is given up. All tasks end, whether or not the delimiters match: what a call starts lies behind
it and within the stream.
-/

namespace ConstructorInjection

/-- What is to be converted: the call at an index, or a span. -/
inductive ConversionTask where
  | call (index : Nat)
  | span (range : IndexRange)

/-- What comes of a task: the conversion of a call, if there is one, or the text of a span. -/
inductive ConversionResult where
  | site (found : Option CallSite)
  | text (converted : ConvertedText)

/-- The conversion of a call, made of the conversions of the ranges that it copies. -/
def CallShape.site? (shape : CallShape) (index : Nat) (call : LegacyCall) (dependency : Dependency)
    (copies : List ConvertedText) : Option CallSite :=
  (synthesize
    (shape.replacement dependency.variableName (copies.map ConvertedText.text))).toOption.map
      fun tokens => ⟨shape, index, call.stop, dependency, tokens, copies.flatMap ConvertedText.sites⟩

/-- A call with a shape and a dependency, so that what it copies is converted. -/
structure Replaceable (resolver : Resolver) (stream : TokenStream) (index : Nat) (call : LegacyCall)
    (shape : CallShape) (dependency : Dependency) : Prop where
  call_eq : stream.legacyCall? index = some call
  shape_eq : CallShape.select? call.method call.arguments.length = some shape
  dependency_eq : shape.dependency? resolver stream call = some dependency

/-- A task and its result. Nothing here bounds a task but the tasks that it starts, which have to
end before it, and a span that goes on behind the last token has no result. -/
inductive Ends (resolver : Resolver) (stream : TokenStream) :
    ConversionTask → ConversionResult → Prop where
  | noCall {index : Nat}
      (missing : ∀ call shape dependency, ¬ Replaceable resolver stream index call shape dependency) :
      Ends resolver stream (.call index) (.site none)
  | call {index : Nat} {call : LegacyCall} {shape : CallShape} {dependency : Dependency}
      {copy : IndexRange → ConvertedText}
      (replaceable : Replaceable resolver stream index call shape dependency)
      (copies : ∀ range ∈ shape.copied call, Ends resolver stream (.span range) (.text (copy range))) :
      Ends resolver stream (.call index)
        (.site (shape.site? index call dependency ((shape.copied call).map copy)))
  | stop {start stop : Nat} (done : stop ≤ start) :
      Ends resolver stream (.span ⟨start, stop⟩) (.text ⟨[], []⟩)
  | replace {start stop : Nat} {site : CallSite} {rest : ConvertedText} (within : start < stop)
      (looked : Ends resolver stream (.call start) (.site (some site))) (fits : site.stop ≤ stop)
      (later : Ends resolver stream (.span ⟨site.stop, stop⟩) (.text rest)) :
      Ends resolver stream (.span ⟨start, stop⟩)
        (.text ⟨site.replacementText ++ rest.text, site :: rest.sites⟩)
  | keep {start stop : Nat} {found : Option CallSite} {token : Token} {rest : ConvertedText}
      (within : start < stop) (looked : Ends resolver stream (.call start) (.site found))
      (reaches : ∀ site, found = some site → stop < site.stop) (there : stream[start]? = some token)
      (later : Ends resolver stream (.span ⟨start + 1, stop⟩) (.text rest)) :
      Ends resolver stream (.span ⟨start, stop⟩) (.text ⟨token.text ++ rest.text, rest.sites⟩)

section Tasks

variable {resolver : Resolver} {stream : TokenStream}

theorem Replaceable.unique {index : Nat} {call other : LegacyCall} {shape otherShape : CallShape}
    {dependency otherDependency : Dependency}
    (first : Replaceable resolver stream index call shape dependency)
    (second : Replaceable resolver stream index other otherShape otherDependency) :
    call = other ∧ shape = otherShape ∧ dependency = otherDependency := by
  have sameCall := Option.some.inj (first.call_eq.symm.trans second.call_eq)
  subst sameCall
  have sameShape := Option.some.inj (first.shape_eq.symm.trans second.shape_eq)
  subst sameShape
  exact ⟨rfl, rfl, Option.some.inj (first.dependency_eq.symm.trans second.dependency_eq)⟩

/-- What a call starts lies behind its receiver and within the stream. -/
theorem Replaceable.copied_bounds {index : Nat} {call : LegacyCall} {shape : CallShape}
    {dependency : Dependency} (replaceable : Replaceable resolver stream index call shape dependency)
    {range : IndexRange} (copied : range ∈ shape.copied call) :
    index < range.start ∧ range.stop ≤ stream.length := by
  have behind := CallShape.start_of_mem_copied replaceable.call_eq copied
  have before := CallShape.stop_of_mem_copied replaceable.call_eq copied
  obtain ⟨_, _, _, _, _, _, _, _, closing, _⟩ :=
    TokenStream.legacyCall?_eq_some replaceable.call_eq
  have inside := TokenStream.lt_length_of_matchingClose? closing
  rw [LegacyCall.stop] at before
  exact ⟨behind, by omega⟩

/-- A task has one result only. -/
theorem Ends.unique {task : ConversionTask} {result other : ConversionResult}
    (ends : Ends resolver stream task result) (others : Ends resolver stream task other) :
    result = other := by
  induction ends generalizing other with
  | noCall missing =>
      cases others with
      | noCall => rfl
      | call replaceable => exact absurd replaceable (missing _ _ _)
  | call replaceable copies ih =>
      cases others with
      | noCall missing => exact absurd replaceable (missing _ _ _)
      | call otherReplaceable otherCopies =>
          obtain ⟨rfl, rfl, rfl⟩ := replaceable.unique otherReplaceable
          congr 2
          refine List.map_congr_left fun range copied => ?_
          exact ConversionResult.text.inj (ih range copied (otherCopies range copied))
  | stop done =>
      cases others with
      | stop => rfl
      | replace within => omega
      | keep within => omega
  | replace within looked fits later ihLooked ihLater =>
      cases others with
      | stop done => omega
      | replace _ otherLooked _ otherLater =>
          cases ihLooked otherLooked
          cases ihLater otherLater
          rfl
      | keep _ otherLooked reaches =>
          cases ihLooked otherLooked
          have beyond := reaches _ rfl
          omega
  | keep within looked reaches there later ihLooked ihLater =>
      cases others with
      | stop done => omega
      | replace _ otherLooked fits =>
          cases ihLooked otherLooked
          have beyond := reaches _ rfl
          omega
      | keep _ otherLooked _ otherThere otherLater =>
          cases ihLater otherLater
          rw [there, Option.some.injEq] at otherThere
          rw [otherThere]

theorem dispatch?_eq_none {index : Nat}
    (missing : ∀ call shape dependency, ¬ Replaceable resolver stream index call shape dependency) :
    dispatch? resolver stream index = none := by
  rw [dispatch?]
  split
  next => rfl
  next call found =>
    split
    next => rfl
    next shape selected =>
      split
      next => rfl
      next dependency resolved =>
        exact absurd ⟨found, selected, resolved⟩ (missing call shape dependency)

theorem Replaceable.dispatch?_eq {index : Nat} {call : LegacyCall} {shape : CallShape}
    {dependency : Dependency}
    (replaceable : Replaceable resolver stream index call shape dependency) :
    dispatch? resolver stream index = shape.site? index call dependency
      ((shape.copied call).map fun range =>
        convertSpan resolver stream range.start range.stop) := by
  obtain ⟨found, selected, resolved⟩ := replaceable
  rw [dispatch?]
  split
  next missing =>
    rw [found] at missing
    contradiction
  next other otherFound =>
    rw [found, Option.some.injEq] at otherFound
    subst otherFound
    simp only [selected, resolved, List.map_attach_eq_pmap, List.pmap_eq_map]
    rw [CallShape.site?]
    split
    next refused =>
      rw [refused]
      rfl
    next tokens lexed =>
      rw [lexed]
      rfl

/-- A call ends when the spans that it starts end. -/
theorem Ends.of_copied {index : Nat}
    (spans : ∀ call shape dependency, Replaceable resolver stream index call shape dependency →
      ∀ range ∈ shape.copied call, Ends resolver stream (.span range)
        (.text (convertSpan resolver stream range.start range.stop))) :
    Ends resolver stream (.call index) (.site (dispatch? resolver stream index)) := by
  by_cases replaceable :
      ∃ call shape dependency, Replaceable resolver stream index call shape dependency
  · obtain ⟨call, shape, dependency, replaceable⟩ := replaceable
    rw [replaceable.dispatch?_eq]
    exact .call replaceable (spans call shape dependency replaceable)
  · have missing : ∀ call shape dependency,
        ¬ Replaceable resolver stream index call shape dependency :=
      fun call shape dependency found => replaceable ⟨call, shape, dependency, found⟩
    rw [dispatch?_eq_none missing]
    exact .noCall missing

/-- A span ends when the call at its start and the rest behind it end. -/
theorem Ends.of_rest {start stop : Nat} (inside : stop ≤ stream.length)
    (looked : Ends resolver stream (.call start) (.site (dispatch? resolver stream start)))
    (later : start < stop → ∀ next, start < next → Ends resolver stream (.span ⟨next, stop⟩)
      (.text (convertSpan resolver stream next stop))) :
    Ends resolver stream (.span ⟨start, stop⟩)
      (.text (convertSpan resolver stream start stop)) := by
  rw [convertSpan]
  split
  next within =>
    split
    next site result =>
      obtain ⟨dispatched, fits⟩ := Option.filter_eq_some_iff.mp result
      obtain ⟨sameStart, _, converted⟩ := dispatch?_eq_some dispatched
      -- a call stops behind its start, so going on at its stop is going forward
      have forward := converted.start_lt_stop
      have behind : max (start + 1) site.stop = site.stop := by omega
      rw [dispatched] at looked
      rw [behind]
      exact .replace within.1 looked (by simpa using fits)
        (later within.1 site.stop (by omega))
    next noSite =>
      have reaches (site : CallSite) (found : dispatch? resolver stream start = some site) :
          stop < site.stop := by
        simpa [found, Option.filter] using noSite
      exact .keep within.1 looked reaches (List.getElem?_eq_getElem within.2)
        (later within.1 (start + 1) (Nat.lt_succ_self start))
  next outside => exact .stop (by omega)

/-- By induction on what lies behind a place: a call there starts spans behind it, and a span that
starts there looks at the place and goes on behind it. -/
theorem ends_from (resolver : Resolver) (stream : TokenStream) (start : Nat) :
    Ends resolver stream (.call start) (.site (dispatch? resolver stream start)) ∧
      ∀ stop ≤ stream.length, Ends resolver stream (.span ⟨start, stop⟩)
        (.text (convertSpan resolver stream start stop)) := by
  generalize left : stream.length - start = remaining
  induction remaining using Nat.strongRecOn generalizing start with
  | ind remaining ih =>
      have looked : Ends resolver stream (.call start) (.site (dispatch? resolver stream start)) := by
        apply Ends.of_copied
        intro call shape dependency replaceable range copied
        obtain ⟨behind, inside⟩ := replaceable.copied_bounds copied
        have present := TokenStream.index_lt_of_legacyCall? replaceable.call_eq
        exact (ih _ (by omega) range.start rfl).2 range.stop inside
      refine ⟨looked, fun stop inside => Ends.of_rest inside looked fun within next behind => ?_⟩
      exact (ih _ (by omega) next rfl).2 stop inside

end Tasks

/-- The conversion of calls ends on every stream: the call at an index and a span within the stream
have one result each, with nothing to bound them but the tasks that they start. For what a call
starts lies behind the call and within the stream, whatever span the call was found in and wherever
it is closed. -/
theorem conversion_ends (resolver : Resolver) (stream : TokenStream) :
    (∀ index found, Ends resolver stream (.call index) (.site found) ↔
      dispatch? resolver stream index = found) ∧
    (∀ range : IndexRange, range.stop ≤ stream.length → ∀ converted,
      (Ends resolver stream (.span range) (.text converted) ↔
        convertSpan resolver stream range.start range.stop = converted)) ∧
    ∀ index call shape dependency, Replaceable resolver stream index call shape dependency →
      ∀ range ∈ shape.copied call, index < range.start ∧ range.stop ≤ stream.length := by
  refine ⟨fun index found => ?_, fun range inside converted => ?_, ?_⟩
  · have ends := (ends_from resolver stream index).1
    constructor
    · intro other
      exact ConversionResult.site.inj (ends.unique other)
    · rintro rfl
      exact ends
  · have ends := (ends_from resolver stream range.start).2 range.stop inside
    constructor
    · intro other
      exact ConversionResult.text.inj (ends.unique other)
    · rintro rfl
      exact ends
  · intro index call shape dependency replaceable range copied
    exact replaceable.copied_bounds copied

/-- A fragment with a brace that stays open and a parenthesis that a bracket closes. -/
def mismatchedFragment : Text :=
  "\x7b Mage::log(Mage::helper('tax')];"

theorem conversion_ends_closedBehindSpan : ∃ (stream : TokenStream) (outer inner : CallSite),
    lexFragment mismatchedFragment = .ok stream ∧ (nestingError? [] 0 stream).isSome = true ∧
      11 ≤ stream.length ∧
      Ends conventions.resolver stream (.call 2) (.site (some outer)) ∧ 11 < outer.stop ∧
      Ends conventions.resolver stream (.call 6) (.site (some inner)) ∧ 11 < inner.stop ∧
      (∃ converted, Ends conventions.resolver stream (.span ⟨2, 11⟩) (.text converted) ∧
        converted.text = "Mage::log(Mage::helper('tax'" ∧ converted.sites.length = 0) ∧
      ∃ call shape dependency, Replaceable conventions.resolver stream 2 call shape dependency ∧
        ∃ range ∈ shape.copied call, 11 < range.stop ∧ 2 < range.start ∧
          range.stop ≤ stream.length := by
  have computed : (lexFragment mismatchedFragment).toOption.any (fun stream : TokenStream =>
      (nestingError? [] 0 stream).isSome && decide (11 ≤ stream.length) &&
        (dispatch? conventions.resolver stream 2).any (fun outer => decide (11 < outer.stop)) &&
        (dispatch? conventions.resolver stream 6).any (fun inner => decide (11 < inner.stop)) &&
        decide ((convertSpan conventions.resolver stream 2 11).text =
          "Mage::log(Mage::helper('tax'") &&
        decide ((convertSpan conventions.resolver stream 2 11).sites.length = 0) &&
        (stream.legacyCall? 2).any (fun call =>
          (CallShape.select? call.method call.arguments.length).any fun shape =>
            (shape.dependency? conventions.resolver stream call).any fun _ =>
              (shape.copied call).any fun range => decide (11 < range.stop))) = true := by
    decide +kernel
  simp only [Option.any_eq_true, List.any_eq_true, Bool.and_eq_true, decide_eq_true_eq] at computed
  obtain ⟨stream, lexed, ⟨⟨⟨⟨⟨faulty, inside⟩, outer, outerFound, outerStop⟩, inner, innerFound,
    innerStop⟩, text⟩, noSites⟩, call, called, shape, selected, dependency, resolved, range, copied,
    beyond⟩ := computed
  obtain ⟨calls, spans, started⟩ := conversion_ends conventions.resolver stream
  have replaceable : Replaceable conventions.resolver stream 2 call shape dependency :=
    ⟨called, selected, resolved⟩
  exact ⟨stream, outer, inner, eq_ok_of_toOption lexed, faulty, inside,
    (calls 2 _).mpr outerFound, outerStop, (calls 6 _).mpr innerFound, innerStop,
    ⟨_, (spans ⟨2, 11⟩ inside _).mpr rfl, text, noSites⟩,
    call, shape, dependency, replaceable, range, copied, beyond,
    started 2 call shape dependency replaceable range copied⟩

end ConstructorInjection
