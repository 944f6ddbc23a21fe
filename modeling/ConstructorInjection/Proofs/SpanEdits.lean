import Mathlib.Data.Option.Basic
import ConstructorInjection.Proofs.Lossless
import ConstructorInjection.Proofs.Replacements

/-!
The two ways in which calls are converted: a span is converted as text, from left to right, and a
stream by a batch of edits. They come to the same text, and a class without static parts is
converted as the span between its braces.
-/

namespace ConstructorInjection

open Converter (replacementEdits)

/-- A site at the start of a span is an edit in front of those behind it. -/
theorem CallSite.rewrites {stream : TokenStream} {site : CallSite} {stop : Nat} {edits : List Edit}
    {later : List Token} (ordered : site.start ≤ site.stop) (bound : site.stop ≤ stop)
    (inside : stop ≤ stream.length)
    (rewrites : Edit.Rewrites site.stop (stream.slice ⟨site.stop, stop⟩) edits later) :
    Edit.Rewrites site.start (stream.slice ⟨site.start, stop⟩)
      (⟨site.range, site.replacement⟩ :: edits) (site.replacement ++ later) := by
  have size : (stream.slice ⟨site.start, site.stop⟩).length = site.stop - site.start := by
    rw [TokenStream.length_slice]
    simp only
    omega
  have range : site.range =
      ⟨site.start + ([] : List Token).length,
        site.start + ([] : List Token).length +
          (stream.slice ⟨site.start, site.stop⟩).length⟩ := by
    rw [CallSite.range, List.length_nil, Nat.add_zero, size, Nat.add_sub_cancel' ordered]
  rw [← stream.slice_append_slice ordered bound, range]
  refine Edit.Rewrites.replace site.start [] _ site.replacement ?_
  rw [List.length_nil, Nat.add_zero, size, Nat.add_sub_cancel' ordered]
  exact rewrites

/-- The sites of a span, taken as edits, make tokens of the span that have the converted text. -/
theorem exists_rewrites_convertSpan {resolver : Resolver} {stream : TokenStream} {start stop : Nat}
    (ordered : start ≤ stop) (inside : stop ≤ stream.length) :
    ∃ result,
      Edit.Rewrites start (stream.slice ⟨start, stop⟩)
        (replacementEdits (convertSpan resolver stream start stop).sites) result ∧
        textOf result = (convertSpan resolver stream start stop).text := by
  generalize left : stop - start = remaining
  induction remaining using Nat.strongRecOn generalizing start with
  | ind remaining ih =>
      rw [convertSpan]
      split
      next within =>
        split
        next site result =>
          obtain ⟨dispatched, fits⟩ := Option.filter_eq_some_iff.mp result
          obtain ⟨startEq, call, converted⟩ := dispatch?_eq_some dispatched
          have nonempty := converted.start_lt_stop
          have bound : site.stop ≤ stop := by simpa using fits
          rw [Nat.max_eq_right (by omega)]
          obtain ⟨later, rewrites, text⟩ := ih (stop - site.stop) (by omega) bound rfl
          refine ⟨site.replacement ++ later, ?_, ?_⟩
          · subst startEq
            exact site.rewrites (Nat.le_of_lt nonempty) bound inside rewrites
          · rw [textOf_append, text, CallSite.replacementText]
        next =>
          obtain ⟨later, rewrites, text⟩ := ih (stop - (start + 1)) (by omega) within.1 rfl
          have first := TokenStream.slice_eq_cons (List.getElem?_eq_getElem within.2) within.1
          refine ⟨stream[start] :: later, ?_, ?_⟩
          · rw [first]
            exact rewrites.prepend [stream[start]] rfl
          · rw [textOf_cons, text]
      next outside =>
        rw [TokenStream.slice_eq_nil (by simp only; omega)]
        exact ⟨[], .keep start [], rfl⟩

namespace TokenStream

theorem Modifies.behind {stream : TokenStream} {function nearest modifier : Nat}
    (within : stream.Modifies nearest modifier)
    (previous : stream.previousSignificant? function = some nearest)
    (allowed : methodModifiers.any (stream.isKeyword · nearest) = true) :
    stream.Modifies function modifier := by
  induction within with
  | nearest found runs => exact .further (.nearest previous allowed) found runs
  | further _ found runs ih => exact .further ih found runs

/-- The words from the start of a method to its `function` are its modifiers. -/
theorem modifies_of_methodStart_le {stream : TokenStream} {function modifier : Nat} {word : Text}
    (lower : stream.methodStart function ≤ modifier) (upper : modifier < function)
    (keyword : stream.isKeyword word modifier = true) : stream.Modifies function modifier := by
  obtain ⟨token, there, reserved⟩ := (Option.any_eq_true _ _).mp keyword
  rw [Token.isKeyword, Bool.and_eq_true, beq_iff_eq] at reserved
  have noTrivia : token.isTrivia = false := by rw [Token.isTrivia, reserved.1]; rfl
  induction function using Nat.strongRecOn with
  | ind function ih =>
      rw [methodStart] at lower
      split at lower
      next => omega
      next previous found =>
        split at lower
        next runs =>
          rcases Nat.lt_trichotomy modifier previous with earlier | same | later
          · have before := stream.lt_of_previousSignificant? found
            exact (ih previous before lower earlier).behind found runs
          · exact same ▸ .nearest found runs
          · rw [isTrivia_of_previousSignificant? found later upper there] at noTrivia
            contradiction
        next => omega

/-- A class that declares no static method and whose body holds no static closure and no static
arrow function. -/
structure HasNoStaticPart (stream : TokenStream) (declaration : ClassDeclaration) : Prop where
  noMethod : ∀ function ∈ stream.members declaration.bodyOpen declaration.bodyClose,
    stream.isKeyword "function" function = true → ∀ modifier, stream.Modifies function modifier →
      stream.isKeyword "static" modifier = false
  noClosure : ∀ start keyword opening,
    declaration.bodyOpen < start → start < declaration.bodyClose →
      stream.isKeyword "static" start = true → stream.nextSignificant? start = some keyword →
        (stream.isKeyword "fn" keyword = true ∨ stream.isKeyword "function" keyword = true) →
          ¬ stream.OpensClosure keyword opening

theorem opensClosure_of_staticClosure? {stream : TokenStream} {limit start : Nat}
    {range : IndexRange} (found : stream.staticClosure? limit start = some range) :
    stream.isKeyword "static" start = true ∧ ∃ keyword opening,
      stream.nextSignificant? start = some keyword ∧
        (stream.isKeyword "fn" keyword = true ∨ stream.isKeyword "function" keyword = true) ∧
        stream.OpensClosure keyword opening := by
  simp only [staticClosure?, Option.bind_eq_bind, Option.bind_eq_some_iff, Option.guard_eq_some',
    Option.pure_def, exists_const, Bool.or_eq_true] at found
  obtain ⟨isStatic, keyword, next, introduces, behind, later, parameters⟩ := found
  refine ⟨isStatic, keyword, ?_⟩
  split at parameters
  next isAmpersand =>
    simp only [Option.bind_eq_some_iff, Option.guard_eq_some', exists_const] at parameters
    obtain ⟨opening, place, isParen, _⟩ := parameters
    exact ⟨opening, next, introduces, .inr ⟨behind,
      nextOfKind?_eq_some_iff.mpr ⟨later, isAmpersand⟩,
      nextOfKind?_eq_some_iff.mpr ⟨place, isParen⟩⟩⟩
  next =>
    simp only [Option.bind_some, Option.bind_eq_some_iff, Option.guard_eq_some',
      exists_const] at parameters
    exact ⟨behind, next, introduces,
      .inl (nextOfKind?_eq_some_iff.mpr ⟨later, parameters.1⟩)⟩

theorem staticRanges_eq_nil {stream : TokenStream} {declaration : ClassDeclaration}
    (noStatic : stream.HasNoStaticPart declaration) : stream.staticRanges declaration = [] := by
  have noBodies : stream.staticMethodBodies declaration = [] := by
    rw [staticMethodBodies, List.filterMap_eq_nil_iff]
    intro function member
    rw [if_neg]
    rw [Bool.and_eq_true, isStaticMethod, isSome_firstIn?_iff]
    rintro ⟨keyword, modifier, lower, upper, isStatic⟩
    have modifies := modifies_of_methodStart_le lower upper isStatic
    have noModifier := noStatic.noMethod function member keyword modifier modifies
    exact Bool.false_ne_true (noModifier.symm.trans isStatic)
  have noClosures : stream.staticClosures declaration = [] := by
    rw [staticClosures, List.filterMap_eq_nil_iff]
    intro start member
    rw [List.mem_range'_1] at member
    rw [Option.eq_none_iff_forall_ne_some]
    intro range found
    obtain ⟨isStatic, keyword, opening, next, introduces, opens⟩ :=
      opensClosure_of_staticClosure? found
    exact noStatic.noClosure start keyword opening (by omega) (by omega) isStatic next introduces
      opens
  rw [staticRanges, noBodies, noClosures, List.append_nil, List.mergeSort_nil]

end TokenStream

/-- Where nothing is skipped, the scan of a class is the scan of a span. -/
theorem Converter.sitesFrom_eq_convertSpan (converter : Converter) {stream : TokenStream}
    {stop : Nat} (inside : stop ≤ stream.length) (index : Nat) :
    converter.sitesFrom stream stop [] index =
      (convertSpan converter.resolver stream index stop).sites := by
  generalize left : stop - index = remaining
  induction remaining using Nat.strongRecOn generalizing index with
  | ind remaining ih =>
      rw [sitesFrom, convertSpan]
      by_cases within : index < stop
      · rw [if_pos within, dif_pos ⟨within, by omega⟩]
        simp only [List.head?_nil, Option.filter_none]
        cases (dispatch? converter.resolver stream index).filter (·.stop ≤ stop) with
        | none => exact ih _ (by omega) _ rfl
        | some site => exact congrArg (site :: ·) (ih _ (by omega) _ rfl)
      · rw [if_neg within, dif_neg fun both => within both.1]

/-- The converted span stands in the stream that the edits come to. -/
theorem exists_applyAll_convertSpan {resolver : Resolver} {stream : TokenStream} {start stop : Nat}
    (ordered : start ≤ stop) (inside : stop ≤ stream.length) :
    ∃ edited,
      Edit.applyAll (replacementEdits (convertSpan resolver stream start stop).sites) stream =
          .ok edited ∧
        textOf edited = stream.textOf ⟨0, start⟩ ++
          (convertSpan resolver stream start stop).text ++ stream.textOf ⟨stop, stream.length⟩ := by
  obtain ⟨result, rewrites, text⟩ :=
    @exists_rewrites_convertSpan resolver stream start stop ordered inside
  have size : (stream.take start).length = start := List.length_take_of_le (by omega)
  have whole : stream.take start ++ (stream.slice ⟨start, stop⟩ ++ stream.drop stop) = stream := by
    rw [← List.append_assoc, stream.take_append_slice ordered, List.take_append_drop]
  have place : 0 + (stream.take start).length = start := by rw [size, Nat.zero_add]
  have applied := (rewrites.extend (stream.drop stop)).prepend (stream.take start) place
  rw [whole] at applied
  refine ⟨_, applied.applyAll, ?_⟩
  rw [textOf_append, textOf_append, text, TokenStream.textOf, TokenStream.textOf,
    stream.slice_to_end, TokenStream.slice, List.drop_zero, List.append_assoc]

theorem Converter.sites_eq_convertSpan (converter : Converter) {stream : TokenStream}
    {declaration : ClassDeclaration} (found : stream.findClass? = some declaration)
    (noStatic : stream.HasNoStaticPart declaration) :
    converter.sites stream declaration =
      (convertSpan converter.resolver stream (declaration.bodyOpen + 1)
        declaration.bodyClose).sites := by
  rw [Converter.sites, TokenStream.staticRanges_eq_nil noStatic]
  exact converter.sitesFrom_eq_convertSpan
    (Nat.le_of_lt (TokenStream.bodyClose_lt_length found)) _

/-- The sites of a span are edits that never conflict, and they turn the stream into one that has
the converted text in the place of the span. In a class without static parts, the sites of a
conversion are those of the span between its braces. -/
theorem convertSpan_applyAll (converter : Converter) (stream : TokenStream) (start stop : Nat)
    (ordered : start ≤ stop) (inside : stop ≤ stream.length) :
    (∃ edited,
      Edit.applyAll (replacementEdits (convertSpan converter.resolver stream start stop).sites)
          stream = .ok edited ∧
        textOf edited = stream.textOf ⟨0, start⟩ ++
          (convertSpan converter.resolver stream start stop).text ++
            stream.textOf ⟨stop, stream.length⟩) ∧
      ∀ declaration, stream.findClass? = some declaration → stream.HasNoStaticPart declaration →
        converter.sites stream declaration =
            (convertSpan converter.resolver stream (declaration.bodyOpen + 1)
              declaration.bodyClose).sites ∧
          ∀ conversion, converter.process stream = .ok conversion →
            conversion.sites = (convertSpan converter.resolver stream (declaration.bodyOpen + 1)
              declaration.bodyClose).sites := by
  refine ⟨exists_applyAll_convertSpan ordered inside, fun declaration found noStatic => ?_⟩
  have sites := converter.sites_eq_convertSpan found noStatic
  exact ⟨sites, fun conversion processed =>
    (Converter.sites_of_process processed found).trans sites⟩

theorem TokenStream.hasNoStaticPart_of_noKeyword {stream : TokenStream}
    (declaration : ClassDeclaration)
    (noKeyword : ∀ token ∈ stream, token.isKeyword "static" = false) :
    stream.HasNoStaticPart declaration := by
  have nowhere (index : Nat) : stream.isKeyword "static" index = false := by
    rw [TokenStream.isKeyword, Option.any_eq_false]
    intro token found
    rw [noKeyword token (List.mem_of_getElem? found)]
  refine ⟨fun _ _ _ modifier _ => nowhere modifier, ?_⟩
  intro start _ _ _ _ isStatic
  rw [nowhere start] at isStatic
  contradiction

/-- A call in the arguments of another one, in a class without static parts. -/
def nestedCall : Text :=
  "<?php class A\x7bfunction f()\x7bMage::log(Mage::helper('tax'));\x7d\x7d"

def nestedCallConverted : Text :=
  "<?php class A\x7bfunction f()\x7b$this->logger->debug($this->taxHelper);\x7d\x7d"

theorem convertSpan_applyAll_nestedCall :
    ∃ (stream edited : TokenStream) (declaration : ClassDeclaration),
      tokenize nestedCall = .ok stream ∧ 5 ≤ 24 ∧ 24 ≤ stream.length ∧
        Edit.applyAll (replacementEdits (convertSpan conventions.resolver stream 5 24).sites)
          stream = .ok edited ∧ textOf edited = nestedCallConverted ∧
        stream.findClass? = some declaration ∧ stream.HasNoStaticPart declaration ∧
        conventions.sites stream declaration = (convertSpan conventions.resolver stream
          (declaration.bodyOpen + 1) declaration.bodyClose).sites := by
  have computed : (tokenize nestedCall).toOption.any (fun stream : TokenStream =>
      stream.findClass?.any fun _ =>
        24 ≤ stream.length && stream.all (fun token => !token.isKeyword "static") &&
          (stream.textOf ⟨0, 5⟩ ++ (convertSpan conventions.resolver stream 5 24).text ++
            stream.textOf ⟨24, stream.length⟩ == nestedCallConverted)) = true := by
    decide +kernel
  simp only [Option.any_eq_true, Bool.and_eq_true, decide_eq_true_eq, List.all_eq_true,
    Bool.not_eq_true', beq_iff_eq] at computed
  obtain ⟨stream, lexed, declaration, found, ⟨inside, noKeyword⟩, whole⟩ := computed
  obtain ⟨⟨edited, applied, text⟩, sites⟩ :=
    convertSpan_applyAll conventions stream 5 24 (by decide) inside
  have noStatic := TokenStream.hasNoStaticPart_of_noKeyword declaration noKeyword
  exact ⟨stream, edited, declaration, eq_ok_of_toOption lexed, by decide, inside, applied,
    text.trans whole, found, noStatic, (sites declaration found noStatic).1⟩

end ConstructorInjection
