import Mathlib.Data.List.Basic
import Mathlib.Tactic.Common
import ConstructorInjection.Proofs.LegibleInjections

/-!
A converted file is written as text and read again by the lexer, which then has to find the tokens
that the conversion put there.
-/

namespace ConstructorInjection

namespace Converter

section Reading

variable {converter : Converter} {source : Text} {stream : TokenStream} {conversion : Conversion}

theorem stream_of_no_sites (processed : converter.process stream = .ok conversion)
    (noSites : conversion.sites = []) : conversion.stream = stream := by
  rw [process] at processed
  split at processed
  next =>
    cases processed
    rfl
  next =>
    split at processed
    next =>
      cases processed
      rfl
    next =>
      obtain ⟨edited, _, processed⟩ := exists_of_bind_eq_ok processed
      obtain ⟨injected, _, processed⟩ := exists_of_bind_eq_ok processed
      cases processed
      contradiction

/-- A converted file is read back as it was converted, if each replacement fits into its place, every
attribute is closed by the text behind it and no tag stands in the constructor. -/
theorem process_readsBack (lexed : tokenize source = .ok stream)
    (processed : converter.process stream = .ok conversion)
    (marker : converter.options.marker = defaultMarker) (indent : Spaces converter.options.indent)
    (fits : ∀ site ∈ conversion.sites, site.Fits stream)
    (closed : AttributesClose conversion.stream)
    (untagged : ∀ site, (replaced stream conversion).locate? converter.options.marker = some site →
      site.Untagged (replaced stream conversion)) : conversion.stream.ReadsBack := by
  by_cases someSite : conversion.sites = []
  · rw [stream_of_no_sites processed someSite]
    have whole := (Lexes.of_lexFrom (tokenize_eq_ok_iff.mp lexed).1).textOf_eq
    exact ⟨stream, by rwa [whole], rfl⟩
  have legible := legible_replaced lexed processed fits
  have nested := nested_replaced lexed processed fits
  rcases (process_eq_ok processed).2 with ⟨_, same⟩ | ⟨site, located, injects⟩
  · rw [same] at closed ⊢
    exact TokenStream.readsBack_of_legible legible (.refl _) closed nested
  · obtain ⟨_, _, edits, _, _, edited, isInjected⟩ := (inject_eq_ok_iff located).mp injects
    have same : conversion.stream = Edit.rebuilt (replaced stream conversion) 0 edits :=
      congrArg Injected.stream isInjected
    have trims := injectionEdits_trims located edited
    have seated : Edit.Seated (replaced stream conversion) 0 edits := by
      rcases injectionEdits_eq_ok edited with
        rfl | ⟨dependencies, plan, distinctResult, planned, result⟩
      · exact .nil
      · obtain ⟨writable, someDependency⟩ :=
          distinctDependencies_writable distinctResult (isQualified_of_process processed)
        obtain ⟨writableParameters, writableAssignments, writableProperties⟩ :=
          ConstructorSite.forall_mem_planned planned writable
        have someRequest : distinct (CallSite.dependenciesOfAll conversion.sites) ≠ [] := by
          obtain ⟨call, _, isFirst⟩ := List.exists_cons_of_ne_nil someSite
          have inAll := (CallSite.mem_dependenciesOfAll_iff conversion.sites).mpr
            ⟨call, by simp [isFirst], call, .itself _, rfl⟩
          exact List.ne_nil_of_mem (mem_distinct_iff.mpr inAll)
        exact planEdits_seated legible nested located (untagged site located)
          (wellSpaced_of_process lexed processed) indent marker
          (parameters_ne_nil_of_absent planned (someDependency someRequest))
          writableProperties writableParameters writableAssignments result
    obtain ⟨read, respaced, again, _⟩ := Edit.exists_read_rebuilt seated trims.inOrder legible
    have nestedAgain : Nested (Edit.rebuilt (replaced stream conversion) 0 edits) := by
      refine @Edit.nested_rebuilt _ _ _ [] trims.inOrder (fun _ _ => Nat.zero_le _)
        (fun edit member => ?_) seated.forall_nested nested
      refine (Blank.of_whitespace fun token removed => ?_).level
      obtain ⟨index, lower, upper, found⟩ := TokenStream.mem_slice_iff.mp removed
      exact (trims.removed edit member index token lower upper found).1
    rw [same] at closed ⊢
    exact TokenStream.readsBack_of_legible again respaced closed nestedAgain

end Reading

/-- A call with the next one of its chain behind it. -/
def callInChain : Text :=
  "<?php class A\x7bfunction f()\x7bMage::helper('tax')->g();\x7d\x7d"

theorem process_readsBack_callInChain :
    ∃ stream conversion, tokenize callInChain = .ok stream ∧
      conventions.process stream = .ok conversion ∧ conversion.added ≠ [] ∧
      conventions.options.marker = defaultMarker ∧ Spaces conventions.options.indent ∧
      (∀ site ∈ conversion.sites, site.Fits stream) ∧ AttributesClose conversion.stream ∧
      (∀ site, (replaced stream conversion).locate? conventions.options.marker = some site →
        site.Untagged (replaced stream conversion)) ∧ conversion.stream.ReadsBack := by
  have computed : (tokenize callInChain).toOption.any (fun stream =>
      (conventions.process stream).toOption.any fun conversion =>
        !conversion.added.isEmpty && conversion.sites.all (fun site => decide (site.Fits stream)) &&
          decide (AttributesClose conversion.stream) &&
          (replaced stream conversion).all fun token => token.text.take 2 != ['?', '>']) = true := by
    decide +kernel
  simp only [Option.any_eq_true, Bool.and_eq_true, bne_iff_ne, List.all_eq_true,
    decide_eq_true_eq, Bool.not_eq_true', List.isEmpty_eq_false_iff] at computed
  obtain ⟨stream, lexed, conversion, processed, ⟨⟨added, fits⟩, closed⟩, noTag⟩ := computed
  have lexed := eq_ok_of_toOption lexed
  have processed := eq_ok_of_toOption processed
  have spaces : Spaces conventions.options.indent := .of_all rfl
  have untagged (site : ConstructorSite)
      (_ : (replaced stream conversion).locate? conventions.options.marker = some site) :
      site.Untagged (replaced stream conversion) := fun _ _ _ token _ found =>
    noTag token (List.mem_of_getElem? found)
  exact ⟨stream, conversion, lexed, processed, added, rfl, spaces, fits, closed, untagged,
    process_readsBack lexed processed rfl spaces fits closed untagged⟩

section CallBeforeKeyword

/-- A call with a keyword directly behind it. -/
def callBeforeKeyword : Text :=
  "<?php class A\x7bfunction f()\x7bif(Mage::helper('tax')and $x)\x7b\x7d\x7d\x7d"

theorem process_callBeforeKeyword :
    ∃ stream conversion again, tokenize callBeforeKeyword = .ok stream ∧
      conventions.process stream = .ok conversion ∧ tokenize (textOf conversion.stream) = .ok again ∧
      significant again ≠ significant conversion.stream := by
  have computed : (tokenize callBeforeKeyword).toOption.any (fun stream =>
      (conventions.process stream).toOption.any fun conversion =>
        (tokenize (textOf conversion.stream)).toOption.any fun again =>
          significant again != significant conversion.stream) = true := by
    decide +kernel
  simp only [Option.any_eq_true, bne_iff_ne] at computed
  obtain ⟨stream, lexed, conversion, processed, again, lexedAgain, different⟩ := computed
  exact ⟨stream, conversion, again, eq_ok_of_toOption lexed, eq_ok_of_toOption processed,
    eq_ok_of_toOption lexedAgain, different⟩

/-- The name that takes the place of a call is read as one with the word behind it. -/
theorem not_readsBack_callBeforeKeyword :
    ¬ ∀ (converter : Converter) (source : Text) (stream : TokenStream) (conversion : Conversion),
      tokenize source = .ok stream → converter.process stream = .ok conversion →
        conversion.stream.ReadsBack := by
  intro readsBack
  obtain ⟨stream, conversion, again, lexed, processed, lexedAgain, different⟩ :=
    process_callBeforeKeyword
  obtain ⟨other, lexedOther, same⟩ := readsBack _ _ _ _ lexed processed
  have isOther : again = other := Except.ok.inj (lexedAgain.symm.trans lexedOther)
  subst isOther
  exact different same

end CallBeforeKeyword

end Converter

end ConstructorInjection
