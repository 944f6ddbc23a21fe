import Mathlib.Data.List.Basic
import Mathlib.Tactic.Common
import ConstructorInjection.Proofs.Dependencies
import ConstructorInjection.Proofs.Failures
import ConstructorInjection.Proofs.StaticCalls

/-!
Why a source is not converted. Besides the errors of the lexer and parameters whose names are taken,
it is a legacy call that does it, one whose alias makes a class that cannot be written down.
-/

namespace ConstructorInjection

namespace Converter

variable {converter : Converter} {stream : TokenStream} {source : Text}

/-- Beside the faults of the lexer: a parameter has the name for another type, or a converted call
asks for what is not valid, or for a class that is no name of the language. -/
inductive SourceFault (converter : Converter) (source : Text) : ConversionError → Prop where
  | lexical {fault : LexError} (refused : tokenize source = .error fault) :
      SourceFault converter source (.lexical fault)
  | collision (name existingType requestedType : Text) :
      SourceFault converter source
        (.injection (.variableCollision name existingType requestedType))
  | invalid {stream : TokenStream} {declaration : ClassDeclaration} {dependency : Dependency}
      (lexed : tokenize source = .ok stream) (found : stream.findClass? = some declaration)
      (requested : dependency ∈ converter.requested stream declaration)
      (invalid : dependency.isValid = false) :
      SourceFault converter source (.injection (.invalidDependency dependency))
  | unnamed {stream : TokenStream} {declaration : ClassDeclaration} {dependency : Dependency}
      (cause : LexError) (lexed : tokenize source = .ok stream)
      (found : stream.findClass? = some declaration)
      (requested : dependency ∈ converter.requested stream declaration)
      (unqualified : ¬ IsQualifiedName dependency.className) :
      SourceFault converter source (.injection (.synthesis cause))

/-- The replacements leave a layout of blanks, so only a class can keep new code from its tokens. -/
theorem Fault.sourceFault {error : ConversionError} (marker : IsLabel converter.options.marker)
    (spaces : Spaces converter.options.indent) (lexed : tokenize source = .ok stream)
    (fault : converter.Fault stream error) : converter.SourceFault source error := by
  cases fault with
  | @injection declaration _ found refused =>
      cases refused with
      | collision => exact .collision _ _ _
      | invalid member invalid => exact .invalid lexed found (mem_distinct_iff.mp member) invalid
      | synthesis cause unclean =>
          have wellSpaced :=
            @wellSpaced_replaced converter stream declaration (wellSpaced_of_tokenize lexed)
          have unnamed : ∃ dependency ∈ distinct (converter.requested stream declaration),
              ¬ IsQualifiedName dependency.className := by
            by_contra named
            refine unclean ⟨wellSpaced, spaces, marker, fun dependency member => ?_⟩
            by_contra unqualified
            exact named ⟨dependency, member, unqualified⟩
          obtain ⟨dependency, member, unqualified⟩ := unnamed
          exact .unnamed cause lexed found (mem_distinct_iff.mp member) unqualified

theorem convertSource_failsOnly (marker : IsLabel converter.options.marker)
    (spaces : Spaces converter.options.indent) :
    FailsOnly (converter.SourceFault source) (converter.convertSource source) := by
  refine .bind ?_ fun stream lexed => .bind ?_ fun conversion _ => .ok _
  · exact .mapError fun fault refused => .lexical refused
  · exact process_failsOnly.mono fun error fault =>
      fault.sourceFault marker spaces (eq_ok_of_mapError lexed)

/-- A dash is no part of a class name, and the resolver lets it through. -/
def hyphenatedAlias : Text :=
  "<?php class A\x7bfunction f()\x7breturn Mage::helper('foo-bar');\x7d\x7d"

theorem convertSource_hyphenatedAlias :
    conventions.convertSource hyphenatedAlias =
      .error (.injection
        (.invalidDependency ⟨"\\Magento\\Foo-bar\\Helper\\Data", "foobarHelper"⟩)) := by
  decide +kernel

theorem convertSource_failsOnly_hyphenatedAlias :
    ∃ error, conventions.convertSource hyphenatedAlias = .error error ∧
      conventions.SourceFault hyphenatedAlias error :=
  ⟨_, convertSource_hyphenatedAlias, convertSource_failsOnly isLabel_defaultMarker (.of_all rfl) _
    convertSource_hyphenatedAlias⟩

/-- No legacy call makes the conversion of a file fail, except for a parameter of another type. -/
def ToleratesCalls (converter : Converter) : Prop :=
  ∀ source error, converter.convertSource source = .error error →
    (∃ fault, tokenize source = .error fault ∧ error = .lexical fault) ∨
      ∃ name existingType requestedType,
        error = .injection (.variableCollision name existingType requestedType)

theorem not_toleratesCalls_hyphenatedAlias :
    ¬ ∀ naming, ToleratesCalls ⟨⟨MappingTables.empty, naming⟩, InjectionOptions.default⟩ := by
  intro tolerates
  rcases tolerates .moduleQualified hyphenatedAlias _ convertSource_hyphenatedAlias with
    ⟨_, _, same⟩ | ⟨_, _, _, same⟩
  · cases same
  · cases same

end Converter

end ConstructorInjection
