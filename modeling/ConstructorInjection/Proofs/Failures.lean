import Mathlib.Data.List.Basic
import Mathlib.Tactic.Common
import ConstructorInjection.Proofs.HarmlessTexts
import ConstructorInjection.Proofs.Preservation

/-!
How an injection and a conversion can fail. Their edits never get into each other's way, and new
code has no tokens only where a class is not named as the language asks for.
-/

namespace ConstructorInjection

/-- A computation that fails, if it does, in one of the ways that are allowed. -/
def FailsOnly {Fault Result : Type} (allowed : Fault → Prop) (computed : Except Fault Result) :
    Prop :=
  ∀ fault, computed = .error fault → allowed fault

namespace FailsOnly

variable {Fault Other First Second : Type} {allowed : Fault → Prop}

theorem ok (result : First) : FailsOnly allowed (.ok result) := by
  rintro fault ⟨⟩

theorem error {fault : Fault} (isAllowed : allowed fault) :
    FailsOnly allowed (.error fault : Except Fault First) := by
  rintro _ ⟨⟩
  exact isAllowed

theorem bind {computed : Except Fault First} {next : First → Except Fault Second}
    (first : FailsOnly allowed computed)
    (later : ∀ result, computed = .ok result → FailsOnly allowed (next result)) :
    FailsOnly allowed (computed >>= next) := by
  cases computed with
  | error fault => exact error (first fault rfl)
  | ok result => exact later result rfl

theorem foldlM {Item : Type} {items : List Item} {step : First → Item → Except Fault First}
    (each : ∀ state item, FailsOnly allowed (step state item)) (start : First) :
    FailsOnly allowed (items.foldlM step start) := by
  induction items generalizing start with
  | nil => exact ok start
  | cons item items ih =>
      rw [List.foldlM_cons]
      exact bind (each start item) fun next _ => ih next

theorem mono {weaker : Fault → Prop} {computed : Except Fault First}
    (fails : FailsOnly allowed computed) (implied : ∀ fault, allowed fault → weaker fault) :
    FailsOnly weaker computed :=
  fun fault failed => implied fault (fails fault failed)

theorem mapError {wrap : Fault → Other} {wrapped : Other → Prop} {computed : Except Fault First}
    (fails : FailsOnly (fun fault => wrapped (wrap fault)) computed) :
    FailsOnly wrapped (computed.mapError wrap) := by
  cases computed with
  | error fault => exact error (fails fault rfl)
  | ok result => exact ok result

end FailsOnly

/-- A layout of blanks and classes with names of the language, which new code is made of. -/
structure Clean (stream : TokenStream) (options : InjectionOptions) (request : List Dependency) :
    Prop where
  wellSpaced : WellSpaced stream
  indent : Spaces options.indent
  marker : IsLabel options.marker
  qualified : ∀ dependency ∈ request, IsQualifiedName dependency.className

/-- Why a request can be refused. -/
inductive InjectionFault (stream : TokenStream) (options : InjectionOptions)
    (request : List Dependency) : InjectionError → Prop where
  | collision (name existingType requestedType : Text) :
      InjectionFault stream options request (.variableCollision name existingType requestedType)
  | invalid {dependency : Dependency} (member : dependency ∈ request)
      (invalid : dependency.isValid = false) :
      InjectionFault stream options request (.invalidDependency dependency)
  | synthesis (cause : LexError) (unclean : ¬ Clean stream options request) :
      InjectionFault stream options request (.synthesis cause)

section Injections

variable {stream : TokenStream} {site : ConstructorSite} {options : InjectionOptions}
  {request dependencies new : List Dependency} {indent lineEnding : Text} {marker : Text}

theorem distinctFrom_failsOnly {seen rest : List Dependency}
    (requested : ∀ dependency ∈ rest, dependency ∈ request) :
    FailsOnly (InjectionFault stream options request) (distinctFrom seen rest) := by
  induction rest generalizing seen with
  | nil => exact .ok seen
  | cons next rest ih =>
      obtain ⟨isRequested, requested⟩ := List.forall_mem_cons.mp requested
      rw [distinctFrom]
      split
      next invalid => exact .error (.invalid isRequested (by simpa using invalid))
      next =>
        split
        next => exact ih requested
        next =>
          split
          next => exact ih requested
          next => exact .error (.collision _ _ _)

theorem planOne_failsOnly (plan : InjectionPlan) (dependency : Dependency) :
    FailsOnly (InjectionFault stream options request)
      (site.planOne stream options plan dependency) := by
  rw [ConstructorSite.planOne]
  split
  next existing _ =>
    simp only
    split
    next => exact .error (.collision _ _ _)
    next => split <;> exact .ok _
  next => exact .ok _

theorem plan_failsOnly :
    FailsOnly (InjectionFault stream options request)
      (site.plan stream options dependencies) :=
  .bind (.foldlM planOne_failsOnly _) fun _ _ => .ok _

/-- New code is refused only where it is not harmless. -/
theorem generate_failsOnly {Result : Type} {code : Text} (build : List Token → Result)
    (harmless : Clean stream options request → Harmless code) :
    FailsOnly (InjectionFault stream options request)
      (do return build (← generate code)) := by
  refine .bind ?_ fun tokens _ => .ok (build tokens)
  intro fault failed
  have unclean : ¬ Clean stream options request := by
    intro clean
    obtain ⟨tokens, generated⟩ := (harmless clean).exists_generate
    cases generated.symm.trans failed
  rw [generate] at failed
  cases synthesized : synthesize code with
  | error cause =>
      rw [synthesized] at failed
      cases failed
      exact .synthesis cause unclean
  | ok tokens =>
      rw [synthesized] at failed
      contradiction

theorem headEdit_failsOnly {declaration : ClassDeclaration} {blocks : List Text}
    (spacesEnding : Spaces lineEnding)
    (harmless : Clean stream options request → ∀ block ∈ blocks, Harmless block) :
    FailsOnly (InjectionFault stream options request)
      (headEdit stream declaration blocks lineEnding) :=
  generate_failsOnly _ fun clean => harmless_classHeadText spacesEnding (harmless clean)

theorem parameterEdit_failsOnly {constructor : Constructor}
    (spacesIndent : Clean stream options request → Spaces indent) (spacesEnding : Spaces lineEnding)
    (nameable : Clean stream options request → ∀ dependency ∈ new, dependency.Nameable) :
    FailsOnly (InjectionFault stream options request)
      (parameterEdit stream constructor new indent options lineEnding) := by
  have texts (clean : Clean stream options request) :
      ∀ text ∈ new.map Dependency.parameterText, Harmless text :=
    List.forall_mem_map.mpr fun dependency member =>
      (nameable clean dependency member).parameterText
  have lines (clean : Clean stream options request) :
      Harmless (((withCommas (new.map Dependency.parameterText)).flatMap fun text =>
        lineEnding ++ indent ++ options.indent ++ text) ++ lineEnding ++ indent) := by
    have start := (spacesEnding.append (spacesIndent clean)).append clean.indent
    refine ((Harmless.flatMap fun text member => ?_).append spacesEnding.harmless).append
      (spacesIndent clean).harmless
    exact start.harmless.append (Harmless.withCommas (texts clean) text member)
  have joined (clean : Clean stream options request) {separator : Text}
      (between : Harmless separator) :
      Harmless (Text.joinWith separator (new.map Dependency.parameterText)) :=
    between.joinWith (texts clean)
  have between (clean : Clean stream options request) (several : Bool)
      (parameters : List Parameter) :
      Harmless (if several then "," ++ lineEnding ++
          (parameters.findSome? fun parameter => stream.indentBefore? parameter.range.start).getD
            (indent ++ options.indent)
        else ", ") := by
    have found := (clean.wellSpaced.foundIndentOr parameters
      ((spacesIndent clean).append clean.indent)).harmless
    split
    next => exact (Harmless.append (.word rfl) spacesEnding.harmless).append found
    next => exact .word rfl
  unfold parameterEdit
  split
  next => exact .ok _
  next =>
    simp only
    split
    next => exact .ok _
    next => exact generate_failsOnly _ lines
    next =>
      split
      next =>
        exact generate_failsOnly _ fun clean =>
          (between clean _ _).append (joined clean (between clean _ _))
      next =>
        exact generate_failsOnly _ fun clean =>
          (joined clean (between clean _ _)).append (between clean _ _)
      next =>
        exact generate_failsOnly _ fun clean =>
          (joined clean (between clean _ _)).append (between clean _ _)

theorem assignmentEdit_failsOnly {constructor : Constructor}
    (spacesIndent : Clean stream options request → Spaces indent) (spacesEnding : Spaces lineEnding)
    (nameable : Clean stream options request → ∀ dependency ∈ new, dependency.Nameable) :
    FailsOnly (InjectionFault stream options request)
      (assignmentEdit stream constructor new indent options lineEnding) := by
  have statements (clean : Clean stream options request) {separator : Text}
      (between : Spaces separator) :
      Harmless (new.flatMap fun dependency => separator ++ dependency.assignmentText) :=
    .flatMap fun dependency member =>
      between.harmless.append (nameable clean dependency member).assignmentText
  have lineStart (clean : Clean stream options request) :
      Spaces (lineEnding ++ (indent ++ options.indent)) :=
    spacesEnding.append ((spacesIndent clean).append clean.indent)
  unfold assignmentEdit
  split
  next opening closing _ _ =>
    simp only
    split
    next =>
      split
      next => exact generate_failsOnly _ fun clean => statements clean (lineStart clean)
      next =>
        exact generate_failsOnly _ fun clean =>
          ((statements clean (lineStart clean)).append spacesEnding.harmless).append
            (spacesIndent clean).harmless
    next last _ =>
      refine generate_failsOnly _ fun clean => statements clean ?_
      split
      next =>
        exact spacesEnding.append
          (clean.wellSpaced.indentOr _ ((spacesIndent clean).append clean.indent))
      next =>
        cases found : stream.inlineSeparator? opening last with
        | none => exact spaces_blank
        | some blank => exact clean.wellSpaced.inlineSeparator? found
  next => exact .ok _

theorem planEdits_failsOnly {plan : InjectionPlan}
    (nameable : Clean stream options request →
      (∀ dependency ∈ plan.parameters, dependency.Nameable) ∧
        (∀ dependency ∈ plan.assignments, dependency.Nameable) ∧
        ∀ dependency ∈ plan.properties, dependency.Nameable) :
    FailsOnly (InjectionFault stream options request) (planEdits stream site plan options) := by
  have spacesEnding := spaces_lineEnding stream
  have blocks {indent : Text} (spacesIndent : Clean stream options request → Spaces indent)
      (clean : Clean stream options request) :
      ∀ block ∈ plan.properties.map (·.propertyText indent stream.lineEnding), Harmless block :=
    List.forall_mem_map.mpr fun dependency member =>
      ((nameable clean).2.2 dependency member).propertyText (spacesIndent clean) spacesEnding
        (lineEnding_ne_nil stream)
  unfold planEdits
  simp only
  split
  next existing _ =>
    have spacesIndent (clean : Clean stream options request) :
        Spaces ((stream.indentBefore? existing.start).getD options.indent) :=
      clean.wellSpaced.indentOr _ clean.indent
    have behindHead (head : List Edit) :
        FailsOnly (InjectionFault stream options request) (do
          let parameters ← parameterEdit stream existing plan.parameters
            ((stream.indentBefore? existing.start).getD options.indent) options stream.lineEnding
          let assignments ← assignmentEdit stream existing plan.assignments
            ((stream.indentBefore? existing.start).getD options.indent) options stream.lineEnding
          return head ++ parameters ++ assignments) :=
      .bind (parameterEdit_failsOnly spacesIndent spacesEnding fun clean => (nameable clean).1)
        fun parameters _ => .bind
          (assignmentEdit_failsOnly spacesIndent spacesEnding fun clean => (nameable clean).2.1)
          fun assignments _ => .ok _
    split
    next => exact .bind (.ok []) fun head _ => behindHead head
    next =>
      refine .bind (headEdit_failsOnly spacesEnding (blocks spacesIndent)) fun edit _ => ?_
      exact .bind (.ok [edit]) fun head _ => behindHead head
  next =>
    refine .bind (headEdit_failsOnly spacesEnding fun clean => ?_) fun edit _ => .ok [edit]
    refine List.forall_mem_append.mpr ⟨blocks Clean.indent clean, ?_⟩
    exact List.forall_mem_singleton.mpr (harmless_constructorText (nameable clean).1
      (nameable clean).2.1 clean.marker clean.indent spacesEnding)

/-- What is valid can be named where classes are. -/
theorem distinctDependencies_nameable
    (distinct : distinctDependencies request = .ok dependencies)
    (clean : Clean stream options request) : ∀ dependency ∈ dependencies, dependency.Nameable := by
  intro dependency member
  obtain ⟨requested, valid⟩ := requested_of_distinctDependencies distinct dependency member
  rw [Dependency.isValid, Bool.and_eq_true] at valid
  exact ⟨Dependency.isLabel_of_hasValidVariable valid.1, clean.qualified dependency requested⟩

/-- An injection into a class where it was located is refused for what it would add, and never for
the edits that would add it. -/
theorem inject_failsOnly (located : stream.locate? marker = some site) :
    FailsOnly (InjectionFault stream options request) (inject stream site request options) := by
  refine .bind (distinctFrom_failsOnly fun _ member => member) fun dependencies distinct =>
    .bind plan_failsOnly fun plan planned => ?_
  split
  next => exact .ok _
  next =>
    refine .bind (planEdits_failsOnly fun clean => ConstructorSite.forall_mem_planned planned
      (distinctDependencies_nameable distinct clean)) fun edits edited => .bind ?_ fun _ _ => .ok _
    rw [Edit.applyAll_eq_ok (planEdits_trims located edited).inOrder]
    exact .ok _

end Injections

namespace Converter

variable {converter : Converter} {stream : TokenStream}

/-- The stream with the replacements in place, before their dependencies are injected. -/
def withReplacements (converter : Converter) (stream : TokenStream)
    (declaration : ClassDeclaration) : TokenStream :=
  Edit.rebuilt stream 0 (replacementEdits (converter.sites stream declaration))

def requested (converter : Converter) (stream : TokenStream) (declaration : ClassDeclaration) :
    List Dependency :=
  CallSite.dependenciesOfAll (converter.sites stream declaration)

/-- A conversion fails where the injection into the class is refused. -/
inductive Fault (converter : Converter) (stream : TokenStream) : ConversionError → Prop where
  | injection {declaration : ClassDeclaration} {fault : InjectionError}
      (found : stream.findClass? = some declaration)
      (refused : InjectionFault (converter.withReplacements stream declaration) converter.options
        (distinct (converter.requested stream declaration)) fault) :
      Fault converter stream (.injection fault)

theorem process_failsOnly : FailsOnly (converter.Fault stream) (converter.process stream) := by
  rw [process]
  split
  next => exact .ok _
  next declaration found =>
    have inOrder := @inOrder_replacementEdits converter stream declaration
    have refused {fault : InjectionError} :=
      @Fault.injection converter stream declaration fault found
    rw [withReplacements, requested] at refused
    split
    next => exact .ok _
    next first others someSites =>
      rw [someSites] at inOrder refused
      simp only
      rw [← replacementEdits, Edit.applyAll_eq_ok inOrder]
      refine .bind (.ok _) fun edited applied => .bind (.mapError ?_) fun injected _ => .ok _
      cases applied
      unfold injectInto
      split
      next => exact .ok _
      next site located => exact (inject_failsOnly located).mono fun fault => refused

end Converter

/-- The edits of a batch stand one behind the other whatever the delimiters of the stream are, and
so no batch is refused. -/
theorem edits_never_conflict (stream : TokenStream) :
    (∀ marker site request options, stream.locate? marker = some site →
      (∀ edits, injectionEdits stream site request options = .ok edits →
        Edit.InOrder edits stream) ∧
        ∀ cause, inject stream site request options ≠ .error (.conflict cause)) ∧
      ∀ converter : Converter,
        (∀ declaration,
          Edit.InOrder (Converter.replacementEdits (converter.sites stream declaration)) stream) ∧
          ∀ cause, converter.process stream ≠ .error (.overlap cause) ∧
            converter.process stream ≠ .error (.injection (.conflict cause)) := by
  constructor
  · intro marker site request options located
    refine ⟨fun edits edited => (injectionEdits_trims located edited).inOrder, ?_⟩
    intro cause failed
    cases inject_failsOnly located _ failed
  · intro converter
    refine ⟨fun declaration => Converter.inOrder_replacementEdits, fun cause => ⟨?_, ?_⟩⟩
    · intro failed
      cases Converter.process_failsOnly _ failed
    · intro failed
      cases Converter.process_failsOnly _ failed with
      | injection _ refused => cases refused

section Mismatched

/-- A parameter list with a bracket behind it. -/
def mismatched : Text :=
  "<?php class A\x7bfunction __construct($a]\x7b$x=1;\x7d\x7d"

def mismatchedTokens : TokenStream :=
  [⟨.openTag, "<?php ", 1⟩, ⟨.keyword, "class", 1⟩, ⟨.whitespace, " ", 1⟩, ⟨.identifier, "A", 1⟩,
   ⟨.openBrace, "\x7b", 1⟩, ⟨.keyword, "function", 1⟩, ⟨.whitespace, " ", 1⟩,
   ⟨.identifier, "__construct", 1⟩, ⟨.openParen, "(", 1⟩, ⟨.variableName, "$a", 1⟩,
   ⟨.closeBracket, "]", 1⟩, ⟨.openBrace, "\x7b", 1⟩, ⟨.variableName, "$x", 1⟩, ⟨.assign, "=", 1⟩,
   ⟨.number, "1", 1⟩, ⟨.semicolon, ";", 1⟩, ⟨.closeBrace, "\x7d", 1⟩, ⟨.closeBrace, "\x7d", 1⟩]

def mismatchedSite : ConstructorSite :=
  ⟨⟨1, some "A", none, 4, 17⟩,
    some ⟨5, some ⟨8, 10⟩, [⟨none, "a", false, false, false, ⟨9, 10⟩⟩], some 11, some 16⟩, 0⟩

theorem locate?_mismatched : mismatchedTokens.locate? defaultMarker = some mismatchedSite := by
  decide +kernel

theorem exists_injectionEdits_mismatched :
    ∃ edits, injectionEdits mismatchedTokens mismatchedSite [logger] .default = .ok edits ∧
      edits.length = 3 := by
  have edited : (injectionEdits mismatchedTokens mismatchedSite [logger] .default).toOption.any
      (fun edits => edits.length == 3) = true := by
    decide +kernel
  obtain ⟨edits, result, three⟩ := (Option.any_eq_true _ _).mp edited
  exact ⟨edits, eq_ok_of_toOption result, beq_iff_eq.mp three⟩

theorem edits_never_conflict_mismatched :
    lexFile mismatched = .ok mismatchedTokens ∧ nestingError? [] 0 mismatchedTokens ≠ none ∧
      mismatchedTokens.locate? defaultMarker = some mismatchedSite ∧
      (∃ edits, injectionEdits mismatchedTokens mismatchedSite [logger] .default = .ok edits ∧
        edits.length = 3 ∧ Edit.InOrder edits mismatchedTokens) ∧
      ∀ cause,
        inject mismatchedTokens mismatchedSite [logger] .default ≠ .error (.conflict cause) := by
  obtain ⟨inOrder, noConflict⟩ :=
    (edits_never_conflict mismatchedTokens).1 defaultMarker mismatchedSite [logger] .default
      locate?_mismatched
  obtain ⟨edits, edited, three⟩ := exists_injectionEdits_mismatched
  exact ⟨eq_ok_of_toOption (by decide +kernel), by decide +kernel, locate?_mismatched,
    ⟨edits, edited, three, inOrder edits edited⟩, noConflict⟩

end Mismatched

end ConstructorInjection
