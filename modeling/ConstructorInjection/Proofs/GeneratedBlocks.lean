import Mathlib.Data.List.Basic
import Mathlib.Tactic.Common
import ConstructorInjection.Proofs.GeneratedLists

/-!
The tokens of the blocks that go to the head of a class body: properties, and a constructor where
there is none.
-/

namespace ConstructorInjection

theorem classHeadText_eq (stream : TokenStream) (declaration : ClassDeclaration)
    (blocks : List Text) (last lineEnding : Text) :
    ∃ ending, (ending = lineEnding ∨ ending = []) ∧
      classHeadText stream declaration (blocks ++ [last]) lineEnding =
        (blocks.flatMap fun block => lineEnding ++ block ++ lineEnding) ++
          (lineEnding ++ (last ++ ending)) := by
  have whole : ((blocks ++ [last]).flatMap fun block => lineEnding ++ block ++ lineEnding) =
      (blocks.flatMap fun block => lineEnding ++ block ++ lineEnding) ++
        (lineEnding ++ last) ++ lineEnding := by
    simp
  rw [classHeadText, whole]
  split
  · refine ⟨[], .inr rfl, ?_⟩
    rw [List.length_append, Nat.add_sub_cancel, List.take_left, List.append_nil]
  · exact ⟨lineEnding, .inl rfl, by simp⟩

theorem plainSemicolon : PlainCode [⟨.semicolon, [';'], 0⟩] :=
  PlainCode.singleton (by decide)

namespace Scans

theorem properties {rest indent lineEnding blanks : Text} {dependencies : List Dependency}
    {tokens : List Token} (writable : ∀ dependency ∈ dependencies, dependency.Writable)
    (spacesIndent : Spaces indent) (spacesEnding : Spaces lineEnding) (spacesBefore : Spaces blanks)
    (scans : Scans false (blanks ++ ((dependencies.flatMap fun dependency =>
      lineEnding ++ dependency.propertyText indent lineEnding ++ lineEnding) ++ rest)) tokens) :
    ∃ new later more, tokens = new ++ later ∧ PlainCode new ∧
      (∀ dependency ∈ dependencies, dependency.variableToken ∈ new) ∧ Spaces more ∧
      Scans false (more ++ rest) later := by
  induction dependencies generalizing blanks tokens with
  | nil => exact ⟨[], tokens, blanks, rfl, by simp [PlainCode], by simp, spacesBefore, scans⟩
  | cons first others ih =>
      have shape : blanks ++ (((first :: others).flatMap fun dependency =>
            lineEnding ++ dependency.propertyText indent lineEnding ++ lineEnding) ++ rest) =
          (blanks ++ lineEnding) ++ (first.propertyText indent lineEnding ++ (lineEnding ++
            ((others.flatMap fun dependency =>
              lineEnding ++ dependency.propertyText indent lineEnding ++ lineEnding) ++ rest))) := by
        simp
      rw [shape] at scans
      obtain ⟨new, _, rfl, plain, declares, behindFirst⟩ := scans.property (writable first (by simp))
        spacesIndent spacesEnding (spacesBefore.append spacesEnding)
      obtain ⟨more, later, blanks, rfl, plainMore, declaresOthers, spacesBlanks, behind⟩ :=
        ih (fun other member => writable other (List.mem_cons_of_mem _ member)) spacesEnding
          behindFirst
      have plainNew := (plain.append plainSemicolon).append plainMore
      refine ⟨new ++ [⟨.semicolon, [';'], 0⟩] ++ more, later, blanks, by simp, plainNew,
        List.forall_mem_cons.mpr ⟨by simp [declares], fun other member => ?_⟩, spacesBlanks, behind⟩
      exact List.mem_append_right _ (declaresOthers other member)

/-- Blanks at the end of code. -/
theorem ending {text : Text} {memberName : Bool} {tokens : List Token} (spaces : Spaces text)
    (scans : Scans memberName text tokens) : ∀ token ∈ tokens, token.kind = .whitespace := by
  cases text with
  | nil => simp [scans.eq_nil]
  | cons first text =>
      rw [← List.append_nil (first :: text)] at scans
      obtain ⟨_, rfl, behind⟩ :=
        scans.piece (leads_blanks (List.cons_ne_nil _ _) spaces rfl) TokenKind.noConfusion
      simp [behind.eq_nil]

end Scans

/-- The code for properties ends in a semicolon, with blanks behind it. -/
theorem properties_of_generate {stream : TokenStream} {declaration : ClassDeclaration}
    {indent lineEnding : Text} {dependencies : List Dependency} {tokens : List Token}
    (writable : ∀ dependency ∈ dependencies, dependency.Writable) (nonempty : dependencies ≠ [])
    (spacesIndent : Spaces indent) (spacesEnding : Spaces lineEnding)
    (generated : generate (classHeadText stream declaration
      (dependencies.map (·.propertyText indent lineEnding)) lineEnding) = .ok tokens) :
    ∃ front blanks, tokens = front ++ ⟨.semicolon, [';'], 0⟩ :: blanks ∧ PlainCode front ∧
      (∀ dependency ∈ dependencies, dependency.variableToken ∈ front) ∧
      ∀ blank ∈ blanks, blank.kind = .whitespace := by
  have scans := scans_of_generate generated
  obtain ⟨front, last, rfl⟩ : ∃ front last, dependencies = front ++ [last] :=
    ⟨_, _, (List.dropLast_append_getLast nonempty).symm⟩
  obtain ⟨ending, isEnding, text⟩ := classHeadText_eq stream declaration
    (front.map (·.propertyText indent lineEnding)) (last.propertyText indent lineEnding) lineEnding
  have spacesLast : Spaces ending := by
    rcases isEnding with rfl | rfl
    · exact spacesEnding
    · simp [Spaces]
  rw [List.map_append, List.map_singleton, text, List.flatMap_map,
    ← List.nil_append (_ ++ _)] at scans
  obtain ⟨new, _, more, rfl, plain, declares, spacesMore, behindFront⟩ :=
    scans.properties (fun dependency member => writable dependency (by simp [member]))
      spacesIndent spacesEnding (by simp [Spaces])
  rw [← List.append_assoc] at behindFront
  obtain ⟨final, _, rfl, plainFinal, declaresLast, behind⟩ :=
    behindFront.property (writable last (by simp)) spacesIndent spacesEnding
      (spacesMore.append spacesEnding)
  refine ⟨new ++ final, _, by rw [List.append_assoc], plain.append plainFinal, ?_,
    behind.ending spacesLast⟩
  intro dependency member
  rcases List.mem_append.mp member with inFront | isLast
  · exact List.mem_append_left _ (declares dependency inFront)
  · rw [List.mem_singleton.mp isLast]
    exact List.mem_append_right _ declaresLast

/-- The parts of a new constructor and of what stands in front of it at the head of a class body. -/
inductive ConstructorTokens (properties parameters assignments : List Dependency) :
    List Token → Prop where
  | mk {front head list between body behind : List Token} (plain : PlainCode front)
      (declares : ∀ dependency ∈ properties, dependency.variableToken ∈ front)
      (method : MethodHead defaultMarker head) (series : ParameterSeries parameters list)
      (blank : Blank between) (nested : Nested body)
      (assigns : ∀ dependency ∈ assignments, Assigns dependency.variableName body)
      (white : ∀ blank ∈ behind, blank.kind = .whitespace) :
      ConstructorTokens properties parameters assignments (front ++ (head ++ ⟨.openParen, ['('], 0⟩ ::
        (list ++ ⟨.closeParen, [')'], 0⟩ :: (between ++ ⟨.openBrace, ['\x7b'], 0⟩ ::
          (body ++ ⟨.closeBrace, ['\x7d'], 0⟩ :: behind)))))

theorem ConstructorTokens.prepend {properties parameters assignments : List Dependency}
    {front tokens : List Token} (parts : ConstructorTokens [] parameters assignments tokens)
    (plain : PlainCode front)
    (declares : ∀ dependency ∈ properties, dependency.variableToken ∈ front) :
    ConstructorTokens properties parameters assignments (front ++ tokens) := by
  cases parts with
  | mk plainFront _ method series blank nested assigns white =>
      rw [← List.append_assoc]
      exact .mk (plain.append plainFront)
        (fun dependency member => List.mem_append_left _ (declares dependency member)) method series
        blank nested assigns white

theorem constructorText_eq {plan : InjectionPlan} {options : InjectionOptions} {first : Dependency}
    {others : List Dependency} (parameters : plan.parameters = first :: others)
    (marker : options.marker = defaultMarker) (lineEnding : Text) :
    let separator := lineEnding ++ (options.indent ++ options.indent)
    let parentCall : Text :=
      if plan.parentCall then separator ++ (("parent" : Text) ++ ([':', ':'] ++
        (defaultMarker ++ ['(', ')', ';']))) else []
    constructorText plan options lineEnding =
      options.indent ++ (("public" : Text) ++ ([' '] ++ (("function" : Text) ++ ([' '] ++
        (defaultMarker ++ ('(' :: (separator ++ (parametersText separator first others ++
          ((lineEnding ++ options.indent) ++ (')' :: ([' '] ++ ('\x7b' :: (parentCall ++
            ((plan.assignments.flatMap fun dependency => separator ++ dependency.assignmentText) ++
              ((lineEnding ++ options.indent) ++ ['\x7d']))))))))))))))) := by
  have opening : ("public function " : Text) =
      ("public" : Text) ++ ([' '] ++ (("function" : Text) ++ [' '])) := by rfl
  have parent : ("parent::" : Text) = ("parent" : Text) ++ [':', ':'] := by rfl
  have parenthesis : ("(" : Text) = ['('] := by rfl
  have call : ("();" : Text) = ['(', ')', ';'] := by rfl
  have list := flatMap_withCommas (lineEnding ++ (options.indent ++ options.indent)) first others
  unfold constructorText
  rw [parameters, marker, opening, parent, parenthesis, call]
  simp only [List.append_assoc, List.cons_append, List.nil_append] at list ⊢
  rw [joinWith_cons]
  simp only [List.flatMap_append, List.flatMap_map, List.flatMap_cons, List.flatMap_nil]
  rw [list]
  split
  · simp only [List.flatMap_cons, List.flatMap_nil, List.append_assoc, List.cons_append,
      List.nil_append, List.append_nil]
  · simp only [List.flatMap_nil, List.append_assoc, List.cons_append, List.nil_append,
      List.append_nil]

theorem Spaces.stop {blanks rest : Text} (spaces : Spaces blanks)
    (stop : rest.head?.any isLabelPart = false) :
    (blanks ++ rest).head?.any isLabelPart = false := by
  cases blanks with
  | nil => exact stop
  | cons first blanks =>
      have isSpace := spaces first (by simp)
      rw [List.cons_append, List.head?_cons, Option.any_some]
      simp only [isLineSpace, isBlank, Bool.or_eq_true, beq_iff_eq] at isSpace
      rcases isSpace with ((rfl | rfl) | rfl) | rfl <;> decide

theorem isLabel_defaultMarker : IsLabel defaultMarker :=
  .of_all rfl rfl

namespace Scans

variable {rest : Text} {tokens : List Token}

/-- From the modifier of a new constructor through its name. -/
theorem constructorHead (stop : rest.head?.any isClassCharacter = false)
    (scans : Scans false (("public" : Text) ++ ([' '] ++ (("function" : Text) ++ ([' '] ++
      (defaultMarker ++ rest))))) tokens) :
    ∃ front head later, tokens = front ++ (head ++ later) ∧ PlainCode front ∧
      MethodHead defaultMarker head ∧ Scans false rest later := by
  have isPublic : IsLabel ("public" : Text) := .of_all rfl rfl
  have isFunction : IsLabel ("function" : Text) := .of_all rfl rfl
  obtain ⟨_, rfl, behindPublic⟩ := scans.word isPublic rfl
  obtain ⟨blanks, _, rfl, blank, behindBlank⟩ := behindPublic.spaces [' '] spaces_blank rfl
  obtain ⟨_, rfl, behindFunction⟩ := behindBlank.word isFunction rfl
  obtain ⟨more, _, rfl, blankMore, behindMore⟩ := behindFunction.spaces [' '] spaces_blank rfl
  obtain ⟨later, rfl, behindName⟩ := behindMore.word isLabel_defaultMarker stop
  have publicKind : nameKind false ("public" : Text) = .keyword := by decide
  have afterPublic : memberNameAfter false .keyword ("public" : Text) = false := by decide
  have functionKind : nameKind false ("function" : Text) = .keyword := by decide
  have afterFunction : memberNameAfter false .keyword ("function" : Text) = true := by decide
  have afterName : memberNameAfter true .identifier defaultMarker = false := by decide
  have nameKindEq : nameKind true defaultMarker = .identifier := nameKind_member isLabel_defaultMarker
  simp only [publicKind, afterPublic, functionKind, afterFunction, nameKindEq, afterName] at behindName ⊢
  refine ⟨⟨.keyword, ("public" : Text), 0⟩ :: blanks,
    ⟨.keyword, ("function" : Text), 0⟩ :: (more ++ [⟨.identifier, defaultMarker, 0⟩]), later,
    by simp, ?_, .direct (by decide) blankMore rfl (by decide), behindName⟩
  intro token member
  rcases List.mem_cons.mp member with rfl | inBlanks
  · decide
  · exact blank.plainCode token inBlanks

/-- The call of the parent's constructor, if there is one. -/
theorem parentCall {separator : Text} {parent : Bool} (spacesSeparator : Spaces separator)
    (scans : Scans false ((if parent then separator ++ (("parent" : Text) ++ ([':', ':'] ++
      (defaultMarker ++ ['(', ')', ';']))) else []) ++ rest) tokens) :
    ∃ call later, tokens = call ++ later ∧ Nested call ∧ Scans false rest later := by
  cases parent with
  | false => exact ⟨[], tokens, rfl, .nil, scans⟩
  | true =>
      rw [if_pos rfl] at scans
      simp only [List.append_assoc] at scans
      have isParent : IsLabel ("parent" : Text) := .of_all rfl rfl
      obtain ⟨blanks, _, rfl, blank, behindBlanks⟩ := scans.spaces separator spacesSeparator rfl
      obtain ⟨_, rfl, behindParent⟩ := behindBlanks.word isParent rfl
      obtain ⟨_, rfl, behindColons⟩ := behindParent.piece leads_doubleColon (by decide)
      obtain ⟨_, rfl, behindName⟩ := behindColons.word isLabel_defaultMarker rfl
      obtain ⟨_, rfl, behindOpener⟩ := behindName.mark rfl (by decide)
      obtain ⟨_, rfl, behindCloser⟩ := behindOpener.mark rfl (by decide)
      obtain ⟨later, rfl, behindSemicolon⟩ := behindCloser.mark rfl (by decide)
      have parentKind : nameKind false ("parent" : Text) = .identifier := by decide
      have afterParent : memberNameAfter false .identifier ("parent" : Text) = false := by decide
      have afterColons : memberNameAfter false .doubleColon [':', ':'] = true := by decide
      have nameKindEq : nameKind true defaultMarker = .identifier :=
        nameKind_member isLabel_defaultMarker
      simp only [parentKind, afterParent, afterColons, nameKindEq]
      have list : Nested [⟨.openParen, ['('], 0⟩, ⟨.closeParen, [')'], 0⟩, ⟨.semicolon, [';'], 0⟩] :=
        @Nested.pair ⟨.openParen, ['('], 0⟩ ⟨.closeParen, [')'], 0⟩ [] _ rfl .nil
          (.plain rfl rfl .nil)
      have call : Nested (⟨.identifier, ("parent" : Text), 0⟩ :: ⟨.doubleColon, [':', ':'], 0⟩ ::
          ⟨.identifier, defaultMarker, 0⟩ :: ⟨.openParen, ['('], 0⟩ :: ⟨.closeParen, [')'], 0⟩ ::
          [⟨.semicolon, [';'], 0⟩]) := .plain rfl rfl (.plain rfl rfl (.plain rfl rfl list))
      exact ⟨blanks ++ _, later, by simp, blank.plainCode.nested.append call, behindSemicolon⟩

theorem constructor {lead separator outer ending text : Text} (parent : Bool) {first : Dependency}
    {others assignments : List Dependency}
    (writableParameters : ∀ dependency ∈ first :: others, dependency.Writable)
    (writableAssignments : ∀ dependency ∈ assignments, dependency.Writable)
    (spacesLead : Spaces lead) (spacesSeparator : Spaces separator) (spacesOuter : Spaces outer)
    (spacesEnding : Spaces ending) (scans : Scans false text tokens)
    (shape : text = lead ++ (("public" : Text) ++ ([' '] ++ (("function" : Text) ++ ([' '] ++
      (defaultMarker ++ ('(' :: (separator ++ (parametersText separator first others ++ (outer ++
        (')' :: ([' '] ++ ('\x7b' :: ((if parent then separator ++ (("parent" : Text) ++
          ([':', ':'] ++ (defaultMarker ++ ['(', ')', ';']))) else []) ++
          ((assignments.flatMap fun dependency => separator ++ dependency.assignmentText) ++
            (outer ++ ('\x7d' :: ending))))))))))))))))) :
    ConstructorTokens [] (first :: others) assignments tokens := by
  subst shape
  obtain ⟨blanks, _, rfl, blank, behindLead⟩ := scans.spaces lead spacesLead rfl
  obtain ⟨front, head, _, rfl, plainFront, method, behindHead⟩ := behindLead.constructorHead rfl
  obtain ⟨_, rfl, behindOpener⟩ := behindHead.mark rfl (by decide)
  obtain ⟨list, _, rfl, series, _, behindList⟩ :=
    behindOpener.parameters writableParameters spacesSeparator spacesSeparator
      (spacesOuter.stop rfl)
  obtain ⟨more, _, rfl, blankMore, behindMore⟩ := behindList.spaces outer spacesOuter rfl
  obtain ⟨_, rfl, behindCloser⟩ := behindMore.mark rfl (by decide)
  obtain ⟨between, _, rfl, blankBetween, behindBetween⟩ :=
    behindCloser.spaces [' '] spaces_blank rfl
  obtain ⟨_, rfl, behindBrace⟩ := behindBetween.mark rfl (by decide)
  obtain ⟨call, _, rfl, nestedCall, behindCall⟩ := behindBrace.parentCall spacesSeparator
  obtain ⟨statements, _, rfl, assigned, behindStatements⟩ :=
    behindCall.assignments writableAssignments spacesSeparator
  obtain ⟨final, _, rfl, blankFinal, behindFinal⟩ :=
    behindStatements.spaces outer spacesOuter rfl
  obtain ⟨behind, rfl, behindAll⟩ := behindFinal.mark rfl (by decide)
  have nested : Nested (call ++ (statements ++ final)) :=
    nestedCall.append (assigned.plainCode.nested.append blankFinal.plainCode.nested)
  have assigns : ∀ dependency ∈ assignments,
      Assigns dependency.variableName (call ++ (statements ++ final)) := by
    intro dependency member
    exact ((assigned.assigns member).append_right final).append_left call
  have parts : ConstructorTokens [] (first :: others) assignments _ :=
    .mk (blank.plainCode.append plainFront) (by simp) method (series.append blankMore) blankBetween
      nested assigns (behindAll.ending spacesEnding)
  simpa only [List.append_assoc, List.cons_append] using parts

end Scans

theorem constructorTokens_of_generate {stream : TokenStream} {declaration : ClassDeclaration}
    {plan : InjectionPlan} {options : InjectionOptions} {lineEnding : Text} {tokens : List Token}
    (writableProperties : ∀ dependency ∈ plan.properties, dependency.Writable)
    (writableParameters : ∀ dependency ∈ plan.parameters, dependency.Writable)
    (writableAssignments : ∀ dependency ∈ plan.assignments, dependency.Writable)
    (nonempty : plan.parameters ≠ []) (marker : options.marker = defaultMarker)
    (spacesIndent : Spaces options.indent) (spacesEnding : Spaces lineEnding)
    (generated : generate (classHeadText stream declaration
      (plan.properties.map (·.propertyText options.indent lineEnding) ++
        [constructorText plan options lineEnding]) lineEnding) = .ok tokens) :
    ConstructorTokens plan.properties plan.parameters plan.assignments tokens := by
  have scans := scans_of_generate generated
  obtain ⟨ending, isEnding, text⟩ := classHeadText_eq stream declaration
    (plan.properties.map (·.propertyText options.indent lineEnding))
    (constructorText plan options lineEnding) lineEnding
  have spacesLast : Spaces ending := by
    rcases isEnding with rfl | rfl
    · exact spacesEnding
    · simp [Spaces]
  rw [text, List.flatMap_map, ← List.nil_append (_ ++ _)] at scans
  obtain ⟨properties, _, blanks, rfl, plainProperties, declares, spacesBlanks, behindProperties⟩ :=
    scans.properties writableProperties spacesIndent spacesEnding (by simp [Spaces])
  obtain ⟨first, others, parameters⟩ := List.exists_cons_of_ne_nil nonempty
  have spacesInner := spacesIndent.append spacesIndent
  have spacesSeparator := spacesEnding.append spacesInner
  have spacesOuter := spacesEnding.append spacesIndent
  have shape := constructorText_eq parameters marker lineEnding
  simp only at shape
  rw [shape] at behindProperties
  rw [parameters] at writableParameters ⊢
  have parts := behindProperties.constructor plan.parentCall writableParameters
    writableAssignments (spacesBlanks.append spacesOuter) spacesSeparator spacesOuter spacesLast (by
      simp only [List.append_assoc, List.cons_append, List.nil_append])
  exact parts.prepend plainProperties declares

end ConstructorInjection
