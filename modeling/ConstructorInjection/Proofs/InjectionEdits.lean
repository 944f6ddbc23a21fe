import Mathlib.Data.List.Basic
import Mathlib.Tactic.Common
import ConstructorInjection.Proofs.Editing
import ConstructorInjection.Proofs.GeneratedBlocks

/-!
What the edits of an injection make of the parts of a class that they touch: its head, the
parameter list and the body of its constructor.
-/

namespace ConstructorInjection

/-- Blank tokens hold nothing but spaces, tabs and line breaks. -/
def WellSpaced (stream : TokenStream) : Prop :=
  ∀ token ∈ stream, token.kind = .whitespace → Spaces token.text

theorem spaces_lineEnding (stream : TokenStream) : Spaces stream.lineEnding := by
  rw [TokenStream.lineEnding]
  intro character member
  split at member
  · split at member
    · rcases List.mem_cons.mp member with rfl | later
      · rfl
      · rw [List.mem_singleton.mp later]
        rfl
    · rw [List.mem_singleton.mp member]
      rfl
  · rw [List.mem_singleton.mp member]
    rfl

namespace TokenStream

theorem exists_blank_of_separatorAmong? {depth : Nat} {tokens : List Token} {separator : Text}
    (found : separatorAmong? depth tokens = some separator) :
    ∃ blank ∈ tokens, blank.kind = .whitespace ∧ blank.text = separator := by
  induction tokens generalizing depth with
  | nil => contradiction
  | cons token tokens ih =>
      cases tokens with
      | nil => contradiction
      | cons blank rest =>
          rw [separatorAmong?] at found
          generalize (if token.kind.isOpener then depth + 1
            else if token.kind.isCloser then depth - 1 else depth) = inside at found
          split at found
          next isSeparator =>
            cases found
            exact ⟨blank, by simp, isSeparator.2.2, rfl⟩
          next =>
            obtain ⟨other, member, isBlank⟩ := ih found
            exact ⟨other, List.mem_cons_of_mem _ member, isBlank⟩

/-- Statements are separated like earlier ones of the body. -/
theorem exists_blank_of_inlineSeparator? {stream : TokenStream} {opening last : Nat}
    {separator : Text} (found : stream.inlineSeparator? opening last = some separator) :
    ∃ blank ∈ stream.slice ⟨opening + 1, last⟩, blank.kind = .whitespace ∧ blank.text = separator :=
  exists_blank_of_separatorAmong? found

end TokenStream

namespace WellSpaced

variable {stream : TokenStream}

theorem indentBefore? (wellSpaced : WellSpaced stream) {index : Nat} {indent : Text}
    (found : stream.indentBefore? index = some indent) : Spaces indent := by
  cases index with
  | zero => contradiction
  | succ before =>
      rw [TokenStream.indentBefore?, Option.bind_eq_some_iff] at found
      obtain ⟨token, atBefore, isIndent⟩ := found
      rw [Token.lineIndent?] at isIndent
      split at isIndent
      next isBreak =>
        cases isIndent
        intro character member
        have inText : character ∈ token.text := by
          have inReverse := (List.takeWhile_sublist _).subset (List.mem_reverse.mp member)
          exact List.mem_reverse.mp inReverse
        exact wellSpaced token (List.mem_of_getElem? atBefore) isBreak.1 character inText
      next => contradiction

theorem indentOr (wellSpaced : WellSpaced stream) (index : Nat) {otherwise : Text}
    (spaces : Spaces otherwise) : Spaces ((stream.indentBefore? index).getD otherwise) := by
  cases found : stream.indentBefore? index with
  | none => exact spaces
  | some indent => exact wellSpaced.indentBefore? found

theorem foundIndentOr (wellSpaced : WellSpaced stream) (parameters : List Parameter)
    {otherwise : Text} (spaces : Spaces otherwise) :
    Spaces ((parameters.findSome? fun parameter =>
      stream.indentBefore? parameter.range.start).getD otherwise) := by
  cases found : parameters.findSome? fun parameter =>
      stream.indentBefore? parameter.range.start with
  | none => exact spaces
  | some indent =>
      obtain ⟨parameter, _, atParameter⟩ := List.exists_of_findSome?_eq_some found
      exact wellSpaced.indentBefore? atParameter

theorem inlineSeparator? (wellSpaced : WellSpaced stream) {opening last : Nat} {separator : Text}
    (found : stream.inlineSeparator? opening last = some separator) : Spaces separator := by
  obtain ⟨blank, member, isBlank, rfl⟩ := TokenStream.exists_blank_of_inlineSeparator? found
  rw [TokenStream.slice] at member
  exact wellSpaced blank (List.mem_of_mem_take (List.mem_of_mem_drop member)) isBlank

end WellSpaced

namespace TokenStream

/-- What lies between two delimiters: content, and blanks behind it. -/
theorem lastContent?_parts {stream : TokenStream} {opening closing : Nat} {inner rest : List Token}
    (cut : stream.drop (opening + 1) = inner ++ rest)
    (place : closing = opening + 1 + inner.length) :
    ∃ content blanks, inner = content ++ blanks ∧
      (∀ token ∈ blanks, token.kind = .whitespace) ∧
      (stream.lastContent? opening closing = none ∧ content = [] ∨
        ∃ last, stream.lastContent? opening closing = some last ∧
          last + 1 = opening + 1 + content.length) := by
  have inside := slice_of_drop_eq cut place
  rcases lastIn?_cases stream ⟨opening + 1, closing⟩ (·.kind != .whitespace) with
    ⟨noContent, blank⟩ | ⟨before, last, after, whole, _, blank, found⟩
  · refine ⟨[], inner, rfl, ?_, .inl ⟨noContent, rfl⟩⟩
    intro token member
    simpa using blank token (by rw [inside]; exact member)
  · rw [inside] at whole
    refine ⟨before ++ [last], after, by simp [whole], ?_, .inr ⟨_, found, ?_⟩⟩
    · intro token member
      simpa using blank token member
    · simp only [List.length_append, List.length_singleton]
      omega

theorem lastContent?_bounds {stream : TokenStream} {opening closing : Nat}
    (ordered : opening < closing) :
    opening ≤ (stream.lastContent? opening closing).getD opening ∧
      (stream.lastContent? opening closing).getD opening + 1 ≤ closing := by
  cases found : stream.lastContent? opening closing with
  | none => exact ⟨Nat.le_refl _, ordered⟩
  | some last =>
      have upper := lt_of_lastIn? found
      rcases lastIn?_cases stream ⟨opening + 1, closing⟩ (·.kind != .whitespace) with
        ⟨noContent, _⟩ | ⟨front, _, _, _, _, _, isLast⟩
      · rw [lastContent?, noContent] at found
        contradiction
      · rw [lastContent?, isLast, Option.some.injEq] at found
        subst found
        exact ⟨by simp only [Option.getD_some]; omega, upper⟩

end TokenStream

theorem exists_append_of_notMem {content blanks left right : List Token} {sign : Token}
    (cut : content ++ blanks = left ++ sign :: right) (absent : sign ∉ blanks) :
    ∃ after, content = left ++ sign :: after := by
  rcases List.append_eq_append_iff.mp cut with ⟨more, rfl, later⟩ | ⟨more, rfl, later⟩
  · exact absurd (by rw [later]; simp) absent
  · cases more with
    | nil =>
        rw [List.nil_append] at later
        exact absurd (by rw [← later]; simp) absent
    | cons first more =>
        simp only [List.cons_append, List.cons.injEq] at later
        exact ⟨more, by rw [later.1]⟩

/-- No assignment reaches into the blanks at the end of a body. -/
theorem Assigns.of_blanks {name : Text} {content blanks : List Token}
    (blank : ∀ token ∈ blanks, token.kind = .whitespace)
    (assigns : Assigns name (content ++ blanks)) : Assigns name content := by
  obtain ⟨before, assignment, after, cut, isAssignment⟩ := assigns
  obtain ⟨front, sign, rfl, isAssign⟩ := isAssignment.exists_sign
  have absent : sign ∉ blanks := by
    intro member
    rw [blank sign member] at isAssign
    contradiction
  have split : content ++ blanks = (before ++ front) ++ sign :: after := by
    rw [cut]
    simp
  obtain ⟨rest, rfl⟩ := exists_append_of_notMem split absent
  exact ⟨before, front ++ [sign], rest, by simp, isAssignment⟩

theorem exists_of_bind_eq_ok {Fault First Second : Type} {first : Except Fault First}
    {next : First → Except Fault Second} {result : Second}
    (succeeds : (first >>= next) = .ok result) :
    ∃ between, first = .ok between ∧ next between = .ok result := by
  cases first with
  | error fault => contradiction
  | ok between => exact ⟨between, rfl, succeeds⟩

theorem eq_ok_of_mapError {Fault Other Result : Type} {computed : Except Fault Result}
    {wrap : Fault → Other} {result : Result} (succeeds : computed.mapError wrap = .ok result) :
    computed = .ok result := by
  cases computed with
  | error fault => contradiction
  | ok between =>
      cases succeeds
      rfl

section Edits

variable {stream : TokenStream} {constructor : Constructor} {new : List Dependency}
  {indent lineEnding : Text} {options : InjectionOptions} {edits : List Edit}

theorem scans_assignments {separator ending : Text} {tokens : List Token}
    (writable : ∀ dependency ∈ new, dependency.Writable) (spacesSeparator : Spaces separator)
    (spacesEnding : Spaces ending)
    (generated : generate ((new.flatMap fun dependency =>
      separator ++ dependency.assignmentText) ++ ending) = .ok tokens) :
    Level tokens ∧ ∀ dependency ∈ new, Assigns dependency.variableName tokens := by
  obtain ⟨statements, rest, rfl, series, behind⟩ :=
    (scans_of_generate generated).assignments writable spacesSeparator
  have blank := Blank.of_whitespace (behind.ending spacesEnding)
  refine ⟨series.plainCode.level.append blank.level, ?_⟩
  intro dependency member
  exact (series.assigns member).append_right rest

theorem assignmentEdit_eq_nil
    (incomplete : constructor.bodyOpen = none ∨ constructor.bodyClose = none)
    (result : assignmentEdit stream constructor new indent options lineEnding = .ok edits) :
    edits = [] := by
  unfold assignmentEdit at result
  split at result
  next isOpen isClose => rcases incomplete with absent | absent <;> simp_all
  next =>
    cases result
    rfl

theorem assignmentEdit_behind {opening closing : Nat} (atBody : constructor.bodyOpen = some opening)
    (atEnd : constructor.bodyClose = some closing)
    (result : assignmentEdit stream constructor new indent options lineEnding = .ok edits) :
    ∀ edit ∈ edits,
      (stream.lastContent? opening closing).getD opening + 1 ≤ edit.range.start := by
  unfold assignmentEdit at result
  split at result
  next first others bodyOpen bodyClose isOpen isClose =>
    rw [atBody, Option.some.injEq] at isOpen
    rw [atEnd, Option.some.injEq] at isClose
    subst isOpen isClose
    simp only at result
    split at result
    next noContent =>
      split at result <;> obtain ⟨tokens, _, rest⟩ := exists_of_bind_eq_ok result <;> cases rest <;>
        simp [noContent, Edit.insertion]
    next last found =>
      obtain ⟨tokens, _, rest⟩ := exists_of_bind_eq_ok result
      cases rest
      simp [found, Edit.insertion]
  next =>
    cases result
    simp

theorem assignmentEdit_behindBrace {opening : Nat} (atBody : constructor.bodyOpen = some opening)
    (atEnd : constructor.bodyClose = stream.matchingClose? opening)
    (result : assignmentEdit stream constructor new indent options lineEnding = .ok edits) :
    ∀ edit ∈ edits, opening < edit.range.start := by
  cases closed : stream.matchingClose? opening with
  | none =>
      rw [assignmentEdit_eq_nil (.inr (atEnd.trans closed)) result]
      simp
  | some closing =>
      obtain ⟨_, inner, _, _, _, rfl, _⟩ := TokenStream.matchingClose?_eq_some_iff.mp closed
      intro edit member
      have behind := assignmentEdit_behind atBody (atEnd.trans closed) result edit member
      have bounds := (@TokenStream.lastContent?_bounds stream opening (opening + 1 + inner.length)
        (by omega)).1
      omega

/-- Assignments go behind the content of a body, in the place of the blanks at its end or in front
of them. -/
theorem assignmentEdit_rewrites {opening closing : Nat} {body rest : List Token}
    (atBody : constructor.bodyOpen = some opening) (atEnd : constructor.bodyClose = some closing)
    (cut : stream.drop (opening + 1) = body ++ rest) (place : closing = opening + 1 + body.length)
    (level : Level body) (wellSpaced : WellSpaced stream)
    (writable : ∀ dependency ∈ new, dependency.Writable) (spacesIndent : Spaces indent)
    (spacesOption : Spaces options.indent) (spacesEnding : Spaces lineEnding)
    (result : assignmentEdit stream constructor new indent options lineEnding = .ok edits) :
    ∃ content blanks added, body = content ++ blanks ∧
      (∀ token ∈ blanks, token.kind = .whitespace) ∧
      Edit.Rewrites (opening + 1) body edits (content ++ added) ∧ Level (content ++ added) ∧
      ∀ dependency ∈ new, Assigns dependency.variableName added := by
  unfold assignmentEdit at result
  cases new with
  | nil =>
      cases result
      exact ⟨body, [], [], by simp, by simp, by simpa using Edit.Rewrites.keep _ body,
        by simpa using level, by simp⟩
  | cons first others =>
      simp only [atBody, atEnd] at result
      have spacesStatement := spacesIndent.append spacesOption
      have noSpaces : Spaces [] := by simp [Spaces]
      obtain ⟨content, blanks, rfl, blank, ends⟩ := TokenStream.lastContent?_parts cut place
      have levelContent : Level content := by
        have noBlanks : Blank [] := by simp [Blank]
        exact Level.of_blanks level noBlanks (Blank.of_whitespace blank)
      rcases ends with ⟨noContent, rfl⟩ | ⟨last, found, lastPlace⟩
      · rw [noContent] at result
        simp only at result
        split at result
        next =>
          obtain ⟨tokens, generated, rest⟩ := exists_of_bind_eq_ok result
          cases rest
          rw [← List.append_nil (List.flatMap _ _)] at generated
          obtain ⟨levelNew, assigns⟩ :=
            scans_assignments writable (spacesEnding.append spacesStatement) noSpaces generated
          exact ⟨[], blanks, tokens ++ blanks, rfl, blank,
            Edit.Rewrites.insertion (opening + 1) [] tokens blanks,
            levelNew.append (Blank.of_whitespace blank).level,
            fun dependency member => (assigns dependency member).append_right blanks⟩
        next =>
          obtain ⟨tokens, generated, rest⟩ := exists_of_bind_eq_ok result
          cases rest
          rw [List.append_assoc] at generated
          obtain ⟨levelNew, assigns⟩ := scans_assignments writable
            (spacesEnding.append spacesStatement) (spacesEnding.append spacesIndent) generated
          have rewrites := Edit.Rewrites.single (opening + 1) [] blanks tokens []
          rw [List.append_nil, List.append_nil] at rewrites
          rw [place]
          exact ⟨[], blanks, tokens, rfl, blank, rewrites, levelNew, assigns⟩
      · rw [found] at result
        obtain ⟨tokens, generated, rest⟩ := exists_of_bind_eq_ok result
        cases rest
        rw [← List.append_nil (List.flatMap _ _)] at generated
        have spacesSeparator : Spaces (if stream.spansLines opening closing then lineEnding ++
            (stream.indentBefore? ((stream.firstContent? opening closing).getD last)).getD
              (indent ++ options.indent)
            else (stream.inlineSeparator? opening last).getD " ") := by
          split
          · exact spacesEnding.append (wellSpaced.indentOr _ spacesStatement)
          · cases separated : stream.inlineSeparator? opening last with
            | none => exact spaces_blank
            | some separator => exact wellSpaced.inlineSeparator? separated
        obtain ⟨levelNew, assigns⟩ :=
          scans_assignments writable spacesSeparator noSpaces generated
        rw [lastPlace]
        exact ⟨content, blanks, tokens ++ blanks, rfl, blank,
          Edit.Rewrites.insertion (opening + 1) content tokens blanks,
          levelContent.append (levelNew.append (Blank.of_whitespace blank).level),
          fun dependency member => (assigns dependency member).append_right blanks⟩

/-- Parameters with new ones directly behind the last mandatory one, or in front where there is
none. -/
def Extended (new : List Dependency) (known extended : List Parameter) : Prop :=
  ∃ earlier later, known = earlier ++ later ∧
    (∀ last ∈ earlier.getLast?, last.isMandatory = true) ∧
    (∀ other ∈ later, other.isMandatory = false) ∧
    extended = earlier ++ (new.map Dependency.asParameter ++ later)

/-- The places around a parameter, with code in front of it or behind it. -/
theorem exists_rewrites_around {list : ParameterList} {inner rest : List Token}
    {parameter : Parameter} {front back : List Parameter} (present : list.opening < stream.length)
    (cut : stream.drop (list.opening + 1) = inner ++ rest)
    (place : list.closing = list.opening + 1 + inner.length) (level : Level inner)
    (split : stream.parametersIn list = front ++ parameter :: back)
    (writable : ∀ dependency ∈ new, dependency.Writable) {comma : Token} {series blanks : List Token}
    (isSeries : ParameterSeries new series) (isComma : comma.kind = .comma) (blank : Blank blanks) :
    (∃ after, Edit.Rewrites (list.opening + 1) inner
        [Edit.insertion parameter.range.stop (comma :: series)] after ∧ Level after ∧
        readParameters after = (front ++ [parameter]).map Parameter.bare ++
          (new.map Dependency.asParameter ++ back.map Parameter.bare)) ∧
      ∃ after, Edit.Rewrites (list.opening + 1) inner
        [Edit.insertion parameter.range.start (series ++ comma :: blanks)] after ∧ Level after ∧
        readParameters after = front.map Parameter.bare ++
          (new.map Dependency.asParameter ++ (parameter :: back).map Parameter.bare) := by
  obtain ⟨opening, closing⟩ := list
  simp only at present cut place ⊢
  subst place
  obtain ⟨left, before, core, behind, right, rfl, starts, stops, blankBefore, blankBehind,
    levelCore, readBefore, readBehind, around⟩ :=
    TokenStream.standsIn_of_parametersIn present cut level split
  have levelComma : Level [comma] := by
    apply Level.plain <;> rw [isComma] <;> rfl
  have levelBehind := levelCore.append blankBehind.level
  have levelItem := blankBefore.level.append levelBehind
  have replaced {tokens : List Token} (levelNew : Level tokens) :
      Level (left ++ (tokens ++ right)) :=
    level.replace levelItem levelNew
  constructor
  · have extended := isSeries.append blankBehind
    have levelFront := blankBefore.level.append levelCore
    have levelNew : Level ((before ++ core) ++ ([comma] ++ (series ++ behind))) :=
      levelFront.append (levelComma.append extended.plainCode.level)
    have rewrites := Edit.Rewrites.insertion (opening + 1) (left ++ (before ++ core))
      (comma :: series) (behind ++ right)
    have index : opening + 1 + (left ++ (before ++ core)).length = parameter.range.stop := by
      simp only [List.length_append]
      omega
    rw [index] at rewrites
    refine ⟨left ++ (((before ++ core) ++ ([comma] ++ (series ++ behind))) ++ right), ?_,
      replaced levelNew, ?_⟩
    · simpa only [List.append_assoc, List.cons_append, List.nil_append] using rewrites
    · rw [around _ levelNew, List.singleton_append,
        readParameters_append_comma isComma levelFront, readBefore,
        extended.readParameters writable]
      simp only [List.map_append, List.map_cons, List.map_nil, List.append_assoc]
  · have extended := isSeries.prepend blankBefore
    have levelNew : Level ((before ++ series) ++ ([comma] ++ (blanks ++ (core ++ behind)))) :=
      extended.plainCode.level.append (levelComma.append (blank.level.append levelBehind))
    have rewrites := Edit.Rewrites.insertion (opening + 1) (left ++ before)
      (series ++ comma :: blanks) ((core ++ behind) ++ right)
    have index : opening + 1 + (left ++ before).length = parameter.range.start := by
      simp only [List.length_append]
      omega
    rw [index] at rewrites
    refine ⟨left ++ (((before ++ series) ++ ([comma] ++ (blanks ++ (core ++ behind)))) ++ right), ?_,
      replaced levelNew, ?_⟩
    · simpa only [List.append_assoc, List.cons_append, List.nil_append] using rewrites
    · rw [around _ levelNew, List.singleton_append,
        readParameters_append_comma isComma extended.plainCode.level,
        extended.readParameters writable, readParameters_blanks blank levelBehind, readBehind]
      simp only [List.map_cons, List.append_assoc, List.singleton_append]

theorem lastMandatory?_eq_none {parameters : List Parameter}
    (found : lastMandatory? parameters = none) :
    ∀ other ∈ parameters, other.isMandatory = false := by
  induction parameters with
  | nil => simp
  | cons first rest ih =>
      rw [lastMandatory?] at found
      split at found
      next => contradiction
      next noneLater =>
        split at found
        next => contradiction
        next optional =>
          exact List.forall_mem_cons.mpr ⟨by simpa using optional, ih noneLater⟩

theorem lastMandatory?_eq_some {parameters : List Parameter} {last : Parameter}
    {next : Option Parameter} (found : lastMandatory? parameters = some (last, next)) :
    ∃ front back, parameters = front ++ last :: back ∧ back.head? = next ∧
      last.isMandatory = true ∧ ∀ other ∈ back, other.isMandatory = false := by
  induction parameters with
  | nil => contradiction
  | cons first rest ih =>
      rw [lastMandatory?] at found
      split at found
      next later result =>
        cases found
        obtain ⟨front, back, rfl, follows, mandatory, optional⟩ := ih result
        exact ⟨first :: front, back, rfl, follows, mandatory, optional⟩
      next noneLater =>
        split at found
        next mandatory =>
          cases found
          exact ⟨[], rest, rfl, rfl, mandatory, lastMandatory?_eq_none noneLater⟩
        next => contradiction

theorem Parameter.isMandatory_bare (parameter : Parameter) :
    parameter.bare.isMandatory = parameter.isMandatory :=
  rfl

/-- The new parameters stand in their place, if they are put behind the last mandatory one. -/
theorem Extended.of_append {front back : List Parameter} {extended : List Parameter}
    (mandatory : ∀ last ∈ front.getLast?, last.isMandatory = true)
    (optional : ∀ other ∈ back, other.isMandatory = false)
    (whole : extended = front.map Parameter.bare ++
      (new.map Dependency.asParameter ++ back.map Parameter.bare)) :
    Extended new ((front ++ back).map Parameter.bare) extended := by
  refine ⟨front.map Parameter.bare, back.map Parameter.bare, List.map_append, ?_, ?_, whole⟩
  · intro last isLast
    rw [List.getLast?_map, Option.mem_def, Option.map_eq_some_iff] at isLast
    obtain ⟨parameter, isLast, rfl⟩ := isLast
    exact mandatory parameter isLast
  · intro other member
    obtain ⟨parameter, inBack, rfl⟩ := List.mem_map.mp member
    exact optional parameter inBack

theorem Extended.nil (parameters : List Parameter) :
    Extended [] (parameters.map Parameter.bare) (parameters.map Parameter.bare) := by
  cases found : lastMandatory? parameters with
  | none =>
      have extended : Extended [] (([] ++ parameters).map Parameter.bare) _ :=
        .of_append (by simp) (lastMandatory?_eq_none found) rfl
      simpa using extended
  | some result =>
      obtain ⟨front, back, rfl, _, mandatory, optional⟩ := lastMandatory?_eq_some found
      have shape : front ++ result.1 :: back = (front ++ [result.1]) ++ back := by simp
      rw [shape]
      exact .of_append (by simpa using mandatory) optional (by simp)

section Scanned

variable {first : Dependency} {others : List Dependency} {separator : Text} {tokens : List Token}

theorem scans_parametersBehind (writable : ∀ dependency ∈ first :: others, dependency.Writable)
    (spaces : Spaces separator)
    (generated : generate ((',' :: separator) ++ parametersText separator first others) =
      .ok tokens) :
    ∃ series, tokens = ⟨.comma, [','], 0⟩ :: series ∧ ParameterSeries (first :: others) series ∧
      ∃ front, ∃ last ∈ first :: others, series = front ++ [last.variableToken] := by
  have scans := scans_of_generate generated
  rw [List.cons_append] at scans
  obtain ⟨_, rfl, behindComma⟩ := scans.mark rfl (by decide)
  rw [← List.append_nil (parametersText separator first others)] at behindComma
  obtain ⟨series, _, rfl, isSeries, ends, behind⟩ :=
    behindComma.parameters writable spaces spaces rfl
  rw [behind.eq_nil, List.append_nil]
  exact ⟨series, rfl, isSeries, ends⟩

theorem scans_parametersBefore (writable : ∀ dependency ∈ first :: others, dependency.Writable)
    (spaces : Spaces separator)
    (generated : generate (parametersText separator first others ++ (',' :: separator)) =
      .ok tokens) :
    ∃ series blanks, tokens = series ++ ⟨.comma, [','], 0⟩ :: blanks ∧
      ParameterSeries (first :: others) series ∧ ∀ blank ∈ blanks, blank.kind = .whitespace := by
  have scans := scans_of_generate generated
  have noSpaces : Spaces [] := by simp [Spaces]
  rw [← List.nil_append (parametersText separator first others ++ _)] at scans
  obtain ⟨series, _, rfl, isSeries, _, behind⟩ := scans.parameters writable noSpaces spaces rfl
  obtain ⟨blanks, rfl, behindComma⟩ := behind.mark rfl (by decide)
  exact ⟨series, blanks, rfl, isSeries, behindComma.ending spaces⟩

theorem scans_parametersAlone {ending : Text}
    (writable : ∀ dependency ∈ first :: others, dependency.Writable) (spaces : Spaces separator)
    (spacesEnding : Spaces ending)
    (generated : generate (separator ++ (parametersText separator first others ++ ending)) =
      .ok tokens) :
    ParameterSeries (first :: others) tokens ∧ ∃ front, ∃ last ∈ first :: others, ∃ blanks,
      tokens = front ++ last.variableToken :: blanks ∧ ∀ blank ∈ blanks, blank.kind = .whitespace := by
  have stop : ending.head?.any isLabelPart = false := by
    rw [← List.append_nil ending]
    exact spacesEnding.stop rfl
  obtain ⟨series, _, rfl, isSeries, ⟨front, last, isLast, rfl⟩, behind⟩ :=
    (scans_of_generate generated).parameters writable spaces spaces stop
  have white := behind.ending spacesEnding
  exact ⟨isSeries.append (Blank.of_whitespace white), front, last, isLast, _, by simp, white⟩

end Scanned

/-- New parameters take the place of the blanks at the end of a list. -/
theorem exists_rewrites_of_empty {list : ParameterList} {inner rest series : List Token}
    (cut : stream.drop (list.opening + 1) = inner ++ rest)
    (place : list.closing = list.opening + 1 + inner.length) (level : Level inner)
    (writable : ∀ dependency ∈ new, dependency.Writable) (isSeries : ParameterSeries new series) :
    ∃ after, Edit.Rewrites (list.opening + 1) inner
        [⟨⟨(stream.lastContent? list.opening list.closing).getD list.opening + 1, list.closing⟩,
          series⟩] after ∧ Level after ∧
      (stream.splitTopLevel list.inner = [] →
        readParameters after = new.map Dependency.asParameter) := by
  have only (noItems : stream.splitTopLevel list.inner = []) :=
    TokenStream.isTrivia_or_isComma_of_splitTopLevel cut place noItems
  obtain ⟨content, blanks, rfl, blank, ends⟩ := TokenStream.lastContent?_parts cut place
  have keptPlace : (stream.lastContent? list.opening list.closing).getD list.opening + 1 =
      list.opening + 1 + content.length := by
    rcases ends with ⟨noContent, rfl⟩ | ⟨last, found, lastPlace⟩
    · rw [noContent]
      rfl
    · rw [found]
      exact lastPlace
  have rewrites := Edit.Rewrites.single (list.opening + 1) content blanks series []
  rw [List.append_nil, List.append_nil] at rewrites
  rw [List.length_append, ← Nat.add_assoc] at place
  rw [keptPlace, place]
  have noBlanks : Blank [] := by simp [Blank]
  have levelContent : Level content := Level.of_blanks level noBlanks (Blank.of_whitespace blank)
  refine ⟨content ++ series, rewrites, levelContent.append isSeries.plainCode.level, ?_⟩
  intro noItems
  rw [readParameters_separators
    (fun token member => only noItems token (List.mem_append_left _ member))
    isSeries.plainCode.level, isSeries.readParameters writable]

/-- The parameter list of a constructor keeps its parameters and gets the new ones. -/
theorem parameterEdit_rewrites {list : ParameterList} {inner rest : List Token}
    (listed : constructor.parameterList = some list)
    (read : constructor.parameters = stream.parametersIn list)
    (present : list.opening < stream.length)
    (cut : stream.drop (list.opening + 1) = inner ++ rest)
    (place : list.closing = list.opening + 1 + inner.length) (level : Level inner)
    (wellSpaced : WellSpaced stream) (writable : ∀ dependency ∈ new, dependency.Writable)
    (spacesIndent : Spaces indent) (spacesOption : Spaces options.indent)
    (spacesEnding : Spaces lineEnding)
    (result : parameterEdit stream constructor new indent options lineEnding = .ok edits) :
    ∃ after, Edit.Rewrites (list.opening + 1) inner edits after ∧ Level after ∧
      ((∀ item ∈ stream.splitTopLevel list.inner,
          (stream.parameterIn? (stream.trimTrivia item)).isSome = true) →
        Extended new ((stream.parametersIn list).map Parameter.bare) (readParameters after)) := by
  unfold parameterEdit at result
  simp only [listed] at result
  cases new with
  | nil =>
      cases result
      refine ⟨inner, .keep _ inner, level, fun _ => ?_⟩
      rw [← TokenStream.map_bare_parametersIn present cut place level]
      exact .nil _
  | cons first others =>
      rw [read] at result
      cases parameters : stream.parametersIn list with
      | nil =>
          rw [parameters] at result
          simp only at result
          obtain ⟨tokens, generated, rest⟩ := exists_of_bind_eq_ok result
          cases rest
          rw [flatMap_withCommas, List.append_assoc, List.append_assoc] at generated
          have spacesLead := (spacesEnding.append spacesIndent).append spacesOption
          obtain ⟨series, _⟩ := scans_parametersAlone writable spacesLead
            (spacesEnding.append spacesIndent) generated
          obtain ⟨after, rewrites, levelAfter, read⟩ :=
            exists_rewrites_of_empty cut place level writable series
          refine ⟨after, rewrites, levelAfter, ?_⟩
          intro readable
          have noItems : stream.splitTopLevel list.inner = [] := by
            apply List.eq_nil_iff_forall_not_mem.mpr
            intro item member
            obtain ⟨parameter, found⟩ := Option.isSome_iff_exists.mp (readable item member)
            have inList : parameter ∈ stream.parametersIn list :=
              List.mem_filterMap.mpr ⟨item, member, found⟩
            rw [parameters] at inList
            contradiction
          rw [read noItems]
          exact ⟨[], [], rfl, by simp, by simp, by simp⟩
      | cons parameter more =>
          rw [parameters] at result
          simp only at result
          obtain ⟨separator, spaces, isSeparator⟩ : ∃ separator, Spaces separator ∧
              (if stream.spansLines list.opening list.closing then
                ("," : Text) ++ lineEnding ++ ((parameter :: more).reverse.findSome? fun parameter =>
                  stream.indentBefore? parameter.range.start).getD (indent ++ options.indent)
              else ", ") = ',' :: separator := by
            have comma : ("," : Text) = [','] := by rfl
            have commaBlank : (", " : Text) = [',', ' '] := by rfl
            split
            · refine ⟨_, spacesEnding.append (wellSpaced.foundIndentOr (parameter :: more).reverse
                (spacesIndent.append spacesOption)), ?_⟩
              rw [comma]
              rfl
            · exact ⟨[' '], spaces_blank, commaBlank⟩
          rw [isSeparator, joinWith_parameterText] at result
          have isComma : (⟨.comma, [','], 0⟩ : Token).kind = .comma := rfl
          have around {series blanks : List Token} {found : Parameter} {front back : List Parameter}
              (split : parameter :: more = front ++ found :: back)
              (isSeries : ParameterSeries (first :: others) series) (blank : Blank blanks) := by
            rw [← parameters] at split
            exact exists_rewrites_around present cut place level split writable isSeries isComma
              blank
          have noBlanks : Blank [] := by simp [Blank]
          split at result
          next last found =>
            obtain ⟨tokens, generated, rest⟩ := exists_of_bind_eq_ok result
            cases rest
            obtain ⟨series, rfl, isSeries, _⟩ := scans_parametersBehind writable spaces generated
            obtain ⟨front, back, split, _, mandatory, optional⟩ := lastMandatory?_eq_some found
            obtain ⟨after, rewrites, levelAfter, read⟩ := (around split isSeries noBlanks).1
            refine ⟨after, rewrites, levelAfter, fun _ => ?_⟩
            rw [split, List.append_cons]
            exact .of_append (by simpa using mandatory) optional read
          next last next found =>
            obtain ⟨tokens, generated, rest⟩ := exists_of_bind_eq_ok result
            cases rest
            obtain ⟨series, blanks, rfl, isSeries, white⟩ :=
              scans_parametersBefore writable spaces generated
            obtain ⟨front, back, split, follows, mandatory, optional⟩ := lastMandatory?_eq_some found
            obtain ⟨more, rfl⟩ := List.head?_eq_some_iff.mp follows
            rw [List.append_cons] at split
            obtain ⟨after, rewrites, levelAfter, read⟩ :=
              (around split isSeries (Blank.of_whitespace white)).2
            refine ⟨after, rewrites, levelAfter, fun _ => ?_⟩
            rw [split]
            exact .of_append (by simpa using mandatory) optional read
          next found =>
            obtain ⟨tokens, generated, rest⟩ := exists_of_bind_eq_ok result
            cases rest
            obtain ⟨series, blanks, rfl, isSeries, white⟩ :=
              scans_parametersBefore writable spaces generated
            obtain ⟨after, rewrites, levelAfter, read⟩ :=
              (@around _ _ parameter [] more rfl isSeries (Blank.of_whitespace white)).2
            refine ⟨after, rewrites, levelAfter, fun _ => ?_⟩
            rw [← List.nil_append (parameter :: more)]
            exact .of_append (by simp) (lastMandatory?_eq_none found) read

end Edits

end ConstructorInjection
