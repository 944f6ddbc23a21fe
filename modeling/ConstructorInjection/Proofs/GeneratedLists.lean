import Mathlib.Data.List.Basic
import Mathlib.Tactic.Common
import ConstructorInjection.Proofs.Constructors
import ConstructorInjection.Proofs.Generated
import ConstructorInjection.Proofs.ParameterLists

/-!
The tokens of generated code for several dependencies: parameters with commas between them,
assignments one after the other, and the blocks at the head of a class body.
-/

namespace ConstructorInjection

theorem PlainCode.append {left right : List Token} (first : PlainCode left)
    (second : PlainCode right) : PlainCode (left ++ right) := by
  intro token member
  rcases List.mem_append.mp member with inLeft | inRight
  · exact first token inLeft
  · exact second token inRight

theorem PlainCode.level {tokens : List Token} (plain : PlainCode tokens) : Level tokens :=
  Level.of_plain fun token member => ⟨(plain token member).1, (plain token member).2.1⟩

theorem PlainCode.nested {tokens : List Token} (plain : PlainCode tokens) : Nested tokens :=
  Nested.of_plain fun token member => ⟨(plain token member).1, (plain token member).2.1⟩

theorem PlainCode.singleton {kind : TokenKind} {text : Text} {line : Nat}
    (plain : kind.isOpener = false ∧ kind.isCloser = false ∧ kind ≠ .keyword) :
    PlainCode [⟨kind, text, line⟩] := by
  intro token member
  rw [List.mem_singleton.mp member, Token.isKeyword, beq_eq_false_iff_ne.mpr plain.2.2]
  exact ⟨plain.1, plain.2.1, rfl⟩

theorem Blank.of_whitespace {tokens : List Token}
    (whitespace : ∀ token ∈ tokens, token.kind = .whitespace) : Blank tokens := by
  intro token member
  rw [Token.isTrivia, whitespace token member]
  rfl

/-- The parameter that a dependency becomes. -/
def Dependency.asParameter (dependency : Dependency) : Parameter :=
  ⟨some dependency.className, dependency.variableName, false, false, false, ⟨0, 0⟩⟩

namespace ParameterTokens

variable {dependency : Dependency} {tokens : List Token}

theorem plainCode (parameter : ParameterTokens dependency tokens) : PlainCode tokens := by
  cases parameter with
  | mk blank =>
      have plainClass : PlainCode [⟨.qualifiedName, dependency.className, 0⟩] :=
        PlainCode.singleton (by decide)
      exact (plainClass.append blank.plainCode).append (PlainCode.singleton (by decide))

theorem exists_front (parameter : ParameterTokens dependency tokens) :
    ∃ front, tokens = front ++ [dependency.variableToken] := by
  cases parameter with
  | mk _ => exact ⟨_, rfl⟩

theorem noComma (parameter : ParameterTokens dependency tokens) :
    ∀ token ∈ tokens, token.kind ≠ .comma := by
  cases parameter with
  | mk blank =>
      intro token member isComma
      simp only [List.cons_append, List.mem_cons, List.mem_append, List.not_mem_nil,
        or_false] at member
      rcases member with rfl | inBlanks | rfl
      · contradiction
      · have trivia := blank token inBlanks
        rw [Token.isTrivia, isComma] at trivia
        contradiction
      · contradiction

theorem readParameter (writable : dependency.Writable)
    (parameter : ParameterTokens dependency tokens) :
    readParameter tokens = some dependency.asParameter := by
  cases parameter with
  | @mk blanks blank =>
      let stream : TokenStream := ⟨.qualifiedName, dependency.className, 0⟩ :: blanks ++
        [⟨.variableName, '$' :: dependency.variableName, 0⟩]
      have size : stream.length = 1 + blanks.length + 1 := by
        simp only [stream, List.cons_append, List.length_cons, List.length_append, List.length_nil]
        omega
      have behindClass : stream.drop 1 =
          blanks ++ [⟨.variableName, '$' :: dependency.variableName, 0⟩] := rfl
      have atVariable := TokenStream.getElem?_of_drop_eq behindClass
      have typed : stream.parameterHead? stream.length ParameterHead.none 0 =
          stream.parameterHead? stream.length (ParameterHead.none.withType 0) 1 := by
        rw [TokenStream.parameterHead?, if_pos (by omega)]
        rfl
      have read : stream.parameterHead? stream.length ParameterHead.none 0 =
          some (ParameterHead.none.withType 0, 1 + blanks.length) := by
        rw [typed, TokenStream.parameterHead?_blanks behindClass blank (by omega),
          TokenStream.parameterHead?, if_pos (by omega), atVariable]
        rfl
      have nothingBehind : stream.slice ⟨1 + blanks.length + 1, stream.length⟩ = [] := by
        rw [TokenStream.slice_to_end, List.drop_eq_nil_of_le (by omega)]
      have className : stream.textOf ⟨0, 1⟩ = dependency.className := by
        simp [TokenStream.textOf, TokenStream.slice, stream, ConstructorInjection.textOf]
      have name : ('$' :: dependency.variableName).dropWhile (· == '$') =
          dependency.variableName := by
        obtain ⟨first, rest, named, start⟩ := writable.label.exists_cons
        have noDollar : (first == '$') = false := by
          rw [beq_eq_false_iff_ne]
          rintro rfl
          exact absurd start (by decide)
        rw [named, List.dropWhile_cons_of_pos rfl, List.dropWhile_cons_of_neg (by simp [noDollar])]
      have whole : stream.parameterIn? ⟨0, stream.length⟩ =
          some { dependency.asParameter with range := ⟨0, stream.length⟩ } := by
        simp only [TokenStream.parameterIn?, read, Option.bind_eq_bind, Option.bind_some,
          atVariable, TokenStream.firstIn?, nothingBehind, name, Option.pure_def]
        simp [ParameterHead.withType, ParameterHead.none, className, Dependency.asParameter]
      rw [ConstructorInjection.readParameter, whole]
      rfl

end ParameterTokens

/-- The tokens of parameters with commas between them, and of blanks around them. -/
inductive ParameterSeries : List Dependency → List Token → Prop where
  | last {dependency : Dependency} {before tokens behind : List Token} (blankBefore : Blank before)
      (parameter : ParameterTokens dependency tokens) (blankBehind : Blank behind) :
      ParameterSeries [dependency] (before ++ (tokens ++ behind))
  | more {dependency : Dependency} {others : List Dependency} {comma : Token}
      {before tokens rest : List Token} (blankBefore : Blank before)
      (parameter : ParameterTokens dependency tokens) (isComma : comma.kind = .comma)
      (later : ParameterSeries others rest) :
      ParameterSeries (dependency :: others) (before ++ (tokens ++ comma :: rest))

theorem Blank.append {left right : List Token} (first : Blank left) (second : Blank right) :
    Blank (left ++ right) := by
  intro token member
  rcases List.mem_append.mp member with inLeft | inRight
  · exact first token inLeft
  · exact second token inRight

namespace ParameterSeries

variable {dependencies : List Dependency} {tokens : List Token}

theorem prepend (series : ParameterSeries dependencies tokens) {blanks : List Token}
    (blank : Blank blanks) : ParameterSeries dependencies (blanks ++ tokens) := by
  cases series with
  | last blankBefore parameter blankBehind =>
      rw [← List.append_assoc]
      exact .last (blank.append blankBefore) parameter blankBehind
  | more blankBefore parameter isComma later =>
      rw [← List.append_assoc]
      exact .more (blank.append blankBefore) parameter isComma later

theorem append (series : ParameterSeries dependencies tokens) {blanks : List Token}
    (blank : Blank blanks) : ParameterSeries dependencies (tokens ++ blanks) := by
  induction series with
  | last blankBefore parameter blankBehind =>
      rw [List.append_assoc, List.append_assoc]
      exact .last blankBefore parameter (blankBehind.append blank)
  | more blankBefore parameter isComma later ih =>
      rw [List.append_assoc, List.append_assoc, List.cons_append]
      exact .more blankBefore parameter isComma ih

theorem plainCode (series : ParameterSeries dependencies tokens) : PlainCode tokens := by
  induction series with
  | last blankBefore parameter blankBehind =>
      exact blankBefore.plainCode.append (parameter.plainCode.append blankBehind.plainCode)
  | @more _ _ comma _ _ _ blankBefore parameter isComma later ih =>
      have plainComma : PlainCode [comma] :=
        PlainCode.singleton (by rw [isComma]; decide)
      exact blankBefore.plainCode.append (parameter.plainCode.append (plainComma.append ih))

theorem readParameters (series : ParameterSeries dependencies tokens)
    (writable : ∀ dependency ∈ dependencies, dependency.Writable) :
    readParameters tokens = dependencies.map Dependency.asParameter := by
  have read {dependency : Dependency} {before tokens behind : List Token}
      (writable : dependency.Writable) (blankBefore : Blank before)
      (parameter : ParameterTokens dependency tokens) (blankBehind : Blank behind) :
      ConstructorInjection.readParameters (before ++ (tokens ++ behind)) =
        [dependency.asParameter] := by
    have level := parameter.plainCode.level
    have uncut : Uncut 0 (before ++ (tokens ++ behind)) := by
      apply Uncut.of_plain
      intro token member isComma
      have ofBlank {blanks : List Token} (blank : Blank blanks) (inBlanks : token ∈ blanks) :
          False := by
        have trivia := blank token inBlanks
        rw [Token.isTrivia, isComma] at trivia
        contradiction
      simp only [List.mem_append] at member
      rcases member with inBefore | inTokens | inBehind
      · exact ofBlank blankBefore inBefore
      · exact parameter.noComma token inTokens isComma
      · exact ofBlank blankBehind inBehind
    rw [readParameters_uncut uncut (blankBefore.level.append (level.append blankBehind.level)),
      readParameter_between blankBefore level blankBehind, parameter.readParameter writable,
      Option.toList_some]
  induction series with
  | last blankBefore parameter blankBehind =>
      exact read (writable _ (by simp)) blankBefore parameter blankBehind
  | @more dependency others comma before tokens rest blankBefore parameter isComma later ih =>
      have noBlanks : Blank [] := by simp [Blank]
      have first := read (writable _ (by simp)) blankBefore parameter noBlanks
      rw [List.append_nil] at first
      have level := blankBefore.level.append parameter.plainCode.level
      rw [← List.append_assoc, readParameters_append_comma isComma level, first,
        ih fun other member => writable other (List.mem_cons_of_mem _ member)]
      rfl

end ParameterSeries

/-- The text of parameters, each one but the first behind a comma and a separator. -/
def parametersText (separator : Text) (first : Dependency) (others : List Dependency) : Text :=
  first.parameterText ++ others.flatMap fun dependency =>
    ',' :: (separator ++ dependency.parameterText)

theorem joinWith_cons (separator first : Text) (others : List Text) :
    Text.joinWith separator (first :: others) = first ++ others.flatMap (separator ++ ·) := by
  induction others generalizing first with
  | nil => simp [Text.joinWith]
  | cons second others ih =>
      rw [Text.joinWith, ih, List.flatMap_cons, List.append_assoc, List.append_assoc]
      simp

theorem joinWith_parameterText (separator : Text) (first : Dependency) (others : List Dependency) :
    Text.joinWith (',' :: separator) ((first :: others).map Dependency.parameterText) =
      parametersText separator first others := by
  rw [List.map_cons, joinWith_cons, List.flatMap_map]
  rfl

theorem flatMap_withCommas (separator : Text) (first : Dependency) (others : List Dependency) :
    (withCommas ((first :: others).map Dependency.parameterText)).flatMap (separator ++ ·) =
      separator ++ parametersText separator first others := by
  have comma : ("," : Text) = [','] := by rfl
  induction others generalizing first with
  | nil => simp [withCommas, parametersText]
  | cons second others ih =>
      have later := ih second
      rw [List.map_cons] at later
      rw [List.map_cons, List.map_cons, withCommas, List.flatMap_cons, later, comma]
      simp only [parametersText, List.flatMap_cons, List.append_assoc, List.cons_append,
        List.nil_append]
      simp

theorem parameterText_stop {dependency : Dependency} (writable : dependency.Writable)
    (rest : Text) : (dependency.parameterText ++ rest).head?.any isLineSpace = false := by
  rw [Dependency.parameterText, List.append_assoc, List.append_assoc, List.head?_append,
    writable.qualified]
  rfl

theorem assignmentText_stop (dependency : Dependency) (rest : Text) :
    (dependency.assignmentText ++ rest).head?.any isLineSpace = false := by
  have opening : ("$this->" : Text) = ['$', 't', 'h', 'i', 's', '-', '>'] := by rfl
  unfold Dependency.assignmentText
  rw [opening]
  rfl

namespace Scans

theorem parameters {separator lead rest : Text} {tokens : List Token} {first : Dependency}
    {others : List Dependency} (writable : ∀ dependency ∈ first :: others, dependency.Writable)
    (spacesLead : Spaces lead) (spacesSeparator : Spaces separator)
    (stop : rest.head?.any isLabelPart = false)
    (scans : Scans false (lead ++ (parametersText separator first others ++ rest)) tokens) :
    ∃ new later, tokens = new ++ later ∧ ParameterSeries (first :: others) new ∧
      (∃ front, ∃ last ∈ first :: others, new = front ++ [last.variableToken]) ∧
      Scans false rest later := by
  have noBlanks : Blank [] := by simp [Blank]
  induction others generalizing first lead tokens with
  | nil =>
      have shape : parametersText separator first [] = first.parameterText := by
        simp [parametersText]
      rw [shape] at scans
      obtain ⟨blanks, _, rfl, blank, behindLead⟩ :=
        scans.spaces lead spacesLead (parameterText_stop (writable first (by simp)) rest)
      obtain ⟨new, later, rfl, parameter, behind⟩ :=
        behindLead.parameter (writable first (by simp)) stop
      obtain ⟨front, ends⟩ := parameter.exists_front
      exact ⟨blanks ++ (new ++ []), later, by simp, .last blank parameter noBlanks,
        ⟨blanks ++ front, first, List.mem_cons_self, by simp [ends]⟩, behind⟩
  | cons second others ih =>
      have shape : parametersText separator first (second :: others) ++ rest =
          first.parameterText ++ (',' :: (separator ++
            (parametersText separator second others ++ rest))) := by
        simp [parametersText]
      rw [shape] at scans
      obtain ⟨blanks, _, rfl, blank, behindLead⟩ :=
        scans.spaces lead spacesLead (parameterText_stop (writable first (by simp)) _)
      obtain ⟨new, _, rfl, parameter, behindFirst⟩ :=
        behindLead.parameter (writable first (by simp)) rfl
      obtain ⟨_, rfl, behindComma⟩ := behindFirst.mark rfl (by decide)
      obtain ⟨more, later, rfl, series, ⟨front, last, isLast, ends⟩, behind⟩ :=
        ih (fun other member => writable other (List.mem_cons_of_mem _ member)) spacesSeparator
          behindComma
      exact ⟨blanks ++ (new ++ ⟨.comma, [','], 0⟩ :: more), later, by simp,
        .more blank parameter rfl series, ⟨blanks ++ (new ++ ⟨.comma, [','], 0⟩ :: front), last,
          List.mem_cons_of_mem _ isLast, by simp [ends]⟩, behind⟩

end Scans

namespace AssignmentTokens

variable {dependency : Dependency} {tokens : List Token}

theorem plainCode (assignment : AssignmentTokens dependency tokens) : PlainCode tokens := by
  cases assignment with
  | mk blankBefore blankBehind =>
      intro token member
      simp only [List.cons_append, List.mem_cons, List.mem_append, List.not_mem_nil,
        or_false] at member
      rcases member with rfl | rfl | rfl | (inBlanks | rfl | inBlanks) | rfl | rfl
      · exact ⟨rfl, rfl, rfl⟩
      · exact ⟨rfl, rfl, rfl⟩
      · exact ⟨rfl, rfl, rfl⟩
      · exact blankBefore.plainCode token inBlanks
      · exact ⟨rfl, rfl, rfl⟩
      · exact blankBehind.plainCode token inBlanks
      · exact ⟨rfl, rfl, rfl⟩
      · exact ⟨rfl, rfl, rfl⟩

theorem assigns (assignment : AssignmentTokens dependency tokens) :
    Assigns dependency.variableName tokens := by
  have noBlanks : Blank [] := by simp [Blank]
  cases assignment with
  | @mk before behind blankBefore blankBehind =>
      have isAssignment : PropertyAssignment dependency.variableName
          (⟨.variableName, "$this", 0⟩ :: ([] ++ ⟨.objectOperator, "->", 0⟩ :: ([] ++
            ⟨.identifier, dependency.variableName, 0⟩ :: (before ++ [⟨.assign, "=", 0⟩])))) :=
        .mk rfl rfl noBlanks rfl noBlanks rfl rfl blankBefore rfl
      refine ⟨[], _, behind ++ [⟨.variableName, '$' :: dependency.variableName, 0⟩,
        ⟨.semicolon, ";", 0⟩], ?_, isAssignment⟩
      simp only [List.nil_append, List.cons_append, List.append_assoc]

end AssignmentTokens

/-- The tokens of assignments one after the other, with blanks before each. -/
inductive AssignmentSeries : List Dependency → List Token → Prop where
  | nil : AssignmentSeries [] []
  | cons {dependency : Dependency} {others : List Dependency} {before tokens rest : List Token}
      (blankBefore : Blank before) (assignment : AssignmentTokens dependency tokens)
      (later : AssignmentSeries others rest) :
      AssignmentSeries (dependency :: others) (before ++ (tokens ++ rest))

namespace AssignmentSeries

variable {dependencies : List Dependency} {tokens : List Token}

theorem plainCode (series : AssignmentSeries dependencies tokens) : PlainCode tokens := by
  induction series with
  | nil => simp [PlainCode]
  | cons blankBefore assignment later ih =>
      exact blankBefore.plainCode.append (assignment.plainCode.append ih)

theorem assigns (series : AssignmentSeries dependencies tokens) {dependency : Dependency}
    (member : dependency ∈ dependencies) : Assigns dependency.variableName tokens := by
  induction series with
  | nil => simp at member
  | @cons first others before tokens rest blankBefore assignment later ih =>
      rcases List.mem_cons.mp member with rfl | inOthers
      · exact (assignment.assigns.append_right rest).append_left before
      · exact ((ih inOthers).append_left tokens).append_left before

end AssignmentSeries

theorem AssignmentTokens.exists_front {dependency : Dependency} {tokens : List Token}
    (assignment : AssignmentTokens dependency tokens) :
    ∃ front, tokens = front ++ [⟨.semicolon, [';'], 0⟩] := by
  cases assignment with
  | mk _ _ => exact ⟨_, List.append_cons ..⟩

theorem AssignmentSeries.exists_front {dependencies : List Dependency} {tokens : List Token}
    (series : AssignmentSeries dependencies tokens) (nonempty : dependencies ≠ []) :
    ∃ front, tokens = front ++ [⟨.semicolon, [';'], 0⟩] := by
  induction series with
  | nil => contradiction
  | @cons dependency others before tokens rest _ assignment later ih =>
      cases later with
      | nil =>
          obtain ⟨front, rfl⟩ := assignment.exists_front
          exact ⟨before ++ front, by simp⟩
      | cons blank second last =>
          obtain ⟨front, ends⟩ := ih (List.cons_ne_nil _ _)
          exact ⟨before ++ (tokens ++ front), by simp [ends]⟩

theorem Scans.assignments {separator rest : Text} {tokens : List Token}
    {dependencies : List Dependency} (writable : ∀ dependency ∈ dependencies, dependency.Writable)
    (spacesSeparator : Spaces separator)
    (scans : Scans false ((dependencies.flatMap fun dependency =>
      separator ++ dependency.assignmentText) ++ rest) tokens) :
    ∃ new later, tokens = new ++ later ∧ AssignmentSeries dependencies new ∧
      Scans false rest later := by
  induction dependencies generalizing tokens with
  | nil => exact ⟨[], tokens, rfl, .nil, scans⟩
  | cons first others ih =>
      rw [List.flatMap_cons, List.append_assoc, List.append_assoc] at scans
      obtain ⟨blanks, _, rfl, blank, behindBlanks⟩ :=
        scans.spaces separator spacesSeparator (assignmentText_stop _ _)
      obtain ⟨new, _, rfl, assignment, behindFirst⟩ :=
        behindBlanks.assignment (writable first (by simp))
      obtain ⟨more, later, rfl, series, behind⟩ :=
        ih (fun other member => writable other (List.mem_cons_of_mem _ member)) behindFirst
      exact ⟨blanks ++ (new ++ more), later, by simp, .cons blank assignment series, behind⟩

end ConstructorInjection
