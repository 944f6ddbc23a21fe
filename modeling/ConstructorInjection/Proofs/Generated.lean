import Mathlib.Data.List.Basic
import Mathlib.Tactic.Common
import ConstructorInjection.Injection
import ConstructorInjection.Proofs.FirstPiece
import ConstructorInjection.Proofs.Navigation

/-!
The tokens of generated code. Generated code has been lexed already when it is put in place, and so
each of its parts shows up as the token that it was written for.
-/

namespace ConstructorInjection

/-- The tokens of code, all of them on line zero. -/
def Scans (memberName : Bool) (text : Text) (tokens : List Token) : Prop :=
  ∃ place lexed, Lexes .code memberName place text lexed ∧
    tokens = lexed.map fun token => { token with line := 0 }

theorem scans_of_synthesize {code : Text} {tokens : List Token}
    (result : synthesize code = .ok tokens) : Scans false code tokens := by
  rw [synthesize, lexFragment] at result
  cases lexed : lexFrom .code false Place.start code with
  | error error =>
      rw [lexed] at result
      cases result
  | ok found =>
      rw [lexed] at result
      cases result
      exact ⟨Place.start, found, Lexes.of_lexFrom lexed, rfl⟩

theorem textOf_of_synthesize {code : Text} {tokens : List Token}
    (result : synthesize code = .ok tokens) : textOf tokens = code := by
  obtain ⟨_, lexed, lexes, rfl⟩ := scans_of_synthesize result
  rw [← lexes.textOf_eq, textOf, textOf, List.flatMap_map]

theorem scans_of_generate {code : Text} {tokens : List Token}
    (result : generate code = .ok tokens) : Scans false code tokens := by
  rw [generate] at result
  cases lexed : synthesize code with
  | error error =>
      rw [lexed] at result
      cases result
  | ok found =>
      rw [lexed] at result
      cases result
      exact scans_of_synthesize lexed

namespace Scans

theorem eq_nil {memberName : Bool} {tokens : List Token} (scans : Scans memberName [] tokens) :
    tokens = [] := by
  obtain ⟨place, lexed, lexes, rfl⟩ := scans
  cases lexes with
  | done => rfl
  | step nonempty _ _ => contradiction

theorem piece {memberName : Bool} {text rest : Text} {kind : TokenKind} {tokens : List Token}
    (scans : Scans memberName (text ++ rest) tokens) (leads : Leads memberName text kind rest)
    (inCode : kind ≠ .closeTag) :
    ∃ later, tokens = ⟨kind, text, 0⟩ :: later ∧
      Scans (memberNameAfter memberName kind text) rest later := by
  obtain ⟨piece, next, rfl, length⟩ := leads
  obtain ⟨place, lexed, lexes, rfl⟩ := scans
  have nonempty : text ++ rest ≠ [] := by
    intro empty
    have positive := piece.length_pos
    rw [(List.append_eq_nil_iff.mp empty).1, List.length_nil] at length
    omega
  generalize whole : text ++ rest = input at lexes nonempty next
  cases lexes with
  | done => contradiction
  | @step _ _ _ _ other later _ otherNext lexes =>
      rw [Piece.next] at otherNext
      have same : other = piece := Except.ok.inj (otherNext.symm.trans next)
      subst same
      subst whole
      have stays : LexMode.after .code other.kind = .code := by
        cases kind : other.kind <;> first | rfl | exact absurd kind inCode
      rw [length, List.take_left, List.drop_left, stays] at lexes
      refine ⟨later.map fun token => { token with line := 0 }, ?_, _, later, lexes, rfl⟩
      rw [List.map_cons, length, List.take_left]

end Scans

/-- The characters of class names. -/
def isClassCharacter (character : Char) : Bool :=
  isLabelPart character || character == '\\'

theorem noName_of_noClass {copy : Text} (stop : copy.head?.any isClassCharacter = false) :
    copy.head?.any isLabelPart = false ∧ copy.head? ≠ some '\\' := by
  cases copy with
  | nil => exact ⟨rfl, by simp⟩
  | cons first rest =>
      simp only [List.head?_cons, Option.any_some, isClassCharacter, Bool.or_eq_false_iff,
        beq_eq_false_iff_ne] at stop
      exact ⟨stop.1, fun same => stop.2 (Option.some.inj same)⟩

theorem exists_label_of_labelLength {text rest : Text}
    (characters : ∀ character ∈ text, isClassCharacter character = true)
    (stop : rest.head?.any isClassCharacter = false) (named : labelLength (text ++ rest) ≠ 0) :
    ∃ label behind, text = label ++ behind ∧ labelLength (text ++ rest) = label.length ∧
      (behind = [] ∨ behind.head? = some '\\') := by
  have stopPart : rest.head?.any isLabelPart = false := by
    cases rest with
    | nil => rfl
    | cons next rest =>
        simp only [List.head?_cons, Option.any_some, isClassCharacter, Bool.or_eq_false_iff] at stop ⊢
        exact stop.1
  cases text with
  | nil =>
      cases rest with
      | nil => simp [labelLength] at named
      | cons next rest =>
          rw [List.nil_append, labelLength] at named
          split at named
          next start =>
            rw [List.head?_cons, Option.any_some, isLabelPart_of_isLabelStart start] at stopPart
            exact Bool.noConfusion stopPart
          next => exact absurd rfl named
  | cons first text =>
      have start : isLabelStart first = true := by
        by_contra noStart
        rw [List.cons_append, labelLength, if_neg noStart] at named
        contradiction
      have ends : text.dropWhile isLabelPart = [] ∨
          (text.dropWhile isLabelPart).head? = some '\\' := by
        cases behind : text.dropWhile isLabelPart with
        | nil => exact .inl rfl
        | cons next behind =>
            have notPart := List.head?_dropWhile_not isLabelPart text
            simp only [behind, List.head?_cons] at notPart
            have inText : next ∈ text := by
              have suffix := List.dropWhile_sublist isLabelPart (l := text)
              exact suffix.subset (by simp [behind])
            have isClass := characters next (List.mem_cons_of_mem _ inText)
            rw [isClassCharacter, notPart, Bool.false_or, beq_iff_eq] at isClass
            exact .inr (by rw [List.head?_cons, isClass])
      refine ⟨first :: text.takeWhile isLabelPart, text.dropWhile isLabelPart, ?_, ?_, ends⟩
      · rw [List.cons_append, List.takeWhile_append_dropWhile]
      · have isLabel : IsLabel (first :: text.takeWhile isLabelPart) :=
          .mk start (List.all_eq_true.mp List.all_takeWhile)
        have stopBehind : (text.dropWhile isLabelPart ++ rest).head?.any isLabelPart = false := by
          rcases ends with none | some
          · rwa [none, List.nil_append]
          · rw [List.head?_append, some, Option.some_or]
            decide
        rw [← isLabel.labelLength_append stopBehind, List.cons_append, List.cons_append,
          ← List.append_assoc, List.takeWhile_append_dropWhile]

/-- The segments at the start of a class name are all of it, or the next one has no label. -/
theorem segmentsLength_append {className rest : Text}
    (characters : ∀ character ∈ className, isClassCharacter character = true)
    (begins : className = [] ∨ className.head? = some '\\')
    (stop : rest.head?.any isClassCharacter = false) :
    segmentsLength (className ++ rest) = className.length ∨
      ∃ more, className.drop (segmentsLength (className ++ rest)) = '\\' :: more ∧
        segmentsLength (className ++ rest) < className.length ∧ labelLength (more ++ rest) = 0 := by
  generalize size : className.length = length
  induction length using Nat.strongRecOn generalizing className with
  | ind length ih =>
      cases className with
      | nil =>
          left
          rw [List.nil_append]
          cases rest with
          | nil =>
              rw [segmentsLength]
              · exact size
              · simp
          | cons next rest =>
              simp only [List.head?_cons, Option.any_some, isClassCharacter, Bool.or_eq_false_iff,
                beq_eq_false_iff_ne] at stop
              rw [segmentsLength]
              · exact size
              · rintro _ ⟨rfl, rfl⟩
                exact stop.2 rfl
      | cons first more =>
          have backslash : first = '\\' := by
            rcases begins with empty | head
            · contradiction
            · exact Option.some.inj head
          subst backslash
          rw [List.length_cons] at size
          by_cases noLabel : labelLength (more ++ rest) = 0
          · right
            rw [List.cons_append, segmentsLength]
            simp only [noLabel, if_true]
            exact ⟨more, rfl, by omega, noLabel⟩
          · have moreCharacters : ∀ character ∈ more, isClassCharacter character = true :=
              fun character member => characters character (List.mem_cons_of_mem _ member)
            obtain ⟨label, behind, rfl, labelled, ends⟩ :=
              exists_label_of_labelLength moreCharacters stop noLabel
            have through : segmentsLength ('\\' :: (label ++ behind ++ rest)) =
                label.length + 1 + segmentsLength (behind ++ rest) := by
              rw [segmentsLength]
              simp only [labelled]
              rw [if_neg (by omega), List.append_assoc, List.drop_left]
            rw [List.length_append] at size
            rw [List.cons_append, through]
            rcases ih behind.length (by omega)
              (fun character member => moreCharacters character (by simp [member])) ends rfl with
              whole | ⟨further, dropped, shorter, unnamed⟩
            · left
              omega
            · right
              refine ⟨further, ?_, by omega, unnamed⟩
              rw [Nat.add_right_comm, List.drop_succ_cons, ← List.drop_drop, List.drop_left, dropped]

/-- No code goes on from a backslash without a label behind it. -/
theorem longestMatch_backslash_eq_none {more : Text} (noLabel : labelLength more = 0) :
    longestMatch ('\\' :: more) = none := by
  have kept : lexicalRules.filter (·.pattern.opensWith '\\') = [⟨.name, .name⟩] := rfl
  rw [longestMatch_cons kept]
  have nothing : Pattern.matchLength .name ('\\' :: more) = 0 := by
    rw [Pattern.matchLength, segmentsLength]
    simp only [noLabel, if_true]
  simp only [longestAmong, nothing, if_true]

theorem not_scans_backslash {memberName : Bool} {more : Text} {tokens : List Token}
    (noLabel : labelLength more = 0) : ¬ Scans memberName ('\\' :: more) tokens := by
  rintro ⟨place, lexed, lexes, _⟩
  cases lexes with
  | step _ next _ =>
      obtain ⟨found, result, _⟩ := Piece.ofCode_eq_ok next
      rw [longestMatch_backslash_eq_none noLabel] at result
      contradiction

/-- A class name with a backslash in front is read up to its last segment. -/
theorem leads_qualifiedName {memberName : Bool} {name rest : Text} (qualified : name.head? = some '\\')
    (length : segmentsLength (name ++ rest) = name.length) :
    Leads memberName name .qualifiedName rest := by
  obtain ⟨name, rfl⟩ := List.head?_eq_some_iff.mp qualified
  have kept : lexicalRules.filter (·.pattern.opensWith '\\') = [⟨.name, .name⟩] := rfl
  have result : longestMatch ('\\' :: name ++ rest) = some ⟨.name, ('\\' :: name).length⟩ := by
    rw [List.cons_append] at length ⊢
    rw [longestMatch_cons kept]
    simp only [longestAmong, Pattern.matchLength, length, List.length_cons, Nat.succ_ne_zero,
      if_false]
  have leads := @Leads.name memberName _ _ result
  have kind : nameKind memberName ('\\' :: name) = .qualifiedName := by
    simp [nameKind]
  rwa [kind] at leads

/-- Generated code that has tokens has one for the name of a class. -/
theorem Scans.className {memberName : Bool} {className rest : Text} {tokens : List Token}
    (scans : Scans memberName (className ++ rest) tokens)
    (characters : ∀ character ∈ className, isClassCharacter character = true)
    (qualified : className.head? = some '\\')
    (stop : rest.head?.any isClassCharacter = false) :
    ∃ later, tokens = ⟨.qualifiedName, className, 0⟩ :: later ∧ Scans false rest later := by
  rcases segmentsLength_append characters (.inr qualified) stop with
    whole | ⟨more, dropped, shorter, noLabel⟩
  · exact scans.piece (leads_qualifiedName qualified whole) (by decide)
  · obtain ⟨name, behind, cut, place⟩ : ∃ name behind, className = name ++ behind ∧
        name.length = segmentsLength (className ++ rest) := by
      refine ⟨className.take (segmentsLength (className ++ rest)), _,
        (List.take_append_drop _ className).symm, ?_⟩
      rw [List.length_take]
      omega
    subst cut
    rw [← place, List.drop_left] at dropped
    subst dropped
    rw [List.append_assoc, List.cons_append] at scans place
    cases name with
    | nil => exact absurd scans (not_scans_backslash noLabel)
    | cons first name =>
        have shape : (first :: name).head? = some '\\' := by simpa using qualified
        obtain ⟨later, _, further⟩ := scans.piece (leads_qualifiedName shape place.symm) (by decide)
        exact absurd further (not_scans_backslash noLabel)

theorem isLabelStart_of_isAlphabetic {character : Char}
    (alphabetic : Unicode.isAlphabetic character = true) : isLabelStart character = true := by
  rw [Unicode.isAlphabetic, Unicode.isAscii] at alphabetic
  rw [isLabelStart]
  split at alphabetic
  next => rw [alphabetic, Bool.true_or, Bool.true_or]
  next beyond =>
    have high : 0x80 ≤ character.toNat := by simpa using beyond
    simp [high]

theorem isLabelPart_of_isAlphanumeric {character : Char}
    (alphanumeric : Unicode.isAlphanumeric character = true) : isLabelPart character = true := by
  rw [Unicode.isAlphanumeric, Bool.or_eq_true] at alphanumeric
  rcases alphanumeric with alphabetic | numeric
  · exact isLabelPart_of_isLabelStart (isLabelStart_of_isAlphabetic alphabetic)
  · rw [Unicode.isNumeric, Unicode.isAscii] at numeric
    split at numeric
    next => rw [isLabelPart, numeric, Bool.or_true]
    next beyond =>
      have high : 0x80 ≤ character.toNat := by simpa using beyond
      simp [isLabelPart, isLabelStart, high]

/-- A dependency that can be written down: a class name with a backslash in front, and a label. -/
structure Dependency.Writable (dependency : Dependency) : Prop where
  label : IsLabel dependency.variableName
  characters : ∀ character ∈ dependency.className, isClassCharacter character = true
  qualified : dependency.className.head? = some '\\'

theorem Dependency.isLabel_of_hasValidVariable {dependency : Dependency}
    (valid : dependency.hasValidVariable = true) : IsLabel dependency.variableName := by
  obtain ⟨className, variableName⟩ := dependency
  rw [hasValidVariable, Bool.and_eq_true] at valid
  obtain ⟨start, parts⟩ := valid
  cases variableName with
  | nil => simp at start
  | cons first rest =>
      simp only [List.head?_cons, Option.any_some, Bool.or_eq_true, beq_iff_eq] at start
      simp only [List.all_cons, Bool.and_eq_true, List.all_eq_true, Bool.or_eq_true,
        beq_iff_eq] at parts
      refine .mk ?_ ?_
      · rcases start with rfl | alphabetic
        · rfl
        · exact isLabelStart_of_isAlphabetic alphabetic
      · intro character member
        rcases parts.2 character member with rfl | alphanumeric
        · rfl
        · exact isLabelPart_of_isAlphanumeric alphanumeric

theorem Dependency.writable_of_isValid {dependency : Dependency}
    (valid : dependency.isValid = true) (qualified : dependency.className.head? = some '\\') :
    dependency.Writable := by
  rw [isValid, Bool.and_eq_true] at valid
  obtain ⟨validVariable, validType⟩ := valid
  refine ⟨isLabel_of_hasValidVariable validVariable, ?_, qualified⟩
  obtain ⟨className, variableName⟩ := dependency
  have noQuestion : Text.dropStart? ['?'] className = none := by
    cases className with
    | nil => simp at qualified
    | cons first rest =>
        rw [List.head?_cons, Option.some.injEq] at qualified
        subst qualified
        rfl
  simp only [hasValidType, noQuestion, Option.getD_none, Bool.and_eq_true, List.all_eq_true,
    Bool.or_eq_true, beq_iff_eq] at validType
  intro character member
  rw [isClassCharacter, Bool.or_eq_true, beq_iff_eq]
  rcases validType.2 character member with (rfl | rfl) | alphanumeric
  · exact .inl rfl
  · exact .inr rfl
  · exact .inl (isLabelPart_of_isAlphanumeric alphanumeric)

/-- Spaces, tabs and line breaks. -/
def Spaces (text : Text) : Prop :=
  ∀ character ∈ text, isLineSpace character = true

theorem Spaces.of_all {text : Text} (all : text.all isLineSpace = true) : Spaces text :=
  List.all_eq_true.mp all

theorem spaces_blank : Spaces [' '] :=
  .of_all rfl

theorem Spaces.append {left right : Text} (first : Spaces left) (second : Spaces right) :
    Spaces (left ++ right) := by
  intro character member
  rcases List.mem_append.mp member with inLeft | inRight
  · exact first character inLeft
  · exact second character inRight

namespace Scans

variable {rest : Text} {tokens : List Token}

theorem spaces {memberName : Bool} (text : Text) (spaces : Spaces text)
    (scans : Scans memberName (text ++ rest) tokens) (stop : rest.head?.any isLineSpace = false) :
    ∃ blanks later, tokens = blanks ++ later ∧ Blank blanks ∧ Scans memberName rest later := by
  cases text with
  | nil => exact ⟨[], tokens, rfl, by simp [Blank], scans⟩
  | cons first text =>
      obtain ⟨later, rfl, further⟩ :=
        scans.piece (leads_blanks (by simp) spaces stop) (by decide)
      refine ⟨[_], later, rfl, ?_, further⟩
      intro token member
      rw [List.mem_singleton.mp member]
      rfl

theorem mark {memberName : Bool} {mark : Char} {kind : TokenKind}
    (scans : Scans memberName (mark :: rest) tokens)
    (kept : lexicalRules.filter (·.pattern.opensWith mark) = [⟨.spelling [mark], .whole kind⟩])
    (punctuation : kind.isTrivia = false ∧ kind.isMemberOperator = false ∧ kind ≠ .keyword ∧
      kind ≠ .closeTag) :
    ∃ later, tokens = ⟨kind, [mark], 0⟩ :: later ∧ Scans false rest later := by
  obtain ⟨noTrivia, noOperator, noKeyword, inCode⟩ := punctuation
  have cut : Scans memberName ([mark] ++ rest) tokens := scans
  have found := cut.piece (leads_mark kept) inCode
  have forgets : memberNameAfter memberName kind [mark] = false := by
    rw [memberNameAfter, noTrivia, noOperator, beq_eq_false_iff_ne.mpr noKeyword]
    rfl
  rwa [forgets] at found

theorem word {memberName : Bool} {word : Text} (isLabel : IsLabel word)
    (scans : Scans memberName (word ++ rest) tokens)
    (stop : rest.head?.any isClassCharacter = false) :
    ∃ later, tokens = ⟨nameKind memberName word, word, 0⟩ :: later ∧
      Scans (memberNameAfter memberName (nameKind memberName word) word) rest later := by
  have inCode : nameKind memberName word ≠ .closeTag := by
    rw [nameKind]
    split
    · decide
    · split <;> decide
  have stopPart : rest.head?.any isLabelPart = false := by
    cases rest with
    | nil => rfl
    | cons next rest =>
        simp only [List.head?_cons, Option.any_some, isClassCharacter, Bool.or_eq_false_iff] at stop ⊢
        exact stop.1
  have noSegment : rest.head? ≠ some '\\' := by
    intro backslash
    rw [backslash] at stop
    contradiction
  exact scans.piece (leads_label isLabel stopPart noSegment) inCode

theorem nameKind_member {label : Text} (isLabel : IsLabel label) :
    nameKind true label = .identifier := by
  have noBackslash : label.contains '\\' = false := by
    rw [Bool.eq_false_iff, ne_eq, List.contains_iff_mem]
    intro member
    cases isLabel with
    | mk start parts =>
        rcases List.mem_cons.mp member with rfl | later
        · exact absurd start (by decide)
        · exact absurd (parts _ later) (by decide)
  rw [nameKind, noBackslash]
  rfl

theorem variableName {memberName : Bool} {label : Text} (isLabel : IsLabel label)
    (scans : Scans memberName ('$' :: label ++ rest) tokens)
    (stop : rest.head?.any isLabelPart = false) :
    ∃ later, tokens = ⟨.variableName, '$' :: label, 0⟩ :: later ∧ Scans false rest later :=
  scans.piece (leads_variable isLabel stop) (by decide)

end Scans

/-- The tokens of a parameter that is a class and a variable. -/
inductive ParameterTokens (dependency : Dependency) : List Token → Prop where
  | mk {blanks : List Token} (blank : Blank blanks) :
      ParameterTokens dependency (⟨.qualifiedName, dependency.className, 0⟩ :: blanks ++
        [⟨.variableName, '$' :: dependency.variableName, 0⟩])

/-- The tokens of the assignment of a variable to the property of its name. -/
inductive AssignmentTokens (dependency : Dependency) : List Token → Prop where
  | mk {before behind : List Token} (blankBefore : Blank before) (blankBehind : Blank behind) :
      AssignmentTokens dependency (⟨.variableName, "$this", 0⟩ :: ⟨.objectOperator, "->", 0⟩ ::
        ⟨.identifier, dependency.variableName, 0⟩ :: before ++ ⟨.assign, "=", 0⟩ :: behind ++
        [⟨.variableName, '$' :: dependency.variableName, 0⟩, ⟨.semicolon, ";", 0⟩])

namespace Scans

variable {dependency : Dependency} {rest : Text} {tokens : List Token}

theorem parameter (writable : dependency.Writable)
    (scans : Scans false (dependency.parameterText ++ rest) tokens)
    (stop : rest.head?.any isLabelPart = false) :
    ∃ new later, tokens = new ++ later ∧ ParameterTokens dependency new ∧
      Scans false rest later := by
  have shape : dependency.parameterText ++ rest =
      dependency.className ++ ([' '] ++ ('$' :: dependency.variableName ++ rest)) := by
    have separator : (" $" : Text) = [' ', '$'] := by rfl
    unfold Dependency.parameterText
    rw [separator]
    simp only [List.append_assoc, List.cons_append, List.nil_append]
  rw [shape] at scans
  obtain ⟨_, rfl, behindClass⟩ :=
    scans.className writable.characters writable.qualified rfl
  obtain ⟨blanks, _, rfl, blank, behindBlanks⟩ := behindClass.spaces [' '] spaces_blank rfl
  obtain ⟨later, rfl, behindVariable⟩ := behindBlanks.variableName writable.label stop
  exact ⟨_, later, by simp, .mk blank, behindVariable⟩

theorem assignment (writable : dependency.Writable)
    (scans : Scans false (dependency.assignmentText ++ rest) tokens) :
    ∃ new later, tokens = new ++ later ∧ AssignmentTokens dependency new ∧
      Scans false rest later := by
  have shape : dependency.assignmentText ++ rest =
      '$' :: ['t', 'h', 'i', 's'] ++ (['-', '>'] ++ (dependency.variableName ++ ([' '] ++ (['='] ++
        ([' '] ++ ('$' :: dependency.variableName ++ (';' :: rest))))))) := by
    have opening : ("$this->" : Text) = ['$', 't', 'h', 'i', 's', '-', '>'] := by rfl
    have middle : (" = $" : Text) = [' ', '=', ' ', '$'] := by rfl
    have ending : (";" : Text) = [';'] := by rfl
    unfold Dependency.assignmentText
    rw [opening, middle, ending]
    simp only [List.append_assoc, List.cons_append, List.nil_append]
  have isThis : IsLabel ['t', 'h', 'i', 's'] := .of_all rfl rfl
  rw [shape] at scans
  obtain ⟨_, rfl, behindThis⟩ := scans.variableName isThis rfl
  obtain ⟨_, rfl, behindArrow⟩ := behindThis.piece leads_arrow (by decide)
  obtain ⟨_, rfl, behindMember⟩ := behindArrow.word writable.label rfl
  obtain ⟨before, _, rfl, blankBefore, behindBefore⟩ := behindMember.spaces [' '] spaces_blank rfl
  obtain ⟨_, rfl, behindAssign⟩ :=
    behindBefore.piece (leads_assign (by simp) (by simp)) (by decide)
  obtain ⟨behind, _, rfl, blankBehind, behindBehind⟩ := behindAssign.spaces [' '] spaces_blank rfl
  obtain ⟨_, rfl, behindVariable⟩ := behindBehind.variableName writable.label rfl
  obtain ⟨later, rfl, behindSemicolon⟩ := behindVariable.mark rfl (by decide)
  have expected : memberNameAfter false .objectOperator ['-', '>'] = true := by rfl
  refine ⟨_, later, ?_, .mk blankBefore blankBehind, behindSemicolon⟩
  rw [expected, nameKind_member writable.label]
  simp only [List.append_assoc, List.cons_append, List.nil_append]
  rfl

end Scans

/-- Tokens among which no delimiter stands and no `function`. -/
def PlainCode (tokens : List Token) : Prop :=
  ∀ token ∈ tokens, token.kind.isOpener = false ∧ token.kind.isCloser = false ∧
    token.isKeyword "function" = false

theorem Blank.plainCode {tokens : List Token} (blank : Blank tokens) : PlainCode tokens := by
  intro token member
  have trivia := blank token member
  rw [Token.isTrivia] at trivia
  rw [Token.isKeyword]
  cases kind : token.kind <;> rw [kind] at trivia <;>
    first | contradiction | exact ⟨rfl, rfl, rfl⟩

/-- The scanner goes over a text in plain code and on to the rest. -/
def PlainOver (memberName : Bool) (text : Text) (after : Bool) (rest : Text) : Prop :=
  ∀ tokens, Scans memberName (text ++ rest) tokens →
    ∃ new later, tokens = new ++ later ∧ PlainCode new ∧ Scans after rest later

namespace PlainOver

theorem trans {memberName between after : Bool} {first second rest : Text}
    (near : PlainOver memberName first between (second ++ rest))
    (further : PlainOver between second after rest) :
    PlainOver memberName (first ++ second) after rest := by
  intro tokens scans
  rw [List.append_assoc] at scans
  obtain ⟨new, later, rfl, plain, next⟩ := near tokens scans
  obtain ⟨more, last, rfl, plainMore, ends⟩ := further later next
  refine ⟨new ++ more, last, by rw [List.append_assoc], ?_, ends⟩
  intro token member
  rcases List.mem_append.mp member with inNew | inMore
  · exact plain token inNew
  · exact plainMore token inMore

theorem spaces {memberName : Bool} {text rest : Text} (spaces : Spaces text)
    (stop : rest.head?.any isLineSpace = false) : PlainOver memberName text memberName rest := by
  intro tokens scans
  obtain ⟨blanks, later, rfl, blank, next⟩ := scans.spaces text spaces stop
  exact ⟨blanks, later, rfl, blank.plainCode, next⟩

theorem piece {memberName : Bool} {text rest : Text} {kind : TokenKind}
    (leads : Leads memberName text kind rest)
    (plain : kind.isOpener = false ∧ kind.isCloser = false ∧ kind ≠ .closeTag)
    (noFunction : kind = .keyword → Text.equalIgnoringCase text "function" = false) :
    PlainOver memberName text (memberNameAfter memberName kind text) rest := by
  obtain ⟨noOpener, noCloser, inCode⟩ := plain
  intro tokens scans
  obtain ⟨later, rfl, next⟩ := scans.piece leads inCode
  refine ⟨[⟨kind, text, 0⟩], later, rfl, ?_, next⟩
  intro token member
  rw [List.mem_singleton.mp member, Token.isKeyword]
  refine ⟨noOpener, noCloser, ?_⟩
  by_cases keyword : kind = .keyword
  · rw [noFunction keyword, Bool.and_false]
  · rw [beq_eq_false_iff_ne.mpr keyword, Bool.false_and]

theorem word {memberName : Bool} {word rest : Text} (isLabel : IsLabel word)
    (stop : rest.head?.any isLabelPart = false) (noSegment : rest.head? ≠ some '\\')
    (noFunction : Text.equalIgnoringCase word "function" = false) :
    PlainOver memberName word (memberNameAfter memberName (nameKind memberName word) word) rest := by
  have plain : (nameKind memberName word).isOpener = false ∧
      (nameKind memberName word).isCloser = false ∧ nameKind memberName word ≠ .closeTag := by
    rw [nameKind]
    split
    · decide
    · split <;> decide
  exact piece (leads_label isLabel stop noSegment) plain fun _ => noFunction

end PlainOver

/-- The variable that a dependency gets. -/
def Dependency.variableToken (dependency : Dependency) : Token :=
  ⟨.variableName, '$' :: dependency.variableName, 0⟩

theorem Scans.property {dependency : Dependency} {rest indent lineEnding blanks : Text}
    {tokens : List Token} (writable : dependency.Writable) (spacesIndent : Spaces indent)
    (spacesEnding : Spaces lineEnding) (spacesBefore : Spaces blanks)
    (scans : Scans false (blanks ++ (dependency.propertyText indent lineEnding ++ rest)) tokens) :
    ∃ new later, tokens = new ++ ⟨.semicolon, [';'], 0⟩ :: later ∧ PlainCode new ∧
      dependency.variableToken ∈ new ∧ Scans false rest later := by
  have shape : blanks ++ (dependency.propertyText indent lineEnding ++ rest) =
      ((blanks ++ indent) ++ (('/' :: '*' :: '*' :: ' ' ::
        (['@', 'v', 'a', 'r', ' '] ++ dependency.className ++ [' ', '*', '/'])) ++
          ((lineEnding ++ indent) ++ (['p', 'r', 'o', 't', 'e', 'c', 't', 'e', 'd'] ++ [' '])))) ++
            ('$' :: dependency.variableName ++ ([';'] ++ rest)) := by
    have opening : ("/** @var " : Text) =
        ['/', '*', '*', ' ', '@', 'v', 'a', 'r', ' '] := by rfl
    have middle : (" */" : Text) = [' ', '*', '/'] := by rfl
    have modifier : ("protected $" : Text) =
        ['p', 'r', 'o', 't', 'e', 'c', 't', 'e', 'd', ' ', '$'] := by rfl
    have ending : (";" : Text) = [';'] := by rfl
    unfold Dependency.propertyText
    rw [opening, middle, modifier, ending]
    simp only [List.append_assoc, List.cons_append, List.nil_append]
  have noEnd : '*' ∉ ['@', 'v', 'a', 'r', ' '] ++ dependency.className := by
    intro member
    rcases List.mem_append.mp member with inFront | inName
    · exact absurd inFront (by decide)
    · exact absurd (writable.characters _ inName) (by decide)
  have isWord : IsLabel ['p', 'r', 'o', 't', 'e', 'c', 't', 'e', 'd'] := .of_all rfl rfl
  rw [shape] at scans
  obtain ⟨before, _, rfl, plainBefore, atVariable⟩ : ∃ before later, tokens = before ++ later ∧
      PlainCode before ∧ Scans false ('$' :: dependency.variableName ++ ([';'] ++ rest)) later := by
    refine PlainOver.trans (.spaces (spacesBefore.append spacesIndent) rfl) ?_ tokens scans
    refine PlainOver.trans (.piece (leads_docComment noEnd) (by decide) (by simp)) ?_
    refine PlainOver.trans (.spaces (spacesEnding.append spacesIndent) rfl) ?_
    exact PlainOver.trans (.word isWord rfl (by simp) (by decide)) (.spaces spaces_blank rfl)
  obtain ⟨_, rfl, behindVariable⟩ := atVariable.variableName writable.label rfl
  obtain ⟨later, rfl, next⟩ := behindVariable.mark rfl (by decide)
  refine ⟨before ++ [dependency.variableToken], later, by simp [Dependency.variableToken], ?_,
    by simp, next⟩
  intro token member
  rcases List.mem_append.mp member with inFront | isVariable
  · exact plainBefore token inFront
  · rw [List.mem_singleton.mp isVariable]
    exact ⟨rfl, rfl, rfl⟩

end ConstructorInjection
