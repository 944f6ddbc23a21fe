import Mathlib.Data.List.Basic
import Mathlib.Tactic.Common
import ConstructorInjection.Dispatch
import ConstructorInjection.Proofs.CopiedCode
import ConstructorInjection.Proofs.CopiedTokens
import ConstructorInjection.Proofs.Generated

/-!
What replacements are made of. They are read as names and delimiters around the tokens of the copied
arguments, whatever the arguments and the code behind are.
-/

namespace ConstructorInjection

section Leads

variable {memberName : Bool} {rest : Text}

theorem leads_doubleArrow : Leads memberName ['=', '>'] .doubleArrow rest := by
  have kept : lexicalRules.filter (·.pattern.opensWith '=') =
      [⟨.spelling ['=', '>'], .whole .doubleArrow⟩, ⟨.spelling ['='], .whole .assign⟩,
        ⟨.spelling ['=', '='], .whole .operator⟩, ⟨.spelling ['=', '=', '='], .whole .operator⟩] := rfl
  apply Leads.whole
  rw [List.cons_append, longestMatch_cons kept]
  simp [longestAmong, Pattern.matchLength, List.isPrefixOf]

theorem IsLabel.quotedExtent {label : Text} (isLabel : IsLabel label) (rest : Text) :
    quotedExtent '\'' (label ++ '\'' :: rest) = some (label.length + 1) := by
  have parts := isLabel.parts
  clear isLabel
  induction label with
  | nil => rfl
  | cons first label ih =>
      obtain ⟨part, parts⟩ := List.forall_mem_cons.mp parts
      have noEscape : first ≠ '\\' := by
        rintro rfl
        contradiction
      have noQuote : first ≠ '\'' := by
        rintro rfl
        contradiction
      rw [List.cons_append, quotedExtent_cons noEscape, if_neg noQuote, ih parts]
      rfl

/-- A label in quotes. -/
theorem leads_quoted {label : Text} (isLabel : IsLabel label) :
    Leads memberName ('\'' :: (label ++ ['\''])) .stringLiteral rest := by
  have kept : lexicalRules.filter (·.pattern.opensWith '\'') =
      [⟨.spelling ['\''], .quoted '\''⟩] := rfl
  have opened : longestMatch ('\'' :: (label ++ ['\'']) ++ rest) = some ⟨.quoted '\'', 1⟩ := by
    rw [List.cons_append, longestMatch_cons kept]
    simp [longestAmong, Pattern.matchLength, List.isPrefixOf]
  refine ⟨⟨.stringLiteral, 1 + (label.length + 1), by omega⟩, ?_, rfl, ?_⟩
  · have extent : ConstructorInjection.quotedExtent '\''
        (('\'' :: (label ++ ['\'']) ++ rest).drop 1) = some (label.length + 1) := by
      rw [List.cons_append, List.drop_one, List.tail_cons, List.append_assoc]
      exact isLabel.quotedExtent rest
    rw [Piece.ofCode_of_longestMatch opened]
    simp only [Piece.ofMatch, extent]
  · simp only [List.length_cons, List.length_append, List.length_nil]
    omega

theorem segmentsLength_labels {labels : List Text} (areLabels : ∀ label ∈ labels, IsLabel label)
    (stop : rest.head?.any isClassCharacter = false) :
    segmentsLength (labels.flatMap ('\\' :: ·) ++ rest) = (labels.flatMap ('\\' :: ·)).length := by
  induction labels with
  | nil =>
      rw [List.flatMap_nil, List.nil_append, segmentsLength.eq_def]
      split
      next => exact absurd rfl (noName_of_noClass stop).2
      next => rfl
  | cons label labels ih =>
      obtain ⟨isLabel, areLabels⟩ := List.forall_mem_cons.mp areLabels
      have stopLabel : (labels.flatMap ('\\' :: ·) ++ rest).head?.any isLabelPart = false := by
        cases labels with
        | nil => exact (noName_of_noClass stop).1
        | cons => rfl
      have length := isLabel.labelLength_append stopLabel
      have positive := List.length_pos_iff.mpr isLabel.ne_nil
      rw [List.flatMap_cons, List.append_assoc, List.cons_append, segmentsLength]
      simp only [length, List.drop_left, ih areLabels]
      rw [if_neg (by omega), List.length_append, List.length_cons]

end Leads

namespace Reads

variable {tokens : List Token} {text : Text}

theorem word {label : Text} (isLabel : IsLabel label) (stop : text.head?.any isLabelPart = false)
    (noSegment : text.head? ≠ some '\\') (later : Reads .code text tokens) :
    Reads .code (label ++ text) (⟨.identifier, label, 0⟩ :: tokens) :=
  Reads.leadName (@leads_label false _ _ isLabel stop noSegment) later

/-- A blank takes the blanks behind it with it. -/
theorem blank (later : Reads .code text tokens) : Reads .code (' ' :: text) tokens := by
  have parts := @List.takeWhile_append_dropWhile _ isLineSpace text
  have blanks : ∀ character ∈ text.takeWhile isLineSpace, isLineSpace character = true :=
    List.all_eq_true.mp List.all_takeWhile
  have stop : (text.dropWhile isLineSpace).head?.any isLineSpace = false := by
    have ends := List.head?_dropWhile_not isLineSpace text
    cases behind : (text.dropWhile isLineSpace).head? with
    | none => rfl
    | some next =>
        rw [behind] at ends
        rw [Option.any_some]
        exact ends
  have behind : Reads .code (text.dropWhile isLineSpace) tokens := by
    by_cases none : text.takeWhile isLineSpace = []
    · rw [none, List.nil_append] at parts
      rwa [parts]
    · have nonempty : text ≠ [] := by
        rintro rfl
        exact none rfl
      obtain ⟨memberName, piece, more, next, rfl, reads⟩ := later.exists_piece nonempty
      obtain ⟨other, again, kind, size⟩ := @leads_blanks memberName _ _ none blanks stop
      rw [parts] at again
      cases next.symm.trans again
      have rest : text.drop (text.takeWhile isLineSpace).length = text.dropWhile isLineSpace := by
        have dropped := @List.drop_left _ (text.takeWhile isLineSpace) (text.dropWhile isLineSpace)
        rwa [parts] at dropped
      rw [size, rest, kind] at reads
      rw [kind]
      exact reads
  have leads := @leads_blanks false _ (' ' :: text.takeWhile isLineSpace) (by simp)
    (List.forall_mem_cons.mpr ⟨rfl, blanks⟩) stop
  have whole := Reads.lead leads (by simp) behind
  rw [List.cons_append, parts] at whole
  exact whole

/-- A mark that is a token by itself. -/
theorem mark {character : Char} {kind : TokenKind}
    (kept : lexicalRules.filter (·.pattern.opensWith character) =
      [⟨.spelling [character], .whole kind⟩])
    (inCode : kind ≠ .closeTag) (later : Reads .code text tokens) :
    Reads .code (character :: text) (codeOf [⟨kind, [character], 0⟩] ++ tokens) :=
  Reads.lead (@leads_mark false _ _ _ kept) inCode later

end Reads

/-- Put before code that begins afresh, the text is read as tokens like that. -/
def Carries (text : Text) (allowed : List Token → Prop) : Prop :=
  ∀ rest later, Fresh rest → Reads .code rest later →
    ∃ own, allowed own ∧ Reads .code (text ++ rest) (own ++ later)

/-- A name is not read on into the text. -/
def NoDigit (text : Text) : Prop :=
  text.head?.any Char.isDigit = false

def commaToken : Token :=
  ⟨.comma, [','], 0⟩

/-- The segments of the class that holds the name of the scope. -/
def scopeLabels : List Text :=
  ["Magento", "Store", "Model", "ScopeInterface"]

def scopeTokens : List Token :=
  [⟨.identifier, scopeLabels.flatMap ('\\' :: ·), 0⟩, ⟨.doubleColon, [':', ':'], 0⟩,
    ⟨.identifier, "SCOPE_STORE", 0⟩]

section Arguments

variable {tokens : List Token} {text : Text}

theorem reads_separated (reads : Reads .code text tokens) :
    Reads .code (", " ++ text) (commaToken :: tokens) :=
  @Reads.mark _ _ ',' .comma rfl (by simp) (Reads.blank reads)

/-- Copies behind commas. -/
theorem reads_arguments {Part : Type} {parts : List Part} {copyOf : Part → Text}
    {allowed : Part → List Token → Prop} (fresh : Fresh text) (reads : Reads .code text tokens)
    (carries : ∀ part ∈ parts, Carries (copyOf part) (allowed part)) :
    ∃ owns, List.Forall₂ allowed parts owns ∧
      Reads .code ((parts.map copyOf).flatMap (fun copy => (", " : Text) ++ copy) ++ text)
        (owns.flatMap (commaToken :: ·) ++ tokens) ∧
      Fresh ((parts.map copyOf).flatMap (fun copy => (", " : Text) ++ copy) ++ text) := by
  induction parts with
  | nil => exact ⟨[], .nil, reads, fresh⟩
  | cons part parts ih =>
      obtain ⟨carriesPart, carries⟩ := List.forall_mem_cons.mp carries
      obtain ⟨owns, allAllowed, later, freshLater⟩ := ih carries
      obtain ⟨own, isAllowed, whole⟩ := carriesPart _ _ freshLater later
      refine ⟨own :: owns, .cons isAllowed allAllowed, ?_, ?_⟩
      · rw [List.map_cons, List.flatMap_cons, List.append_assoc, List.append_assoc,
          List.flatMap_cons, List.append_assoc]
        exact reads_separated whole
      · rintro _ ⟨⟩
        rfl

theorem isLabel_of_mem_scopeLabels : ∀ label ∈ scopeLabels, IsLabel label := by
  have all : ∀ label ∈ scopeLabels,
      label.head?.any isLabelStart = true ∧ label.all isLabelPart = true := by decide
  exact fun label member => .of_all (all label member).1 (all label member).2

theorem storeScope_eq :
    storeScope = scopeLabels.flatMap ('\\' :: ·) ++ [':', ':'] ++ "SCOPE_STORE" := by
  decide

theorem reads_storeScope (fresh : Fresh text) (reads : Reads .code text tokens) :
    Reads .code (storeScope ++ text) (scopeTokens ++ tokens) := by
  have noPart : text.head?.any isLabelPart = false := fresh.head?_any (by decide)
  have noSegment : text.head? ≠ some '\\' := by
    intro begins
    exact absurd (fresh _ begins) (by decide)
  have constant := @Reads.word _ _ "SCOPE_STORE" (.of_all (by decide) (by decide)) noPart noSegment reads
  have colons := Reads.lead (@leads_doubleColon false _) (by simp) constant
  have length := @segmentsLength_labels ([':', ':'] ++ ("SCOPE_STORE" ++ text)) _
    isLabel_of_mem_scopeLabels rfl
  have leads := @leads_qualifiedName false _ _ rfl length
  have whole := Reads.lead leads (by simp) colons
  rw [← List.append_assoc, ← List.append_assoc, ← storeScope_eq] at whole
  exact whole

end Arguments

/-- An object's property. -/
def propertyTokens (name : Text) : List Token :=
  [⟨.variableName, ['$', 't', 'h', 'i', 's'], 0⟩, ⟨.objectOperator, ['-', '>'], 0⟩,
    ⟨.identifier, name, 0⟩]

/-- The call of a method on an object's property. -/
def methodCallTokens (name method : Text) (arguments : List Token) : List Token :=
  propertyTokens name ++ [⟨.objectOperator, ['-', '>'], 0⟩, ⟨.identifier, method, 0⟩,
    ⟨.openParen, ['('], 0⟩] ++ arguments ++ [⟨.closeParen, [')'], 0⟩]

/-- An array with the one key `data`. -/
def dataTokens (data : List Token) : List Token :=
  [⟨.openBracket, ['['], 0⟩, ⟨.stringLiteral, "'data'", 0⟩, ⟨.doubleArrow, ['=', '>'], 0⟩] ++ data ++
    [⟨.closeBracket, [']'], 0⟩]

/-- A list of arguments with the scope as the second one. -/
def scopedTokens (copies : List (List Token)) : List Token :=
  copies.headD [] ++ commaToken :: scopeTokens ++ (copies.drop 1).flatMap (commaToken :: ·)

namespace CallShape

/-- The code of a replacement. -/
def replacementTokens (shape : CallShape) (name : Text) (copies : List (List Token)) : List Token :=
  match shape with
  | helper | getSingleton | getResourceSingleton => propertyTokens name
  | getModel | getResourceModel =>
    methodCallTokens name "create" (copies.head?.elim [] dataTokens)
  | getStoreConfig => methodCallTokens name "getValue" (scopedTokens copies)
  | getStoreConfigFlag => methodCallTokens name "isSetFlag" (scopedTokens copies)
  | dispatchEvent => methodCallTokens name "dispatch" (copies.headD [])
  | logException => methodCallTokens name "critical" (copies.headD [])
  | log => methodCallTokens name "debug" (copies.headD [])

theorem isItem_propertyTokens (name : Text) : IsItem (propertyTokens name) := by
  apply IsItem.of_plain
  simp [propertyTokens, TokenKind.isOpener, TokenKind.closing?, TokenKind.isCloser]

theorem isAccess_methodCallTokens (name method : Text) {arguments : List Token}
    (nested : Nested arguments) : IsAccess (methodCallTokens name method arguments) := by
  have accessed : IsItem [⟨.objectOperator, ['-', '>'], 0⟩, ⟨.identifier, method, 0⟩] := by
    apply IsItem.of_plain
    simp [TokenKind.isOpener, TokenKind.closing?, TokenKind.isCloser]
  have list := @IsItem.pair _ ⟨.openParen, ['('], 0⟩ ⟨.closeParen, [')'], 0⟩ rfl nested
  have whole := (isItem_propertyTokens name).append (accessed.append list)
  have same : methodCallTokens name method arguments = propertyTokens name ++
      ([⟨.objectOperator, ['-', '>'], 0⟩, ⟨.identifier, method, 0⟩] ++
        (⟨.openParen, ['('], 0⟩ :: arguments ++ [⟨.closeParen, [')'], 0⟩])) := by
    simp [methodCallTokens]
  exact ⟨same ▸ whole, _, _, rfl, rfl⟩

theorem isItem_dataTokens {data : List Token} (nested : Nested data) : IsItem (dataTokens data) := by
  have entry : Nested (⟨.stringLiteral, "'data'", 0⟩ :: ⟨.doubleArrow, ['=', '>'], 0⟩ :: data) :=
    .plain rfl rfl (.plain rfl rfl nested)
  exact @IsItem.pair _ ⟨.openBracket, ['['], 0⟩ ⟨.closeBracket, [']'], 0⟩ rfl entry

theorem isItem_scopeTokens : IsItem scopeTokens := by
  apply IsItem.of_plain
  simp [scopeTokens, TokenKind.isOpener, TokenKind.closing?, TokenKind.isCloser]

theorem nested_separated {copies : List (List Token)} (nested : ∀ copy ∈ copies, Nested copy) :
    Nested (copies.flatMap (commaToken :: ·)) := by
  induction copies with
  | nil => exact .nil
  | cons copy copies ih =>
      obtain ⟨first, nested⟩ := List.forall_mem_cons.mp nested
      rw [List.flatMap_cons]
      exact (Nested.plain rfl rfl first).append (ih nested)

theorem nested_headD {copies : List (List Token)} (nested : ∀ copy ∈ copies, Nested copy) :
    Nested (copies.headD []) := by
  cases copies with
  | nil => exact .nil
  | cons copy copies => exact nested copy (by simp)

theorem nested_scopedTokens {copies : List (List Token)} (nested : ∀ copy ∈ copies, Nested copy) :
    Nested (scopedTokens copies) := by
  have more := @nested_separated (copies.drop 1) fun copy member =>
    nested copy (List.mem_of_mem_drop member)
  have behindFirst : Nested (commaToken :: scopeTokens) := .plain rfl rfl isItem_scopeTokens.nested
  exact ((nested_headD nested).append behindFirst).append more

/-- A replacement accesses a property of the object. -/
theorem isAccess_replacementTokens (shape : CallShape) (name : Text) {copies : List (List Token)}
    (nested : ∀ copy ∈ copies, Nested copy) : IsAccess (shape.replacementTokens name copies) := by
  cases shape
  case helper | getSingleton | getResourceSingleton =>
    exact ⟨isItem_propertyTokens name, _, _, rfl, rfl⟩
  case getModel | getResourceModel =>
    refine isAccess_methodCallTokens name _ ?_
    cases copies with
    | nil => exact .nil
    | cons data copies => exact (isItem_dataTokens (nested data (by simp))).nested
  case getStoreConfig | getStoreConfigFlag =>
    exact isAccess_methodCallTokens name _ (nested_scopedTokens nested)
  case dispatchEvent | logException | log =>
    exact isAccess_methodCallTokens name _ (nested_headD nested)

section Reading

variable {variableName rest : Text} {later : List Token} {Part : Type} {parts : List Part}
  {copyOf : Part → Text} {allowed : Part → List Token → Prop}

theorem reads_property (isLabel : IsLabel variableName) (noDigit : NoDigit rest)
    (reads : Reads .code rest later) :
    Reads .code ("$this->" ++ variableName ++ rest) (propertyTokens variableName ++ later) ∨
      BeginsName rest ∧ ∃ name behind, later = ⟨.identifier, name, 0⟩ :: behind ∧
        Reads .code ("$this->" ++ variableName ++ rest)
          (propertyTokens (variableName ++ name) ++ behind) := by
  have this : IsLabel ['t', 'h', 'i', 's'] := .of_all (by decide) (by decide)
  have accessed {tokens : List Token} (reads : Reads .code (variableName ++ rest) tokens) :
      Reads .code ("$this->" ++ variableName ++ rest)
        (⟨.variableName, ['$', 't', 'h', 'i', 's'], 0⟩ ::
          ⟨.objectOperator, ['-', '>'], 0⟩ :: tokens) := by
    have arrow := Reads.lead (@leads_arrow false _) (by simp) reads
    have whole := Reads.lead (@leads_variable false _ _ this rfl) (by simp) arrow
    rw [List.append_assoc]
    exact whole
  rcases Reads.label isLabel noDigit reads with whole | ⟨begins, name, behind, same, whole⟩
  · exact .inl (accessed whole)
  · exact .inr ⟨begins, name, behind, same, accessed whole⟩

theorem reads_methodCall {method text : Text} {tokens : List Token} (isLabel : IsLabel variableName)
    (isMethod : IsLabel method)
    (reads : Reads .code (text ++ (")" ++ rest)) (tokens ++ ⟨.closeParen, [')'], 0⟩ :: later)) :
    Reads .code ("$this->" ++ variableName ++ "->" ++ method ++ "(" ++ text ++ ")" ++ rest)
      (methodCallTokens variableName method tokens ++ later) := by
  have list := @Reads.mark _ _ '(' .openParen rfl (by simp) reads
  have arrow := Reads.lead (@leads_arrow false _) (by simp) (Reads.word isMethod rfl (by simp) list)
  rcases reads_property isLabel (rfl : NoDigit (['-', '>'] ++ _)) arrow with whole | ⟨begins, _⟩
  · simp only [methodCallTokens, List.append_assoc] at whole ⊢
    exact whole
  · contradiction

theorem fresh_closeParen (rest : Text) : Fresh (")" ++ rest) := by
  rintro _ ⟨⟩
  rfl

theorem reads_closeParen (reads : Reads .code rest later) :
    Reads .code (")" ++ rest) (⟨.closeParen, [')'], 0⟩ :: later) :=
  @Reads.mark _ _ ')' .closeParen rfl (by simp) reads

theorem reads_data {data text : Text} {tokens : List Token} {allowedData : List Token → Prop}
    (reads : Reads .code text tokens) (carries : Carries data allowedData) :
    ∃ own, allowedData own ∧
      Reads .code ("['data' => " ++ data ++ "]" ++ text) (dataTokens own ++ tokens) := by
  have closed := @Reads.mark _ _ ']' .closeBracket rfl (by simp) reads
  obtain ⟨own, isAllowed, inner⟩ := carries _ _ (by rintro _ ⟨⟩; rfl) closed
  have arrow := Reads.lead (@leads_doubleArrow false _) (by simp) (Reads.blank inner)
  have key := Reads.lead (@leads_quoted false _ ("data" : Text)
    (.of_all (by decide) (by decide))) (by simp) (Reads.blank arrow)
  have whole := @Reads.mark _ _ '[' .openBracket rfl (by simp) key
  refine ⟨own, isAllowed, ?_⟩
  simp only [dataTokens, List.append_assoc]
  exact whole

/-- The first copy, with tokens for the others. -/
theorem reads_first {text : Text} {tokens : List Token} {others : List (List Token)}
    (fresh : Fresh text) (reads : Reads .code text tokens)
    (carries : ∀ part ∈ parts, Carries (copyOf part) (allowed part))
    (allAllowed : List.Forall₂ allowed (parts.drop 1) others) :
    ∃ owns, List.Forall₂ allowed parts owns ∧ owns.drop 1 = others ∧
      Reads .code ((parts.map copyOf).headD [] ++ text) (owns.headD [] ++ tokens) := by
  cases parts with
  | nil =>
      cases allAllowed
      exact ⟨[], .nil, rfl, reads⟩
  | cons part parts =>
      obtain ⟨own, isAllowed, whole⟩ := carries part (by simp) _ _ fresh reads
      exact ⟨own :: others, .cons isAllowed allAllowed, rfl, whole⟩

theorem exists_owns (carries : ∀ part ∈ parts, Carries (copyOf part) (allowed part)) :
    ∃ owns, List.Forall₂ allowed parts owns := by
  have empty : Fresh [] := by simp [Fresh]
  obtain ⟨owns, allAllowed, _⟩ := reads_arguments empty (Reads.nil .code) carries
  exact ⟨owns, allAllowed⟩

theorem reads_forwarded (method : Text) (isLabel : IsLabel variableName) (isMethod : IsLabel method)
    (carries : ∀ part ∈ parts, Carries (copyOf part) (allowed part)) (reads : Reads .code rest later) :
    ∃ owns, List.Forall₂ allowed parts owns ∧
      Reads .code ("$this->" ++ variableName ++ "->" ++ method ++ "(" ++
          (parts.map copyOf).headD [] ++ ")" ++ rest)
        (methodCallTokens variableName method (owns.headD []) ++ later) := by
  obtain ⟨others, othersAllowed⟩ :=
    exists_owns fun part member => carries part (List.mem_of_mem_drop member)
  obtain ⟨owns, allAllowed, _, list⟩ :=
    reads_first (fresh_closeParen rest) (reads_closeParen reads) carries othersAllowed
  exact ⟨owns, allAllowed, reads_methodCall isLabel isMethod list⟩

theorem reads_configured (method : Text) (isLabel : IsLabel variableName) (isMethod : IsLabel method)
    (carries : ∀ part ∈ parts, Carries (copyOf part) (allowed part)) (reads : Reads .code rest later) :
    ∃ owns, List.Forall₂ allowed parts owns ∧
      Reads .code ("$this->" ++ variableName ++ "->" ++ method ++ "(" ++ (parts.map copyOf).headD [] ++
          ", " ++ storeScope ++
          ((parts.map copyOf).drop 1).flatMap (fun copy => (", " : Text) ++ copy) ++ ")" ++ rest)
        (methodCallTokens variableName method (scopedTokens owns) ++ later) := by
  obtain ⟨others, othersAllowed, more, freshMore⟩ := reads_arguments (fresh_closeParen rest)
    (reads_closeParen reads) fun part member => carries part (List.mem_of_mem_drop member)
  rw [List.map_drop] at more freshMore
  have behindFirst := reads_separated (reads_storeScope freshMore more)
  obtain ⟨owns, allAllowed, rfl, list⟩ :=
    reads_first (by rintro _ ⟨⟩; rfl) behindFirst carries othersAllowed
  refine ⟨owns, allAllowed, ?_⟩
  have whole := @reads_methodCall variableName rest later _
    ((parts.map copyOf).headD [] ++ ", " ++ storeScope ++
      ((parts.map copyOf).drop 1).flatMap (fun copy => (", " : Text) ++ copy)) (scopedTokens owns)
    isLabel isMethod (by simpa only [scopedTokens, List.append_assoc, List.cons_append] using list)
  simpa only [List.append_assoc] using whole

theorem reads_created (isLabel : IsLabel variableName) (reads : Reads .code rest later) :
    Reads .code ("$this->" ++ variableName ++ "->create()" ++ rest)
      (methodCallTokens variableName "create" [] ++ later) := by
  have spelled : ("->create()" : Text) = "->" ++ "create" ++ "(" ++ ")" := by decide
  have whole := @reads_methodCall variableName rest later "create" [] [] isLabel
    (.of_all (by decide) (by decide)) (reads_closeParen reads)
  simp only [spelled, List.append_assoc, List.nil_append] at whole ⊢
  exact whole

theorem reads_createdWith {data : Text} {allowedData : List Token → Prop}
    (isLabel : IsLabel variableName) (carries : Carries data allowedData)
    (reads : Reads .code rest later) :
    ∃ own, allowedData own ∧
      Reads .code ("$this->" ++ variableName ++ "->create(['data' => " ++ data ++ "])" ++ rest)
        (methodCallTokens variableName "create" (dataTokens own) ++ later) := by
  have spelled : ("->create(['data' => " : Text) = "->" ++ "create" ++ "(" ++ "['data' => " := by
    decide
  have ending : ("])" : Text) = "]" ++ ")" := by decide
  obtain ⟨own, isAllowed, list⟩ := reads_data (reads_closeParen reads) carries
  have whole := @reads_methodCall variableName rest later "create" _ _ isLabel
    (.of_all (by decide) (by decide)) list
  refine ⟨own, isAllowed, ?_⟩
  simp only [spelled, ending, List.append_assoc] at whole ⊢
  exact whole

/-- A replacement is read as its tokens, of which the last one may go on with a name behind it. -/
theorem reads_replacement (shape : CallShape) (isLabel : IsLabel variableName)
    (carries : ∀ part ∈ parts, Carries (copyOf part) (allowed part)) (noDigit : NoDigit rest)
    (reads : Reads .code rest later) :
    ∃ owns, List.Forall₂ allowed parts owns ∧
      (Reads .code (shape.replacement variableName (parts.map copyOf) ++ rest)
          (shape.replacementTokens variableName owns ++ later) ∨
        BeginsName rest ∧ ∃ name behind, later = ⟨.identifier, name, 0⟩ :: behind ∧
          Reads .code (shape.replacement variableName (parts.map copyOf) ++ rest)
            (shape.replacementTokens (variableName ++ name) owns ++ behind)) := by
  cases shape
  case helper | getSingleton | getResourceSingleton =>
    obtain ⟨owns, allAllowed⟩ := exists_owns carries
    exact ⟨owns, allAllowed, reads_property isLabel noDigit reads⟩
  case dispatchEvent =>
    obtain ⟨owns, allAllowed, whole⟩ :=
      reads_forwarded "dispatch" isLabel (.of_all (by decide) (by decide)) carries reads
    exact ⟨owns, allAllowed, .inl whole⟩
  case logException =>
    obtain ⟨owns, allAllowed, whole⟩ :=
      reads_forwarded "critical" isLabel (.of_all (by decide) (by decide)) carries reads
    exact ⟨owns, allAllowed, .inl whole⟩
  case log =>
    obtain ⟨owns, allAllowed, whole⟩ :=
      reads_forwarded "debug" isLabel (.of_all (by decide) (by decide)) carries reads
    exact ⟨owns, allAllowed, .inl whole⟩
  case getStoreConfig =>
    obtain ⟨owns, allAllowed, whole⟩ :=
      reads_configured "getValue" isLabel (.of_all (by decide) (by decide)) carries reads
    exact ⟨owns, allAllowed, .inl whole⟩
  case getStoreConfigFlag =>
    obtain ⟨owns, allAllowed, whole⟩ :=
      reads_configured "isSetFlag" isLabel (.of_all (by decide) (by decide)) carries reads
    exact ⟨owns, allAllowed, .inl whole⟩
  case getModel | getResourceModel =>
    cases parts with
    | nil => exact ⟨[], .nil, .inl (reads_created isLabel reads)⟩
    | cons data others =>
      obtain ⟨owns, othersAllowed⟩ :=
        exists_owns fun part member => carries part (List.mem_cons_of_mem data member)
      obtain ⟨own, isAllowed, whole⟩ := reads_createdWith isLabel (carries data (by simp)) reads
      exact ⟨own :: owns, .cons isAllowed othersAllowed, .inl whole⟩

end Reading

end CallShape

end ConstructorInjection
