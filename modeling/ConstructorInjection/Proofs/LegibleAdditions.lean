import Mathlib.Data.List.Basic
import Mathlib.Tactic.Common
import ConstructorInjection.Proofs.LegibleReplacements
import ConstructorInjection.Proofs.Respacing

/-!
Generated code among the tokens around it. It is put behind a mark and code without tags, and it ends
in a mark, or in a variable that no name goes on with. So the stream is read with it, up to how blanks
are cut.
-/

namespace ConstructorInjection

/-- A token in front of a text that it ends before, wherever it stands: a mark, or a variable that the
text does not go on with. -/
inductive Token.Ends (token : Token) (copy : Text) : Prop where
  | sign (isSign : token.kind.sign?.isSome = true)
  | named {label : Text} (isLabel : IsLabel label) (isVariable : token.kind = .variableName)
      (text : token.text = '$' :: label) (stop : copy.head?.any isLabelPart = false)

namespace Legible

variable {source copy : Text} {mode : LexMode} {memberName : Bool} {front blanks tokens : List Token}
  {last : Token}

theorem remember_of_significant (legible : Legible source mode memberName tokens)
    (qualified : ∀ pair ∈ (significant tokens).head?,
      pair.1.isWord = true → pair.1 = .qualifiedName) (other : Bool) :
    Legible source mode other tokens := by
  refine legible.remember (fun token first => ?_) other
  refine qualified (token.kind, token.text) ?_
  rw [significant, List.head?_map, List.head?_filter, first]
  rfl

theorem spaces_of_white (legible : Legible source mode memberName blanks)
    (white : ∀ blank ∈ blanks, blank.kind = .whitespace) : Spaces (textOf blanks) := by
  induction blanks generalizing mode memberName with
  | nil => simp [Spaces, textOf]
  | cons blank blanks ih =>
      obtain ⟨isBlank, whiteLater⟩ := List.forall_mem_cons.mp white
      have isRead := legible.isRead (by rw [isBlank]; exact TokenKind.noConfusion)
      have isCode := isRead.mode_of_isMarkup (by rw [isBlank]; rfl)
      rw [isCode] at isRead
      rw [textOf_cons]
      exact (isRead.spaces isBlank).append (ih legible.tail whiteLater)

/-- Code that ends in a mark, or in a variable, is read in front of another text, as code that has no
member to be named behind it. -/
theorem front_of_ends (legible : Legible source mode memberName (front ++ [last]))
    (ends : last.Ends copy) :
    Legible copy mode memberName (front ++ [last]) ∧ modeBehind mode (front ++ [last]) = .code ∧
      memberNameBehind memberName (front ++ [last]) = false := by
  have isCode (noMarkup : last.kind.isMarkup = false) (noAttribute : last.kind ≠ .attributeStart) :
      modeBehind mode front = .code :=
    (legible.isRead_last noAttribute).mode_of_isMarkup noMarkup
  rw [modeBehind_concat, memberNameBehind, List.foldl_append]
  cases ends with
  | sign isSign =>
      obtain ⟨sign, isSign⟩ := Option.isSome_iff_exists.mp isSign
      have plain := TokenKind.plain_of_sign isSign
      rw [isCode plain.1 plain.2.2.2.2.1]
      exact ⟨legible.front_of_sign isSign, TokenKind.after_of_sign isSign,
        memberNameAfter_of_sign isSign _ _⟩
  | @named label isLabel isVariable text stop =>
      have inCode := isCode (by rw [isVariable]; rfl) (by rw [isVariable]; exact TokenKind.noConfusion)
      obtain ⟨ahead, _⟩ := append_iff.mp legible
      have fresh (behind : Text) : Fresh (textOf [last] ++ behind) := by
        rw [textOf_cons, text]
        rintro _ ⟨⟩
        rfl
      have isInked : Inked (textOf [last] ++ source) :=
        .of_fresh (by rw [textOf_cons, text]; exact List.cons_ne_nil _ _) (fresh source)
      rw [inCode, isVariable]
      refine ⟨append_iff.mpr ⟨ahead.front_of_fresh inCode isInked (fresh copy), ?_⟩, rfl, ?_⟩
      · rw [inCode]
        refine .plain (by rw [isVariable]; exact TokenKind.noConfusion) ?_ .nil
        have leads := @leads_variable (memberNameBehind memberName front) copy label isLabel stop
        rw [Token.IsRead, text, isVariable]
        exact leads
      · rw [List.foldl_cons, isVariable]
        rfl

end Legible

/-- Generated code that may be put in front of a text: it ends where its last token does, with blanks
behind that. -/
structure Addition (tokens : List Token) (copy : Text) : Prop where
  legible : Legible [] .code false tokens
  nested : Nested tokens
  ends : ∃ front last blanks, tokens = front ++ last :: blanks ∧ last.Ends copy ∧
    ∀ blank ∈ blanks, blank.kind = .whitespace

/-- An addition is read in front of code with no member to be named, up to the blanks between the
two. -/
theorem Addition.exists_read {tokens behind : List Token} (addition : Addition tokens (textOf behind))
    (legible : Legible [] .code false behind) :
    ∃ read, Respaced (tokens ++ behind) read ∧ Legible [] .code false read := by
  obtain ⟨front, last, blanks, rfl, ends, white⟩ := addition.ends
  have whole := addition.legible
  rw [List.append_cons] at whole
  obtain ⟨ahead, legibleBlanks⟩ := Legible.append_iff.mp whole
  have spaces := legibleBlanks.spaces_of_white white
  obtain ⟨read, respaced, again⟩ := legible.exists_respaced_blanks white spaces
  have endsRead : last.Ends (textOf read) := by
    cases ends with
    | sign isSign => exact .sign isSign
    | named isLabel isVariable text stop =>
        refine .named isLabel isVariable text ?_
        rw [respaced.text, textOf_append]
        exact spaces.stop stop
  obtain ⟨moved, isCode, memory⟩ := ahead.front_of_ends endsRead
  refine ⟨front ++ [last] ++ read, ?_, Legible.append_iff.mpr ⟨?_, ?_⟩⟩
  · rw [List.append_cons, List.append_assoc (front ++ [last])]
    exact respaced.behind _
  · rwa [List.append_nil]
  · rwa [isCode, memory]

section Generated

variable {tokens : List Token} {copy : Text} {dependencies : List Dependency}

theorem PlainCode.addition {front blanks : List Token} {last : Token}
    (plain : PlainCode (front ++ [last])) (legible : Legible [] .code false (front ++ last :: blanks))
    (ends : last.Ends copy) (white : ∀ blank ∈ blanks, blank.kind = .whitespace) :
    Addition (front ++ last :: blanks) copy where
  legible := legible
  nested := by
    rw [List.append_cons]
    exact plain.nested.append (Blank.of_whitespace white).plainCode.nested
  ends := ⟨front, last, blanks, rfl, ends, white⟩

theorem plainComma : PlainCode [⟨.comma, [','], 0⟩] :=
  PlainCode.singleton (by decide)

theorem ends_semicolon : Token.Ends ⟨.semicolon, [';'], 0⟩ copy :=
  .sign rfl

theorem Dependency.Writable.ends {dependency : Dependency} (writable : dependency.Writable)
    (stop : copy.head?.any isLabelPart = false) : dependency.variableToken.Ends copy :=
  .named writable.label rfl rfl stop

theorem addition_properties {stream : TokenStream} {declaration : ClassDeclaration}
    {indent lineEnding : Text} (writable : ∀ dependency ∈ dependencies, dependency.Writable)
    (nonempty : dependencies ≠ []) (spacesIndent : Spaces indent) (spacesEnding : Spaces lineEnding)
    (generated : generate (classHeadText stream declaration
      (dependencies.map (·.propertyText indent lineEnding)) lineEnding) = .ok tokens) :
    Addition tokens copy := by
  have legible := (scans_of_generate generated).legible
  obtain ⟨front, blanks, rfl, plain, _, white⟩ :=
    properties_of_generate writable nonempty spacesIndent spacesEnding generated
  exact (plain.append plainSemicolon).addition legible ends_semicolon white

theorem MethodHead.nested {marker : Text} {head : List Token} (method : MethodHead marker head) :
    Nested head := by
  obtain ⟨function, rest, rfl, isFunction, plain⟩ := method.exists_cons
  rw [Token.isKeyword, Bool.and_eq_true, beq_iff_eq] at isFunction
  refine .plain (by rw [isFunction.1]; rfl) (by rw [isFunction.1]; rfl) ?_
  exact .of_plain fun token member => (plain token member).2

theorem ConstructorTokens.addition {properties parameters assignments : List Dependency}
    (parts : ConstructorTokens properties parameters assignments tokens)
    (legible : Legible [] .code false tokens) : Addition tokens copy where
  legible := legible
  nested := by
    cases parts with
    | mk plain _ method series blank nested _ white =>
        refine plain.nested.append (method.nested.append (.pair rfl series.plainCode.nested ?_))
        refine blank.plainCode.nested.append (.pair rfl nested ?_)
        exact (Blank.of_whitespace white).plainCode.nested
  ends := by
    cases parts with
    | @mk front head list between body behind _ _ _ _ _ _ _ white =>
        refine ⟨front ++ (head ++ ⟨.openParen, ['('], 0⟩ :: (list ++ ⟨.closeParen, [')'], 0⟩ ::
          (between ++ ⟨.openBrace, ['\x7b'], 0⟩ :: body))), ⟨.closeBrace, ['\x7d'], 0⟩, behind,
          by simp, .sign rfl, white⟩

theorem AssignmentSeries.head?_significant (series : AssignmentSeries dependencies tokens)
    (nonempty : dependencies ≠ []) (rest : List Token) :
    (significant (tokens ++ rest)).head? = some (TokenKind.variableName, ("$this" : Text)) := by
  cases series with
  | nil => contradiction
  | cons blank assignment later =>
      cases assignment with
      | mk _ _ =>
          simp only [List.append_assoc, List.cons_append]
          rw [ConstructorInjection.head?_significant blank rfl]

theorem ParameterSeries.head?_significant (series : ParameterSeries dependencies tokens) :
    ∃ name, (significant tokens).head? = some (TokenKind.qualifiedName, name) := by
  cases series with
  | last blank parameter _ | more blank parameter _ _ =>
      cases parameter with
      | mk _ =>
          simp only [List.append_assoc, List.cons_append]
          exact ⟨_, ConstructorInjection.head?_significant blank rfl⟩

theorem addition_assignments {separator ending : Text} (nonempty : dependencies ≠ [])
    (writable : ∀ dependency ∈ dependencies, dependency.Writable) (spacesSeparator : Spaces separator)
    (spacesEnding : Spaces ending)
    (generated : generate ((dependencies.flatMap fun dependency =>
      separator ++ dependency.assignmentText) ++ ending) = .ok tokens) :
    Addition tokens copy ∧
      (significant tokens).head? = some (TokenKind.variableName, ("$this" : Text)) := by
  have scans := scans_of_generate generated
  have legible := scans.legible
  obtain ⟨statements, blanks, rfl, series, behind⟩ := scans.assignments writable spacesSeparator
  refine ⟨?_, series.head?_significant nonempty blanks⟩
  obtain ⟨front, rfl⟩ := series.exists_front nonempty
  have plain := series.plainCode
  rw [List.append_assoc] at legible ⊢
  exact plain.addition legible ends_semicolon (behind.ending spacesEnding)

variable {first : Dependency} {others : List Dependency} {separator : Text}

theorem addition_parametersBehind (writable : ∀ dependency ∈ first :: others, dependency.Writable)
    (spaces : Spaces separator) (stop : copy.head?.any isLabelPart = false)
    (generated : generate ((',' :: separator) ++ parametersText separator first others) =
      .ok tokens) : Addition tokens copy := by
  have legible := (scans_of_generate generated).legible
  obtain ⟨_, rfl, series, front, last, isLast, rfl⟩ :=
    scans_parametersBehind writable spaces generated
  have plain : PlainCode (⟨.comma, [','], 0⟩ :: front ++ [last.variableToken]) :=
    @PlainCode.append [_] _ plainComma series.plainCode
  exact plain.addition legible ((writable last isLast).ends stop) (by simp)

theorem addition_parametersBefore (writable : ∀ dependency ∈ first :: others, dependency.Writable)
    (spaces : Spaces separator)
    (generated : generate (parametersText separator first others ++ (',' :: separator)) =
      .ok tokens) : Addition tokens copy := by
  have legible := (scans_of_generate generated).legible
  obtain ⟨_, blanks, rfl, series, white⟩ := scans_parametersBefore writable spaces generated
  exact (series.plainCode.append plainComma).addition legible (.sign rfl) white

theorem addition_parametersAlone {ending : Text}
    (writable : ∀ dependency ∈ first :: others, dependency.Writable) (spaces : Spaces separator)
    (spacesEnding : Spaces ending) (stop : copy.head?.any isLabelPart = false)
    (generated : generate (separator ++ (parametersText separator first others ++ ending)) =
      .ok tokens) :
    Addition tokens copy ∧ ∃ name, (significant tokens).head? = some (TokenKind.qualifiedName, name) := by
  have legible := (scans_of_generate generated).legible
  obtain ⟨series, front, last, isLast, blanks, rfl, white⟩ :=
    scans_parametersAlone writable spaces spacesEnding generated
  exact ⟨⟨legible, series.plainCode.nested, front, _, blanks, rfl,
    (writable last isLast).ends stop, white⟩, series.head?_significant⟩

end Generated

/-- Behind a mark, and up to it, a stream is read by itself. -/
theorem Legible.at_mark {stream : TokenStream} {start anchor : Nat} {mode : LexMode}
    {memberName : Bool} {mark : Token} (legible : Legible [] mode memberName (stream.drop start))
    (lower : start ≤ anchor) (found : stream[anchor]? = some mark)
    (isMark : mark.kind.sign?.isSome = true) :
    (∀ copy, Legible copy mode memberName (stream.slice ⟨start, anchor + 1⟩)) ∧
      modeBehind mode (stream.slice ⟨start, anchor + 1⟩) = .code ∧
      memberNameBehind memberName (stream.slice ⟨start, anchor + 1⟩) = false ∧
      Legible [] .code false (stream.drop (anchor + 1)) := by
  rw [← TokenStream.slice_append_drop stream (Nat.le_succ_of_le lower)] at legible
  obtain ⟨ahead, behind⟩ := append_iff.mp legible
  rw [TokenStream.slice_succ lower found] at ahead behind ⊢
  have moved (copy : Text) := @front_of_ends _ copy _ _ _ _ ahead (.sign isMark)
  obtain ⟨-, isCode, memory⟩ := moved []
  rw [isCode, memory] at behind
  exact ⟨fun copy => (moved copy).1, isCode, memory, behind⟩

namespace Edit

/-- An edit that adds code behind a mark, the anchor, and behind code without tags there. It can be
read with whatever begins like what stood behind it. -/
structure Sits (stream : TokenStream) (anchor : Nat) (edit : Edit) : Prop where
  nested : Nested edit.replacement
  behind : anchor < edit.range.start
  mark : ∃ token, stream[anchor]? = some token ∧ token.kind.sign?.isSome = true
  tagless : Tagless (stream.slice ⟨anchor + 1, edit.range.stop⟩)
  memory : memberNameBehind false (stream.slice ⟨anchor + 1, edit.range.stop⟩) = false ∨
    ∀ pair ∈ (significant (stream.drop edit.range.stop)).head?, pair.1.isWord = false
  reads : ∀ rest, Legible [] .code false rest →
    (textOf rest).head? = (textOf (stream.drop edit.range.stop)).head? →
      ∃ read, Respaced (stream.slice ⟨anchor + 1, edit.range.start⟩ ++ (edit.replacement ++ rest))
        read ∧ Legible [] .code false read

/-- Edits from left to right, each behind its own anchor and this not before the edit in front. -/
inductive Seated (stream : TokenStream) : Nat → List Edit → Prop where
  | nil {start : Nat} : Seated stream start []
  | cons {start anchor : Nat} {edit : Edit} {edits : List Edit} (lower : start ≤ anchor)
      (sits : edit.Sits stream anchor) (later : Seated stream edit.range.stop edits) :
      Seated stream start (edit :: edits)

variable {stream : TokenStream} {edits : List Edit}

namespace Seated

theorem forall_nested {start : Nat} (seated : Seated stream start edits) :
    ∀ edit ∈ edits, Nested edit.replacement := by
  induction seated with
  | nil => simp
  | cons _ sits _ ih => exact List.forall_mem_cons.mpr ⟨sits.nested, ih⟩

theorem lower {start earlier : Nat} (seated : Seated stream start edits) (ordered : earlier ≤ start) :
    Seated stream earlier edits := by
  cases seated with
  | nil => exact .nil
  | cons lower sits later => exact .cons (Nat.le_trans ordered lower) sits later

end Seated

theorem exists_read_rebuilt {start : Nat} {mode : LexMode} {memberName : Bool}
    (seated : Seated stream start edits) (inOrder : InOrder edits stream)
    (legible : Legible [] mode memberName (stream.drop start)) :
    ∃ read, Respaced (rebuilt stream start edits) read ∧ Legible [] mode memberName read ∧
      (textOf read).head? = (textOf (stream.drop start)).head? ∧
      (significant read).head? = (significant (stream.drop start)).head? := by
  induction seated generalizing mode memberName with
  | nil => exact ⟨_, .refl _, legible, rfl, rfl⟩
  | @cons start anchor edit edits lower sits later ih =>
      obtain ⟨ordered, inside⟩ := inOrder.proper edit (by simp)
      have behind := sits.behind
      obtain ⟨mark, found, isMark⟩ := sits.mark
      obtain ⟨ahead, isCode, memory, behindMark⟩ := legible.at_mark lower found isMark
      have marked := TokenStream.slice_succ lower found
      have whole : stream.drop start =
          stream.slice ⟨start, anchor + 1⟩ ++ stream.drop (anchor + 1) :=
        (stream.slice_append_drop (Nat.le_succ_of_le lower)).symm
      have cut : stream.slice ⟨start, edit.range.start⟩ =
          stream.slice ⟨start, anchor + 1⟩ ++ stream.slice ⟨anchor + 1, edit.range.start⟩ :=
        (stream.slice_append_slice (Nat.le_succ_of_le lower) behind).symm
      have upTo : anchor + 1 ≤ edit.range.stop := Nat.le_trans behind ordered
      rw [← stream.slice_append_drop upTo] at behindMark
      obtain ⟨chunk, behindEdit⟩ := Legible.append_iff.mp behindMark
      rw [chunk.modeBehind_of_tagless sits.tagless] at behindEdit
      obtain ⟨rest, respaced, again, sameHead, sameFirst⟩ := ih inOrder.tail behindEdit
      have forgetful : Legible [] .code false rest := by
        rcases sits.memory with forgets | noWord
        · rwa [forgets] at again
        · refine again.remember_of_significant (fun pair first isWord => ?_) false
          rw [noWord pair (sameFirst ▸ first)] at isWord
          contradiction
      obtain ⟨read, respacedRead, legibleRead⟩ := sits.reads rest forgetful sameHead
      have someText : textOf (stream.slice ⟨start, anchor + 1⟩) ≠ [] :=
        (ahead []).textOf_ne_nil (by simp [marked])
      have someCode : significant (stream.slice ⟨start, anchor + 1⟩) ≠ [] := by
        obtain ⟨sign, isSign⟩ := Option.isSome_iff_exists.mp isMark
        rw [marked, significant_append, significant, significant, List.filter_cons_of_pos]
        · simp
        · simp [Token.isTrivia, (TokenKind.plain_of_sign isSign).2.1]
      refine ⟨stream.slice ⟨start, anchor + 1⟩ ++ read, ?_, Legible.append_iff.mpr ⟨ahead _, ?_⟩,
        ?_, ?_⟩
      · rw [rebuilt, cut]
        refine (respaced.behind _).trans ?_
        rw [List.append_assoc, List.append_assoc (stream.slice ⟨start, anchor + 1⟩)]
        exact respacedRead.behind _
      · rwa [isCode, memory]
      · rw [whole, textOf_append, textOf_append, List.head?_append_of_ne_nil _ someText,
          List.head?_append_of_ne_nil _ someText]
      · rw [whole, significant_append, significant_append, List.head?_append_of_ne_nil _ someCode,
          List.head?_append_of_ne_nil _ someCode]

end Edit

end ConstructorInjection
