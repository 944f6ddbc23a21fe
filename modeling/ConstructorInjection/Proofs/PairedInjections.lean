import Mathlib.Data.List.Basic
import Mathlib.Tactic.Common
import ConstructorInjection.Proofs.PairedReplacements

/-!
Injected code keeps the line breaks of a stream that breaks its lines with a carriage return and a
line feed: every generated line is broken like this, and no line is put directly behind a carriage
return.
-/

namespace ConstructorInjection

open Text (returnsBehind)

namespace Text

/-- The line break that has a carriage return. -/
def returnFeed : Text :=
  ['\r', '\n']

theorem returnsBehind_returnFeed : returnsBehind 0 returnFeed = some 0 :=
  rfl

theorem returnsBehind_flatMap {α : Type} {parts : List α} {text : α → Text}
    (read : ∀ part ∈ parts, returnsBehind 0 (text part) = some 0) :
    returnsBehind 0 (parts.flatMap text) = some 0 := by
  induction parts with
  | nil => rfl
  | cons part parts ih =>
      obtain ⟨first, later⟩ := List.forall_mem_cons.mp read
      rw [List.flatMap_cons]
      exact returnsBehind_trans first (ih later)

theorem Settled.joinWith {separator : Text} {lines : List Text} {behind : Nat}
    (nonempty : lines ≠ []) (read : returnsBehind 0 separator = some behind) (settled : ∀ line ∈ lines, Settled line) :
    Settled (Text.joinWith separator lines) := by
  induction lines with
  | nil => contradiction
  | cons first rest ih =>
      obtain ⟨settledFirst, settledRest⟩ := List.forall_mem_cons.mp settled
      cases rest with
      | nil => exact settledFirst
      | cons second rest =>
          rw [Text.joinWith, List.append_assoc]
          · exact settledFirst.around read (ih (by simp) settledRest)
          · simp

end Text

section Texts

theorem Dependency.Writable.unbroken {dependency : Dependency} (writable : dependency.Writable) :
    Text.Unbroken dependency.variableName ∧ Text.Unbroken dependency.className :=
  ⟨writable.label.unbroken, .of_all writable.characters (by decide) (by decide)⟩

variable {dependency : Dependency} {indent : Text}

theorem settled_parameterText (writable : dependency.Writable) :
    Text.Settled dependency.parameterText := by
  obtain ⟨name, className⟩ := writable.unbroken
  exact .of_unbroken ((className.append (by constructor <;> decide)).append name)
    (List.append_ne_nil_of_right_ne_nil _ writable.label.ne_nil)

theorem settled_assignmentText (writable : dependency.Writable) :
    Text.Settled dependency.assignmentText := by
  have name := writable.unbroken.1
  have arrow : Text.Unbroken ("$this->" : Text) := by constructor <;> decide
  have sign : Text.Unbroken (" = $" : Text) := by constructor <;> decide
  have stop : Text.Unbroken (";" : Text) := by constructor <;> decide
  exact .of_unbroken ((((arrow.append name).append sign).append name).append stop)
    (List.append_ne_nil_of_right_ne_nil _ (by decide))

theorem settled_propertyText (writable : dependency.Writable) (noFeed : '\n' ∉ indent) :
    Text.Settled (dependency.propertyText indent Text.returnFeed) := by
  obtain ⟨name, className⟩ := writable.unbroken
  have comment : Text.Settled ("/** @var " ++ (dependency.className ++ " */")) := by
    have opening : Text.Unbroken ("/** @var " : Text) := by constructor <;> decide
    have closing : Text.Unbroken (" */" : Text) := by constructor <;> decide
    exact .of_unbroken (opening.append (className.append closing))
      (List.append_ne_nil_of_left_ne_nil (by decide) _)
  have property : Text.Settled ("protected $" ++ (dependency.variableName ++ ";")) := by
    have opening : Text.Unbroken ("protected $" : Text) := by constructor <;> decide
    have stop : Text.Unbroken (";" : Text) := by constructor <;> decide
    exact .of_unbroken (opening.append (name.append stop))
      (List.append_ne_nil_of_left_ne_nil (by decide) _)
  have whole := (Text.Settled.prepend noFeed comment).around Text.returnsBehind_returnFeed
    (Text.Settled.prepend noFeed property)
  simpa only [Dependency.propertyText, List.append_assoc] using whole

theorem settled_of_mem_withCommas {texts : List Text} {line : Text}
    (settled : ∀ text ∈ texts, Text.Settled text) (member : line ∈ withCommas texts) :
    Text.Settled line := by
  induction texts with
  | nil => contradiction
  | cons first rest ih =>
      obtain ⟨settledFirst, settledRest⟩ := List.forall_mem_cons.mp settled
      cases rest with
      | nil =>
          rw [withCommas, List.mem_singleton] at member
          rwa [member]
      | cons second rest =>
          rw [withCommas] at member
          · rcases List.mem_cons.mp member with rfl | later
            · exact settledFirst.append (.of_unbroken (by constructor <;> decide) (by decide))
            · exact ih settledRest later
          · simp

theorem settled_constructorText {plan : InjectionPlan} {options : InjectionOptions}
    (writableParameters : ∀ dependency ∈ plan.parameters, dependency.Writable)
    (writableAssignments : ∀ dependency ∈ plan.assignments, dependency.Writable)
    (noFeed : '\n' ∉ options.indent) (noFeedMarker : '\n' ∉ options.marker) :
    Text.Settled (constructorText plan options Text.returnFeed) := by
  have noFeedInner : '\n' ∉ options.indent ++ options.indent := List.not_mem_append noFeed noFeed
  unfold constructorText
  refine Text.Settled.joinWith (by simp) Text.returnsBehind_returnFeed ?_
  intro line member
  simp only [List.mem_append, List.mem_singleton, List.mem_map] at member
  rcases member with ((((rfl | ⟨text, inList, rfl⟩) | rfl) | isCall) | ⟨dependency, new, rfl⟩) | rfl
  · have parenthesis : Text.Settled ("(" : Text) :=
      .of_unbroken (by constructor <;> decide) (by decide)
    exact .prepend (List.not_mem_append (List.not_mem_append noFeed (by decide)) noFeedMarker)
      parenthesis
  · refine .prepend noFeedInner (settled_of_mem_withCommas ?_ inList)
    intro text isParameter
    obtain ⟨dependency, new, rfl⟩ := List.mem_map.mp isParameter
    exact settled_parameterText (writableParameters dependency new)
  · exact .prepend noFeed (.of_unbroken (by constructor <;> decide) (by decide))
  · split at isCall
    · rw [List.mem_singleton.mp isCall]
      have call : Text.Settled ("();" : Text) :=
        .of_unbroken (by constructor <;> decide) (by decide)
      exact .prepend (List.not_mem_append (List.not_mem_append noFeedInner (by decide))
        noFeedMarker) call
    · contradiction
  · exact .prepend noFeedInner (settled_assignmentText (writableAssignments dependency new))
  · exact .prepend noFeed (.of_unbroken (by constructor <;> decide) (by decide))

theorem returnsBehind_classHeadText (stream : TokenStream) (declaration : ClassDeclaration)
    {blocks : List Text} (settled : ∀ block ∈ blocks, Text.Settled block) :
    returnsBehind 0 (classHeadText stream declaration blocks Text.returnFeed) = some 0 := by
  rcases List.eq_nil_or_concat' blocks with rfl | ⟨front, last, rfl⟩
  · rw [classHeadText, List.flatMap_nil, List.take_nil, ite_self]
    rfl
  · obtain ⟨settledFront, settledLast⟩ := List.forall_mem_append.mp settled
    obtain ⟨ending, isEnding, whole⟩ :=
      classHeadText_eq stream declaration front last Text.returnFeed
    have readEnding : returnsBehind 0 ending = some 0 := by
      rcases isEnding with rfl | rfl <;> rfl
    rw [whole]
    refine Text.returnsBehind_trans (Text.returnsBehind_flatMap fun block member => ?_)
      (Text.returnsBehind_trans Text.returnsBehind_returnFeed
        (Text.returnsBehind_trans (settledLast last (by simp) 0) readEnding))
    exact Text.returnsBehind_trans
      (Text.returnsBehind_trans Text.returnsBehind_returnFeed (settledFront block member 0))
      Text.returnsBehind_returnFeed

end Texts

namespace TokenStream

theorem newline_mem_lineEnding (stream : TokenStream) : '\n' ∈ stream.lineEnding := by
  unfold lineEnding
  split
  · split <;> decide
  · decide

theorem newline_notMem_indentBefore? {stream : TokenStream} {index : Nat} {indent : Text}
    (found : stream.indentBefore? index = some indent) : '\n' ∉ indent := by
  cases index with
  | zero => contradiction
  | succ before =>
      rw [indentBefore?, Option.bind_eq_some_iff] at found
      obtain ⟨token, _, isIndent⟩ := found
      rw [Token.lineIndent?] at isIndent
      split at isIndent
      · cases isIndent
        intro member
        simpa using List.all_eq_true.mp List.all_takeWhile _ (List.mem_reverse.mp member)
      · contradiction

theorem newline_notMem_indentOr (stream : TokenStream) (index : Nat) {otherwise : Text}
    (noFeed : '\n' ∉ otherwise) : '\n' ∉ (stream.indentBefore? index).getD otherwise := by
  cases found : stream.indentBefore? index with
  | none => exact noFeed
  | some indent => exact newline_notMem_indentBefore? found

/-- Two indices with an opener and a closer. -/
structure Delimited (stream : TokenStream) (opening closing : Nat) : Prop where
  ordered : opening < closing
  opener : ∃ opener, stream[opening]? = some opener ∧ opener.kind.isOpener = true
  closer : ∃ closer, stream[closing]? = some closer ∧ closer.kind.isCloser = true

theorem Delimited.inside {stream : TokenStream} {opening closing : Nat}
    (delimited : stream.Delimited opening closing) : closing < stream.length := by
  obtain ⟨closer, found, _⟩ := delimited.closer
  exact (List.getElem?_eq_some_iff.mp found).1

theorem delimited_of_matchingClose? {stream : TokenStream} {opening closing : Nat}
    (closed : stream.matchingClose? opening = some closing) : stream.Delimited opening closing := by
  obtain ⟨opener, inner, closer, rest, cut, rfl, opens, closes, _⟩ :=
    matchingClose?_eq_some_iff.mp closed
  refine ⟨by omega, ⟨opener, (drop_eq_cons_iff.mp cut).1, opens⟩, closer, ?_, closes⟩
  rw [Nat.add_assoc, Nat.add_comm 1]
  exact getElem?_of_drop_eq cut

theorem delimited_of_findClass? {stream : TokenStream} {declaration : ClassDeclaration}
    (found : stream.findClass? = some declaration) :
    stream.Delimited declaration.bodyOpen declaration.bodyClose := by
  simp only [findClass?, Option.bind_eq_bind, Option.bind_eq_some_iff, Option.pure_def,
    Option.some.injEq] at found
  obtain ⟨keyword, _, bodyOpen, _, bodyClose, closes, rfl⟩ := found
  exact delimited_of_matchingClose? closes

end TokenStream

theorem textOf_of_generate {code : Text} {tokens : List Token}
    (generated : generate code = .ok tokens) : textOf tokens = code :=
  (synthesize_spelled (eq_ok_of_mapError generated)).1

namespace Edit

/-- Added lines are broken with a carriage return and a line feed, and none of them starts directly
behind a carriage return. -/
structure Lined (stream : TokenStream) (edit : Edit) : Prop where
  lineEnding : '\n' ∈ textOf edit.replacement → stream.lineEnding = Text.returnFeed
  apart : (textOf edit.replacement).head? = some '\r' →
    ∀ token ∈ stream[edit.range.start - 1]?, token.text.getLast? ≠ some '\r'

instance (stream : TokenStream) (edit : Edit) : Decidable (Lined stream edit) :=
  decidable_of_iff (('\n' ∈ textOf edit.replacement → stream.lineEnding = Text.returnFeed) ∧
      ((textOf edit.replacement).head? = some '\r' →
        ∀ token ∈ stream[edit.range.start - 1]?, token.text.getLast? ≠ some '\r'))
    ⟨fun parts => ⟨parts.1, parts.2⟩, fun lined => ⟨lined.lineEnding, lined.apart⟩⟩

variable {stream : TokenStream} {edit : Edit} {index : Nat} {tokens : List Token}

/-- Behind the last token of other code, a line may be added. -/
theorem Lined.returnsAt? (lined : edit.Lined stream) (paired : PairedTokens stream)
    (place : edit.range.start = index + 1) (inside : index < stream.length)
    (starts : (textOf edit.replacement).head? = some '\r') :
    stream.returnsAt? edit.range.start = some 0 := by
  have found := List.getElem?_eq_getElem inside
  have apart := lined.apart starts stream[index]
  rw [place, Nat.add_sub_cancel] at apart
  rw [place]
  exact paired.returnsAt?_behind found (apart found)

/-- What is put in front of a solid token has no line break behind it. -/
theorem joins_before {after : Nat} (reads : edit.Reads stream after)
    (solid : (textOf (stream.drop edit.range.stop)).head?.any isLineSpace = false) :
    edit.Joins stream := by
  refine ⟨after, reads, fun feed => ?_, .inr fun isReturn => ?_⟩
  · rw [feed] at solid
    contradiction
  · rw [isReturn] at solid
    contradiction

end Edit

theorem Edit.reads_of_generate {stream : TokenStream} {range : IndexRange} {code : Text}
    {tokens : List Token} {before after : Nat} (generated : generate code = .ok tokens)
    (place : stream.returnsAt? range.start = some before)
    (read : returnsBehind before code = some after) : Edit.Reads stream ⟨range, tokens⟩ after :=
  ⟨before, place, by rw [textOf_of_generate generated]; exact read⟩

theorem Edit.Lined.of_mem {stream : TokenStream} {range : IndexRange} {code : Text}
    {tokens : List Token} (lined : Edit.Lined stream ⟨range, tokens⟩)
    (generated : generate code = .ok tokens) (breaks : '\n' ∈ code) :
    stream.lineEnding = Text.returnFeed :=
  lined.lineEnding (by rw [textOf_of_generate generated]; exact breaks)

section Edits

variable {stream : TokenStream} {new : List Dependency} {indent : Text}
  {options : InjectionOptions} {edits : List Edit}

theorem PairedTokens.returnsAt?_behindOpener (paired : PairedTokens stream) {opening closing : Nat}
    (delimited : stream.Delimited opening closing) : stream.returnsAt? (opening + 1) = some 0 := by
  obtain ⟨opener, found, opens⟩ := delimited.opener
  exact paired.returnsAt?_behindDelimiter found (.inl opens)

theorem PairedTokens.head?_closer (paired : PairedTokens stream) {opening closing : Nat}
    (delimited : stream.Delimited opening closing) :
    (textOf (stream.drop closing)).head?.any isLineSpace = false := by
  obtain ⟨closer, found, closes⟩ := delimited.closer
  rw [paired.head?_drop found]
  refine (paired.spelled closer (List.mem_of_getElem? found)).first ?_ ?_ <;> intro kind <;>
    rw [kind] at closes <;> contradiction

theorem headEdit_keeps {declaration : ClassDeclaration} {blocks : List Text} {edit : Edit}
    (paired : PairedTokens stream)
    (delimited : stream.Delimited declaration.bodyOpen declaration.bodyClose)
    (settled : stream.lineEnding = Text.returnFeed → ∀ block ∈ blocks, Text.Settled block)
    (lined : edit.Lined stream)
    (result : headEdit stream declaration blocks stream.lineEnding = .ok edit) :
    edit.Keeps stream := by
  obtain ⟨tokens, generated, rest⟩ := exists_of_bind_eq_ok result
  cases rest
  have behindBrace := paired.returnsAt?_behindOpener delimited
  refine ⟨0, Edit.reads_of_generate generated behindBrace ?_, behindBrace⟩
  rcases List.eq_nil_or_concat' blocks with rfl | ⟨front, last, rfl⟩
  · rw [classHeadText, List.flatMap_nil, List.take_nil, ite_self]
    rfl
  · have isEnding := lined.of_mem generated (by
      obtain ⟨ending, _, whole⟩ :=
        classHeadText_eq stream declaration front last stream.lineEnding
      rw [whole]
      exact List.mem_append_right _ (List.mem_append_left _ stream.newline_mem_lineEnding))
    rw [isEnding]
    exact returnsBehind_classHeadText stream declaration (settled isEnding)

theorem exists_returnsBehind_line {blanks : Text} (noFeed : '\n' ∉ blanks) :
    ∃ behind, returnsBehind 0 (Text.returnFeed ++ blanks) = some behind := by
  obtain ⟨behind, read⟩ := Text.returnsBehind_of_notMem noFeed 0
  exact ⟨behind, Text.returnsBehind_trans Text.returnsBehind_returnFeed read⟩

theorem returnsBehind_statements (writable : ∀ dependency ∈ new, dependency.Writable)
    {separator : Text} {behind : Nat} (read : returnsBehind 0 separator = some behind) :
    returnsBehind 0 (new.flatMap fun dependency => separator ++ dependency.assignmentText) =
      some 0 :=
  Text.returnsBehind_flatMap fun dependency member =>
    Text.returnsBehind_trans read (settled_assignmentText (writable dependency member) behind)

/-- On one line, statements may come behind anything. -/
theorem settled_statements {first : Dependency} {others : List Dependency} {separator : Text}
    (writable : first.Writable) (writableOthers : ∀ dependency ∈ others, dependency.Writable)
    (noFeed : '\n' ∉ separator) :
    Text.Settled ((first :: others).flatMap fun dependency =>
      separator ++ dependency.assignmentText) := by
  intro returns
  obtain ⟨behind, read⟩ := Text.returnsBehind_of_notMem noFeed 0
  rw [List.flatMap_cons]
  exact Text.returnsBehind_trans
    (Text.Settled.prepend noFeed (settled_assignmentText writable) returns)
    (returnsBehind_statements writableOthers read)

theorem newline_notMem_of_oneLine {opening closing index : Nat} {blank : Token}
    (oneLine : stream.spansLines opening closing = false) (behind : opening < index)
    (before : index < closing) (found : stream[index]? = some blank)
    (isBlank : blank.kind = .whitespace) : '\n' ∉ blank.text := by
  intro feed
  have isBreak : blank.isLineBreak = true := by
    rw [Token.isLineBreak, isBlank, Token.hasNewline]
    simpa using feed
  have spans : stream.spansLines opening closing = true :=
    List.any_eq_true.mpr ⟨blank, TokenStream.mem_slice_iff.mpr ⟨index, behind, before, found⟩,
      isBreak⟩
  rw [spans] at oneLine
  contradiction

theorem newline_notMem_inlineSeparatorOr {opening closing last : Nat}
    (oneLine : stream.spansLines opening closing = false) (before : last ≤ closing) :
    '\n' ∉ (stream.inlineSeparator? opening last).getD " " := by
  cases separated : stream.inlineSeparator? opening last with
  | none => decide
  | some separator =>
      obtain ⟨blank, member, isBlank, rfl⟩ :=
        TokenStream.exists_blank_of_inlineSeparator? separated
      obtain ⟨index, lower, upper, found⟩ := TokenStream.mem_slice_iff.mp member
      exact newline_notMem_of_oneLine oneLine lower (Nat.lt_of_lt_of_le upper before) found isBlank

/-- Between two delimiters on one line, no blank goes on with a line feed. -/
theorem head?_behindContent (paired : PairedTokens stream) {opening closing last : Nat}
    (delimited : stream.Delimited opening closing)
    (content : stream.lastContent? opening closing = some last)
    (oneLine : stream.spansLines opening closing = false) :
    (textOf (stream.drop (last + 1))).head? ≠ some '\n' := by
  have bounds := @TokenStream.lastContent?_bounds stream opening closing delimited.ordered
  rw [content, Option.getD_some] at bounds
  rcases Nat.eq_or_lt_of_le bounds.2 with same | behind
  · have solid := paired.head?_closer delimited
    rw [same]
    intro feed
    rw [feed] at solid
    contradiction
  · have inside : last + 1 < stream.length := Nat.lt_trans behind delimited.inside
    have found := List.getElem?_eq_getElem inside
    have isBlank := TokenStream.whitespace_of_lastContent?
      (by rw [content, Option.getD_some]) behind found
    rw [paired.head?_drop found]
    exact fun feed => newline_notMem_of_oneLine oneLine (Nat.succ_le_succ bounds.1) behind found
      isBlank (List.mem_of_mem_head? feed)

/-- Assignments are added where nothing behind them goes on with their last line break. -/
theorem assignmentEdit_fits {constructor : Constructor} {opening closing : Nat}
    (paired : PairedTokens stream) (atBody : constructor.bodyOpen = some opening)
    (atEnd : constructor.bodyClose = some closing) (delimited : stream.Delimited opening closing)
    (writable : ∀ dependency ∈ new, dependency.Writable)
    (noFeed : '\n' ∉ indent) (noFeedOption : '\n' ∉ options.indent)
    (result : assignmentEdit stream constructor new indent options stream.lineEnding = .ok edits)
    (lined : ∀ edit ∈ edits, edit.Lined stream) :
    edits = [] ∨ ∃ edit, edits = [edit] ∧ (edit.Keeps stream ∨ edit.Joins stream) := by
  have behindBrace := paired.returnsAt?_behindOpener delimited
  have noFeedStatement : '\n' ∉ indent ++ options.indent :=
    List.not_mem_append noFeed noFeedOption
  obtain ⟨between, readStatement⟩ := exists_returnsBehind_line noFeedStatement
  unfold assignmentEdit at result
  cases new with
  | nil =>
      cases result
      exact .inl rfl
  | cons first others =>
      refine .inr ?_
      simp only [atBody, atEnd] at result
      cases content : stream.lastContent? opening closing with
      | none =>
          rw [content] at result
          simp only at result
          split at result
          next =>
            obtain ⟨tokens, generated, rest⟩ := exists_of_bind_eq_ok result
            cases rest
            have isEnding := (lined _ List.mem_cons_self).of_mem generated
              (by simp [stream.newline_mem_lineEnding])
            rw [isEnding] at generated
            exact ⟨_, rfl, .inl ⟨0, Edit.reads_of_generate generated behindBrace
              (returnsBehind_statements writable readStatement), behindBrace⟩⟩
          next =>
            obtain ⟨tokens, generated, rest⟩ := exists_of_bind_eq_ok result
            cases rest
            have isEnding := (lined _ List.mem_cons_self).of_mem generated
              (by simp [stream.newline_mem_lineEnding])
            rw [isEnding, List.append_assoc] at generated
            obtain ⟨behind, readEnding⟩ := exists_returnsBehind_line noFeed
            exact ⟨_, rfl, .inr (Edit.joins_before (Edit.reads_of_generate generated behindBrace
              (Text.returnsBehind_trans (returnsBehind_statements writable readStatement)
                readEnding)) (paired.head?_closer delimited))⟩
      | some last =>
          have bounds := @TokenStream.lastContent?_bounds stream opening closing delimited.ordered
          rw [content, Option.getD_some] at bounds
          have lastBefore : last < closing := bounds.2
          have lastInside : last < stream.length := Nat.lt_trans lastBefore delimited.inside
          rw [content] at result
          simp only at result
          obtain ⟨tokens, generated, rest⟩ := exists_of_bind_eq_ok result
          cases rest
          refine ⟨_, rfl, ?_⟩
          split at generated
          next =>
            have isEnding := (lined _ List.mem_cons_self).of_mem generated
              (by simp [stream.newline_mem_lineEnding])
            rw [isEnding] at generated
            have starts : (textOf tokens).head? = some '\r' := by
              rw [textOf_of_generate generated]
              rfl
            have place := (lined _ List.mem_cons_self).returnsAt? paired rfl lastInside starts
            obtain ⟨behind, readLine⟩ := exists_returnsBehind_line
              (stream.newline_notMem_indentOr ((stream.firstContent? opening closing).getD last)
                noFeedStatement)
            exact .inl ⟨0, Edit.reads_of_generate generated place
              (returnsBehind_statements writable readLine), place⟩
          next severalLines =>
            have oneLine : stream.spansLines opening closing = false := by simpa using severalLines
            obtain ⟨before, place, _⟩ := paired.exists_returnsAt? (last + 1)
            have settled := settled_statements (writable first (by simp))
              (fun dependency member => writable dependency (List.mem_cons_of_mem _ member))
              (newline_notMem_inlineSeparatorOr oneLine (Nat.le_of_lt lastBefore))
            exact .inr ⟨0, Edit.reads_of_generate generated place (settled before),
              head?_behindContent paired delimited content oneLine, .inl rfl⟩

/-- What separates two parameters may come behind anything. -/
theorem exists_returnsBehind_separator {separator : Text} {parameters : List Parameter}
    {multiLine : Bool} (noFeed : '\n' ∉ indent)
    (isSeparator : separator =
      if multiLine then
        ("," : Text) ++ stream.lineEnding ++ (parameters.findSome? fun parameter =>
          stream.indentBefore? parameter.range.start).getD indent
      else ", ")
    (ending : '\n' ∈ separator → stream.lineEnding = Text.returnFeed) (returns : Nat) :
    ∃ behind, returnsBehind returns separator = some behind := by
  cases multiLine with
  | false =>
      rw [if_neg (by decide)] at isSeparator
      rw [isSeparator]
      exact Text.returnsBehind_of_notMem (by decide) returns
  | true =>
      rw [if_pos rfl] at isSeparator
      have isEnding := ending (by simp [isSeparator, stream.newline_mem_lineEnding])
      have noFeedFound : '\n' ∉ (parameters.findSome? fun parameter =>
          stream.indentBefore? parameter.range.start).getD indent := by
        cases found : parameters.findSome? fun parameter =>
            stream.indentBefore? parameter.range.start with
        | none => exact noFeed
        | some blanks =>
            obtain ⟨parameter, _, atParameter⟩ := List.exists_of_findSome?_eq_some found
            exact TokenStream.newline_notMem_indentBefore? atParameter
      have comma : Text.Settled ("," : Text) := .of_unbroken (by constructor <;> decide) (by decide)
      obtain ⟨behind, read⟩ := exists_returnsBehind_line noFeedFound
      rw [isSeparator, isEnding, List.append_assoc]
      exact ⟨behind, Text.returnsBehind_trans (comma returns) read⟩

theorem trimmed_of_mem_parametersIn {list : ParameterList} {parameter : Parameter}
    (delimited : stream.Delimited list.opening list.closing)
    (member : parameter ∈ stream.parametersIn list) : stream.Trimmed parameter.range := by
  obtain ⟨item, isItem, found⟩ := List.mem_filterMap.mp member
  obtain ⟨opener, atOpener, opens⟩ := delimited.opener
  rw [TokenStream.range_of_parameterIn? found]
  refine TokenStream.trimmed_of_mem_splitTopLevel atOpener (fun isTag => ?_) delimited.ordered
    (Nat.le_of_lt delimited.inside) isItem
  rw [isTag] at opens
  contradiction

/-- Behind the last token of a trimmed range, a line feed follows no carriage return. -/
theorem Edit.fits_behind (paired : PairedTokens stream) {range : IndexRange}
    (trimmed : stream.Trimmed range) {code : Text} {tokens : List Token}
    (generated : generate code = .ok tokens) (settled : Text.Settled code) :
    (Edit.insertion range.stop tokens).Keeps stream ∨
      (Edit.insertion range.stop tokens).Joins stream := by
  obtain ⟨last, atLast, content⟩ := trimmed.last
  have positive : range.stop - 1 + 1 = range.stop :=
    Nat.sub_add_cancel (Nat.le_trans trimmed.ordered.1 (Nat.le_of_lt trimmed.ordered.2))
  by_cases ends : last.text.getLast? = some '\r'
  · obtain ⟨returns, place, _⟩ := paired.exists_returnsAt? range.stop
    refine .inr ⟨0, Edit.reads_of_generate generated place (settled returns), fun feed => ?_,
      .inl rfl⟩
    simp only [Edit.insertion] at feed
    cases found : stream[range.stop]? with
    | none =>
        rw [List.drop_eq_nil_of_le (List.getElem?_eq_none_iff.mp found)] at feed
        contradiction
    | some next =>
        rw [paired.head?_drop found] at feed
        rcases (paired.meets_at atLast (by rw [positive, found])).feed feed with isTrivia | noReturn
        · rw [content] at isTrivia
          contradiction
        · exact noReturn ends
  · have place := paired.returnsAt?_behind atLast ends
    rw [positive] at place
    exact .inl ⟨0, Edit.reads_of_generate generated place (settled 0), place⟩

/-- Parameters are added where nothing behind them goes on with their last line break. -/
theorem parameterEdit_fits {constructor : Constructor} {list : ParameterList}
    (paired : PairedTokens stream) (listed : constructor.parameterList = some list)
    (read : constructor.parameters = stream.parametersIn list)
    (delimited : stream.Delimited list.opening list.closing)
    (writable : ∀ dependency ∈ new, dependency.Writable)
    (noFeed : '\n' ∉ indent) (noFeedOption : '\n' ∉ options.indent)
    (result : parameterEdit stream constructor new indent options stream.lineEnding = .ok edits)
    (lined : ∀ edit ∈ edits, edit.Lined stream) :
    edits = [] ∨ ∃ edit, edits = [edit] ∧ (edit.Keeps stream ∨ edit.Joins stream) := by
  have inside := delimited.inside
  have noFeedParameter : '\n' ∉ indent ++ options.indent := List.not_mem_append noFeed noFeedOption
  have settledTexts : ∀ text ∈ new.map Dependency.parameterText, Text.Settled text := by
    intro text member
    obtain ⟨dependency, isNew, rfl⟩ := List.mem_map.mp member
    exact settled_parameterText (writable dependency isNew)
  unfold parameterEdit at result
  simp only [listed, read] at result
  cases new with
  | nil =>
      cases result
      exact .inl rfl
  | cons dependency others =>
  refine .inr ?_
  have nonempty : (dependency :: others).map Dependency.parameterText ≠ [] := by simp
  generalize (dependency :: others).map Dependency.parameterText = texts
    at settledTexts nonempty result
  cases parameters : stream.parametersIn list with
  | nil =>
      rw [parameters] at result
      simp only at result
      obtain ⟨tokens, generated, rest⟩ := exists_of_bind_eq_ok result
      cases rest
      obtain ⟨lower, upper⟩ :=
        @TokenStream.lastContent?_bounds stream list.opening list.closing delimited.ordered
      have isEnding := (lined _ List.mem_cons_self).of_mem generated
        (by simp [stream.newline_mem_lineEnding])
      rw [isEnding, List.append_assoc] at generated
      obtain ⟨between, readLine⟩ := exists_returnsBehind_line noFeedParameter
      obtain ⟨behind, readEnding⟩ := exists_returnsBehind_line noFeed
      have lines : returnsBehind 0 ((withCommas texts).flatMap fun text =>
          Text.returnFeed ++ indent ++ options.indent ++ text) = some 0 := by
        refine Text.returnsBehind_flatMap fun text member => ?_
        rw [List.append_assoc Text.returnFeed]
        exact Text.returnsBehind_trans readLine
          (settled_of_mem_withCommas settledTexts member between)
      have starts : (textOf tokens).head? = some '\r' := by
        rw [textOf_of_generate generated]
        cases (withCommas texts) <;> rfl
      have place := (lined _ List.mem_cons_self).returnsAt? paired rfl (by omega) starts
      exact ⟨_, rfl, .inr (Edit.joins_before (Edit.reads_of_generate generated place
        (Text.returnsBehind_trans lines readEnding)) (paired.head?_closer delimited))⟩
  | cons first more =>
      rw [parameters] at result
      simp only at result
      generalize isSeparator : (if stream.spansLines list.opening list.closing = true then _
        else _) = separator at result
      have trimmed {parameter : Parameter} (member : parameter ∈ first :: more) :
          stream.Trimmed parameter.range := by
        rw [← parameters] at member
        exact trimmed_of_mem_parametersIn delimited member
      have readSeparator {range : IndexRange} {code : Text} {tokens : List Token}
          (isLined : Edit.Lined stream ⟨range, tokens⟩) (generated : generate code = .ok tokens)
          (holds : separator ⊆ code) (returns : Nat) :=
        exists_returnsBehind_separator noFeedParameter isSeparator.symm
          (fun breaks => isLined.of_mem generated (holds breaks)) returns
      have before {parameter : Parameter} (member : parameter ∈ first :: more) {tokens : List Token}
          (generated : generate (Text.joinWith separator texts ++ separator) = .ok tokens)
          (isLined : (Edit.insertion parameter.range.start tokens).Lined stream) :
          (Edit.insertion parameter.range.start tokens).Joins stream := by
        have holds := List.subset_append_right (Text.joinWith separator texts) separator
        obtain ⟨between, readFirst⟩ := readSeparator isLined generated holds 0
        obtain ⟨returns, place, _⟩ := paired.exists_returnsAt? parameter.range.start
        exact Edit.joins_before (Edit.reads_of_generate generated place
          (Text.returnsBehind_trans
            (Text.Settled.joinWith nonempty readFirst settledTexts returns) readFirst))
          (paired.head?_trimmed (trimmed member))
      split at result
      next last found =>
        obtain ⟨tokens, generated, rest⟩ := exists_of_bind_eq_ok result
        cases rest
        obtain ⟨front, back, split, _⟩ := lastMandatory?_eq_some found
        have readAny := readSeparator (lined _ List.mem_cons_self) generated
          (List.subset_append_left _ _)
        obtain ⟨between, readFirst⟩ := readAny 0
        refine ⟨_, rfl, Edit.fits_behind paired (trimmed (by rw [split]; simp)) generated
          fun returns => ?_⟩
        obtain ⟨behind, readHere⟩ := readAny returns
        exact Text.returnsBehind_trans readHere
          (Text.Settled.joinWith nonempty readFirst settledTexts behind)
      next last next found =>
        obtain ⟨tokens, generated, rest⟩ := exists_of_bind_eq_ok result
        cases rest
        obtain ⟨front, back, split, follows, _⟩ := lastMandatory?_eq_some found
        have inBack := List.mem_of_mem_head? follows
        exact ⟨_, rfl, .inr (before (by rw [split]; simp [inBack]) generated
          (lined _ List.mem_cons_self))⟩
      next =>
        obtain ⟨tokens, generated, rest⟩ := exists_of_bind_eq_ok result
        cases rest
        exact ⟨_, rfl, .inr (before List.mem_cons_self generated (lined _ List.mem_cons_self))⟩

end Edits

section Plans

variable {stream : TokenStream} {site : ConstructorSite} {plan : InjectionPlan}
  {options : InjectionOptions} {edits : List Edit}

theorem planEdits_fits_existing {constructor : Constructor} (paired : PairedTokens stream)
    (located : stream.locate? options.marker = some site)
    (existing : site.constructor? = some constructor)
    (writableProperties : ∀ dependency ∈ plan.properties, dependency.Writable)
    (writableParameters : ∀ dependency ∈ plan.parameters, dependency.Writable)
    (writableAssignments : ∀ dependency ∈ plan.assignments, dependency.Writable)
    (noFeed : '\n' ∉ options.indent) (result : planEdits stream site plan options = .ok edits)
    (lined : ∀ edit ∈ edits, edit.Lined stream) :
    (∀ edit ∈ edits, edit.Keeps stream ∨ edit.Joins stream) ∧
      edits.Pairwise fun left right => left.Keeps stream ∨ left.range.stop < right.range.start := by
  obtain ⟨found, isConstructor, _⟩ := TokenStream.locate?_eq_some_iff.mp located
  obtain ⟨headEdits, listEdits, bodyEdits, rfl, headed, listResult, bodyResult⟩ :=
    planEdits_parts existing result
  have noFeedIndent := stream.newline_notMem_indentOr constructor.start noFeed
  have linedHead : ∀ edit ∈ headEdits, edit.Lined stream :=
    fun edit member => lined edit (by simp [member])
  have linedList : ∀ edit ∈ listEdits, edit.Lined stream :=
    fun edit member => lined edit (by simp [member])
  have linedBody : ∀ edit ∈ bodyEdits, edit.Lined stream :=
    fun edit member => lined edit (by simp [member])
  have headKeeps : ∀ edit ∈ headEdits, edit.Keeps stream := by
    rcases headed with ⟨_, rfl⟩ | ⟨edit, rfl, _, headResult⟩
    · simp
    · refine List.forall_mem_singleton.mpr (headEdit_keeps paired
        (TokenStream.delimited_of_findClass? found) (fun isEnding block member => ?_)
        (linedHead edit List.mem_cons_self) headResult)
      obtain ⟨dependency, isProperty, rfl⟩ := List.mem_map.mp member
      rw [isEnding]
      exact settled_propertyText (writableProperties dependency isProperty) noFeedIndent
  have headApart : headEdits.Pairwise fun left right =>
      left.Keeps stream ∨ left.range.stop < right.range.start := by
    rcases headed with ⟨_, rfl⟩ | ⟨edit, rfl, _⟩
    · exact .nil
    · exact List.pairwise_singleton _ _
  suffices rest : (∀ edit ∈ listEdits ++ bodyEdits, edit.Keeps stream ∨ edit.Joins stream) ∧
      (listEdits ++ bodyEdits).Pairwise fun left right =>
        left.Keeps stream ∨ left.range.stop < right.range.start by
    refine ⟨List.forall_mem_append.mpr ⟨fun edit member => .inl (headKeeps edit member), rest.1⟩,
      List.pairwise_append.mpr ⟨headApart, rest.2, fun edit member _ _ => .inl ?_⟩⟩
    exact headKeeps edit member
  cases listed : constructor.parameterList with
  | none =>
      have noBody : constructor.bodyOpen = none := by
        rw [existing, Option.map_eq_some_iff] at isConstructor
        obtain ⟨⟨function, name⟩, _, rfl⟩ := isConstructor
        exact TokenStream.bodyOpen_eq_none_of_unlisted listed
      have noListEdits : listEdits = [] := by
        rw [parameterEdit] at listResult
        simp only [listed] at listResult
        cases listResult
        rfl
      rw [noListEdits, assignmentEdit_eq_nil (.inl noBody) bodyResult]
      exact ⟨by simp, .nil⟩
  | some list =>
      obtain ⟨before, head, blanks, opener, inner, closer, tail, cut, _, _, _, _, isParen,
        levelInner, closes, opening, closing, parameters, atBody, atEnd⟩ :=
        TokenStream.locate?_parts located existing listed
      have behindHead := TokenStream.drop_of_drop_eq
        (TokenStream.drop_of_drop_eq (TokenStream.drop_of_drop_eq cut))
      rw [← opening] at behindHead
      obtain ⟨atOpener, behindOpener⟩ := TokenStream.drop_eq_cons_iff.mp behindHead
      have delimited : stream.Delimited list.opening list.closing :=
        TokenStream.delimited_of_matchingClose? (TokenStream.matchingClose?_eq_some_iff.mpr
          ⟨opener, inner, closer, tail, behindHead, closing, by rw [isParen]; rfl, closes,
            levelInner⟩)
      have listFits := parameterEdit_fits paired listed parameters delimited writableParameters
        noFeedIndent noFeed listResult linedList
      have listBefore : ∀ edit ∈ listEdits, edit.range.stop ≤ list.closing := fun edit member =>
        ((parameterEdit_trims listed parameters (List.getElem?_eq_some_iff.mp atOpener).1
          behindOpener closing levelInner listResult).within edit member).2
      have bodyFits : bodyEdits = [] ∨ ∃ edit, bodyEdits = [edit] ∧
          (edit.Keeps stream ∨ edit.Joins stream) ∧ list.closing < edit.range.start := by
        cases opened : constructor.bodyOpen with
        | none => exact .inl (assignmentEdit_eq_nil (.inl opened) bodyResult)
        | some bodyOpening =>
            rw [opened] at atBody
            rw [opened, Option.bind_some] at atEnd
            obtain ⟨_, _, _, _, behind, _⟩ := TokenStream.bodyOpen?_eq_some_iff.mp atBody.symm
            cases closed : constructor.bodyClose with
            | none => exact .inl (assignmentEdit_eq_nil (.inr closed) bodyResult)
            | some bodyClosing =>
                have behindBrace := assignmentEdit_behindBrace opened atEnd bodyResult
                rw [closed] at atEnd
                rcases assignmentEdit_fits paired opened closed
                  (TokenStream.delimited_of_matchingClose? atEnd.symm) writableAssignments
                  noFeedIndent noFeed bodyResult linedBody with none | ⟨edit, rfl, fits⟩
                · exact .inl none
                · have starts := behindBrace edit List.mem_cons_self
                  exact .inr ⟨edit, rfl, fits, by omega⟩
      rcases listFits with rfl | ⟨left, rfl, leftFits⟩ <;>
        rcases bodyFits with rfl | ⟨right, rfl, rightFits, behind⟩
      · exact ⟨by simp, .nil⟩
      · exact ⟨List.forall_mem_singleton.mpr rightFits, List.pairwise_singleton _ _⟩
      · exact ⟨List.forall_mem_singleton.mpr leftFits, List.pairwise_singleton _ _⟩
      · have before := listBefore left List.mem_cons_self
        exact ⟨List.forall_mem_cons.mpr ⟨leftFits, List.forall_mem_singleton.mpr rightFits⟩,
          List.pairwise_pair.mpr (.inr (by omega))⟩

/-- An injection puts its edits where they fit, and apart from one another. -/
theorem planEdits_fits (paired : PairedTokens stream)
    (located : stream.locate? options.marker = some site)
    (writableProperties : ∀ dependency ∈ plan.properties, dependency.Writable)
    (writableParameters : ∀ dependency ∈ plan.parameters, dependency.Writable)
    (writableAssignments : ∀ dependency ∈ plan.assignments, dependency.Writable)
    (noFeed : '\n' ∉ options.indent) (noFeedMarker : '\n' ∉ options.marker)
    (result : planEdits stream site plan options = .ok edits)
    (lined : ∀ edit ∈ edits, edit.Lined stream) :
    (∀ edit ∈ edits, edit.Keeps stream ∨ edit.Joins stream) ∧
      edits.Pairwise fun left right => left.Keeps stream ∨ left.range.stop < right.range.start := by
  cases existing : site.constructor? with
  | some constructor =>
      exact planEdits_fits_existing paired located existing writableProperties writableParameters
        writableAssignments noFeed result lined
  | none =>
      unfold planEdits at result
      simp only [existing] at result
      obtain ⟨edit, headResult, rest⟩ := exists_of_bind_eq_ok result
      cases rest
      have found := (TokenStream.locate?_eq_some_iff.mp located).1
      have keeps : edit.Keeps stream := by
        refine headEdit_keeps paired (TokenStream.delimited_of_findClass? found)
          (fun isEnding => ?_) (lined edit List.mem_cons_self) headResult
        rw [isEnding]
        refine List.forall_mem_append.mpr ⟨fun block member => ?_, List.forall_mem_singleton.mpr
          (settled_constructorText writableParameters writableAssignments noFeed noFeedMarker)⟩
        obtain ⟨dependency, isProperty, rfl⟩ := List.mem_map.mp member
        exact settled_propertyText (writableProperties dependency isProperty) noFeed
      exact ⟨List.forall_mem_singleton.mpr (.inl keeps), List.pairwise_singleton _ _⟩

end Plans

namespace Converter

/-- Wherever a conversion adds lines, it breaks them with a carriage return and a line feed, and no
generated line starts directly behind a carriage return. -/
def AddsPairedLines (converter : Converter) (source : Text) : Prop :=
  ∀ stream conversion site edits, tokenize source = .ok stream →
    converter.process stream = .ok conversion →
    (replaced stream conversion).locate? converter.options.marker = some site →
    injectionEdits (replaced stream conversion) site
      (distinct (CallSite.dependenciesOfAll conversion.sites)) converter.options = .ok edits →
    ∀ edit ∈ edits, edit.Lined (replaced stream conversion)

/-- A class on four lines. -/
def linesWithReturns : Text :=
  "<?php\r\nclass A\x7b\r\nfunction f()\x7bMage::log(1);\x7d\r\n\x7d"

theorem addsPairedLines_linesWithReturns : conventions.AddsPairedLines linesWithReturns := by
  have computed : (tokenize linesWithReturns).toOption.any (fun stream =>
      (conventions.process stream).toOption.any fun conversion =>
        ((replaced stream conversion).locate? conventions.options.marker).any fun site =>
          (injectionEdits (replaced stream conversion) site
              (distinct (CallSite.dependenciesOfAll conversion.sites))
              conventions.options).toOption.any fun edits =>
            edits.all fun edit => decide (edit.Lined (replaced stream conversion))) = true := by
    decide +kernel
  intro stream conversion site edits lexed processed located edited edit member
  rw [lexed] at computed
  simp only [Except.toOption, Option.any_some, processed, located, edited, List.all_eq_true,
    decide_eq_true_eq] at computed
  exact computed edit member

/-- A class in a source without a line break. -/
def classOnOneLine : Text :=
  "<?php class A\x7bfunction f()\x7bMage::helper('tax');\x7d\x7d"

end Converter

end ConstructorInjection
