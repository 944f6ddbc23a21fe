import Mathlib.Data.List.Basic
import Mathlib.Tactic.Common
import ConstructorInjection.Proofs.CodeTokens
import ConstructorInjection.Proofs.GeneratedBlocks
import ConstructorInjection.Proofs.TokenTexts

/-!
Texts that the lexer cannot refuse. Each of their characters begins a token, and where one of them
opens a comment the end of the comment follows.
-/

namespace ConstructorInjection

/-- Marks that are tokens by themselves and open nothing that has to be closed. -/
def plainMarks : List Char :=
  ['$', '-', '>', '=', ';', ',', '(', ')', '\x7b', '\x7d', ':', '*', '@']

def isPlain (character : Char) : Bool :=
  isLineSpace character || isLabelPart character || plainMarks.contains character

/-- A backslash stands in front of a label only, a slash in front of a blank or of a comment that
ends. -/
inductive Harmless : Text → Prop where
  | nil : Harmless []
  | plain {first : Char} {rest : Text} (isPlain : isPlain first = true) (later : Harmless rest) :
      Harmless (first :: rest)
  | backslash {first : Char} {rest : Text} (start : isLabelStart first = true)
      (later : Harmless (first :: rest)) : Harmless ('\\' :: first :: rest)
  | slash {first : Char} {rest : Text} (blank : isLineSpace first = true)
      (later : Harmless (first :: rest)) : Harmless ('/' :: first :: rest)
  | comment {rest : Text} (ends : ['*', '/'] <:+: rest)
      (later : Harmless ('*' :: rest)) : Harmless ('/' :: '*' :: rest)

/-- A comment is closed as soon as its end stands anywhere in the text. -/
theorem isSome_blockCommentExtent_iff {text : Text} :
    (blockCommentExtent text).isSome = true ↔ ['*', '/'] <:+: text := by
  fun_induction blockCommentExtent text with
  | case1 => simp
  | case2 rest => simp [List.infix_cons_iff]
  | case3 first rest noEnd ih =>
      have notHere : ¬ ['*', '/'] <+: first :: rest := by
        rintro ⟨behind, whole⟩
        obtain ⟨rfl, rfl⟩ := List.cons.inj whole
        exact noEnd behind rfl rfl
      rw [Option.isSome_map, ih, List.infix_cons_iff, or_iff_right notHere]

namespace Harmless

variable {text left right : Text}

theorem append (first : Harmless left) (second : Harmless right) : Harmless (left ++ right) := by
  induction first with
  | nil => exact second
  | plain isPlain _ ih => exact .plain isPlain ih
  | backslash start _ ih => exact .backslash start ih
  | slash blank _ ih => exact .slash blank ih
  | comment ends _ ih => exact .comment (ends.trans (List.prefix_append _ _).isInfix) ih

theorem tail (harmless : Harmless text) : Harmless text.tail := by
  cases harmless with
  | nil => exact .nil
  | plain _ later => exact later
  | backslash _ later => exact later
  | slash _ later => exact later
  | comment _ later => exact later

/-- What is left behind a token is harmless again. -/
theorem drop (harmless : Harmless text) (length : Nat) : Harmless (text.drop length) := by
  induction length generalizing text with
  | zero => exact harmless
  | succ length ih =>
      rw [← List.drop_tail]
      exact ih harmless.tail

theorem of_plain (all : ∀ character ∈ text, isPlain character = true) : Harmless text := by
  induction text with
  | nil => exact .nil
  | cons first rest ih =>
      obtain ⟨isPlain, later⟩ := List.forall_mem_cons.mp all
      exact .plain isPlain (ih later)

end Harmless

theorem spelled_plainMarks :
    ∀ mark ∈ plainMarks, ∃ rule ∈ lexicalRules, rule.pattern = .spelling [mark] := by
  have checked : plainMarks.all (fun mark =>
      lexicalRules.any (fun rule => rule.pattern == .spelling [mark])) = true := by
    decide
  simpa only [List.all_eq_true, List.any_eq_true, beq_iff_eq] using checked

/-- Only the comment that a slash opens, strings and heredocs can go on without an end. -/
theorem LexicalRule.openers_of_mayLack :
    ∀ rule ∈ lexicalRules, rule.lexeme.mayLack = true →
      rule = ⟨.spelling ['/', '*'], .blockComment⟩ ∨
        ∃ characters ∈ rule.pattern.spelled?, ∃ first ∈ characters.head?,
          isPlain first = false ∧ first ≠ '\\' ∧ first ≠ '/' := by
  have checked : lexicalRules.all (fun rule => !rule.lexeme.mayLack ||
      (rule == ⟨.spelling ['/', '*'], .blockComment⟩ ||
        rule.pattern.spelled?.any (fun characters => characters.head?.any (fun first =>
          !isPlain first && (first != '\\' && first != '/'))))) = true := by
    decide
  intro rule member lacks
  have accepted := List.all_eq_true.mp checked rule member
  simpa only [lacks, Bool.not_true, Bool.false_or, Bool.or_eq_true, beq_iff_eq,
    Option.any_eq_true, Option.mem_def, Bool.and_eq_true, Bool.not_eq_true', bne_iff_ne]
    using accepted

theorem LexicalRule.eq_of_closeTag :
    ∀ rule ∈ lexicalRules, rule.lexeme.gives .closeTag = true →
      rule = ⟨.closeTag, .whole .closeTag⟩ := by
  decide

theorem matchLength_name_ne_zero {first : Char} (start : isLabelStart first = true) (rest : Text) :
    Pattern.name.matchLength (first :: rest) ≠ 0 := by
  have noBackslash : (first :: rest).head? ≠ some '\\' := by
    rintro ⟨⟩
    contradiction
  have named : labelLength (first :: rest) ≠ 0 := by
    rw [labelLength, if_pos start]
    simp
  rw [Pattern.matchLength_name noBackslash, andThen, if_neg named]
  omega

theorem longestMatch_ne_none {input : Text} {rule : LexicalRule} (isRule : rule ∈ lexicalRules)
    (matched : rule.pattern.matchLength input ≠ 0) : longestMatch input ≠ none := by
  intro none
  refine matched (Nat.le_zero.mp (matchLength_le_longestAmong ?_ rule isRule))
  intro found also
  cases none.symm.trans also

namespace Harmless

variable {first : Char} {rest : Text}

theorem longestMatch_ne_none (harmless : Harmless (first :: rest)) :
    longestMatch (first :: rest) ≠ none := by
  have blanks : ⟨.blanks, .whole .whitespace⟩ ∈ lexicalRules := by decide
  have number : ⟨.decimalNumber, .whole .number⟩ ∈ lexicalRules := by decide
  have name : ⟨.name, .name⟩ ∈ lexicalRules := by decide
  have slash : ∃ rule ∈ lexicalRules, rule.pattern = .spelling ['/'] := by decide
  have spelled {mark : Char} {more : Text}
      (isRule : ∃ rule ∈ lexicalRules, rule.pattern = .spelling [mark]) :
      longestMatch (mark :: more) ≠ none := by
    obtain ⟨rule, isRule, pattern⟩ := isRule
    refine ConstructorInjection.longestMatch_ne_none isRule ?_
    simp [pattern, Pattern.matchLength, List.isPrefixOf]
  cases harmless with
  | plain isPlain _ =>
      simp only [ConstructorInjection.isPlain, Bool.or_eq_true, List.contains_iff_mem] at isPlain
      rcases isPlain with (blank | part) | mark
      · exact ConstructorInjection.longestMatch_ne_none blanks
          (by simp [Pattern.matchLength, blank])
      · rw [isLabelPart, Bool.or_eq_true] at part
        rcases part with start | digit
        · exact ConstructorInjection.longestMatch_ne_none name (matchLength_name_ne_zero start _)
        · exact ConstructorInjection.longestMatch_ne_none number
            (by simp [Pattern.matchLength, digit])
      · exact spelled (spelled_plainMarks first mark)
  | @backslash next more start _ =>
      refine ConstructorInjection.longestMatch_ne_none name ?_
      have named : labelLength (next :: more) ≠ 0 := by
        rw [labelLength, if_pos start]
        simp
      rw [Pattern.matchLength, segmentsLength]
      simp only [if_neg named]
      omega
  | slash _ _ => exact spelled slash
  | comment _ _ => exact spelled slash

/-- A match opens a comment that ends, or nothing that has to end. -/
theorem scan_eq_ok (harmless : Harmless (first :: rest)) {found : LexicalMatch}
    (result : longestMatch (first :: rest) = some found) :
    ∃ extent, found.lexeme.scan ((first :: rest).drop found.length) = .ok extent := by
  obtain ⟨rule, isRule, lexeme, length⟩ := longestAmong_mem result
  have matched : rule.pattern.matchLength (first :: rest) ≠ 0 := by
    rw [length]
    exact Nat.ne_of_gt (longestMatch_length_pos result)
  rw [← lexeme, ← length]
  cases scanned : rule.lexeme.scan
      ((first :: rest).drop (rule.pattern.matchLength (first :: rest))) with
  | ok extent => exact ⟨extent, rfl⟩
  | error fault =>
      exfalso
      have lacks := (Lexeme.lacks_iff (LexicalRule.lexeme_ne_backslash rule isRule)).mpr scanned
      rcases LexicalRule.openers_of_mayLack rule isRule lacks.mayLack with
        rfl | ⟨characters, spells, opener, opens, notPlain, noBackslash, noSlash⟩
      · obtain ⟨begins, size⟩ := Pattern.prefix_of_matchLength rfl matched
        obtain ⟨more, whole⟩ := begins
        rw [List.cons_append, List.cons_append, List.nil_append, List.cons.injEq] at whole
        obtain ⟨rfl, rfl⟩ := whole
        rw [size] at scanned
        cases harmless with
        | plain isPlain _ => contradiction
        | slash blank _ => contradiction
        | comment ends _ =>
            obtain ⟨extent, ended⟩ :=
              Option.isSome_iff_exists.mp (isSome_blockCommentExtent_iff.mpr ends)
            simp [Lexeme.scan, ended] at scanned
      · obtain ⟨⟨more, whole⟩, -⟩ := Pattern.prefix_of_matchLength spells matched
        obtain ⟨others, rfl⟩ := List.head?_eq_some_iff.mp opens
        obtain ⟨rfl, -⟩ := List.cons.inj whole
        cases harmless with
        | plain isPlain _ =>
            rw [notPlain] at isPlain
            contradiction
        | backslash _ _ => exact noBackslash rfl
        | slash _ _ => exact noSlash rfl
        | comment _ _ => exact noSlash rfl

theorem ne_question (harmless : Harmless (first :: rest)) : first ≠ '?' := by
  rintro rfl
  cases harmless with
  | plain isPlain _ => exact absurd isPlain (by decide)

theorem exists_piece {text : Text} (harmless : Harmless text) (nonempty : text ≠ [])
    (memberName : Bool) :
    ∃ piece, Piece.ofCode memberName text = .ok piece ∧ piece.kind ≠ .closeTag := by
  obtain ⟨first, rest, rfl⟩ := List.exists_cons_of_ne_nil nonempty
  obtain ⟨found, result⟩ := Option.ne_none_iff_exists'.mp harmless.longestMatch_ne_none
  obtain ⟨extent, scanned⟩ := harmless.scan_eq_ok result
  cases built : Piece.ofMatch memberName (first :: rest) found (longestMatch_length_pos result) with
  | error refusal => cases scanned.symm.trans (Piece.ofMatch_eq_error built)
  | ok piece =>
      have next := (Piece.ofCode_of_longestMatch result).trans built
      refine ⟨piece, next, fun isTag => ?_⟩
      obtain ⟨rule, member, gives, matched, _, length, positive, -⟩ := Piece.exists_rule next
      rw [isTag] at gives
      have closed : Pattern.closeTag.opensWith first = false :=
        beq_eq_false_iff_ne.mpr harmless.ne_question
      rw [LexicalRule.eq_of_closeTag rule member gives, Pattern.matchLength_eq_zero closed] at length
      exact absurd length (Nat.ne_of_lt positive)

/-- Behind each token the rest of the text is harmless, and so is the way to its end. -/
theorem exists_lexes {text : Text} (harmless : Harmless text) (memberName : Bool) (place : Place) :
    ∃ tokens, Lexes .code memberName place text tokens := by
  generalize size : text.length = length
  induction length using Nat.strongRecOn generalizing text memberName place with
  | ind length ih =>
      by_cases empty : text = []
      · subst empty
        exact ⟨[], .done⟩
      · obtain ⟨piece, next, inCode⟩ := harmless.exists_piece empty memberName
        have positive := piece.length_pos
        have nonempty := List.length_pos_iff.mpr empty
        have shorter : (text.drop piece.length).length < length := by
          rw [List.length_drop]
          omega
        have stays : LexMode.after .code piece.kind = .code := by
          cases mode : LexMode.after .code piece.kind with
          | code => rfl
          | html =>
              rcases LexMode.closeTag_of_after mode with isTag | inHtml
              · exact absurd isTag inCode
              · contradiction
        obtain ⟨later, lexes⟩ := ih _ shorter (harmless.drop piece.length)
          (memberNameAfter memberName piece.kind (text.take piece.length))
          (place.after (text.take piece.length)) rfl
        rw [← stays] at lexes
        exact ⟨_, .step empty next lexes⟩

theorem exists_generate {code : Text} (harmless : Harmless code) :
    ∃ tokens, generate code = .ok tokens := by
  obtain ⟨tokens, lexes⟩ := harmless.exists_lexes false Place.start
  rw [generate, synthesize, lexFragment, lexes.lexFrom_eq]
  exact ⟨_, rfl⟩

end Harmless

/-! The texts of an injection. -/

/-- Labels, each after a backslash. -/
def IsQualifiedName (name : Text) : Prop :=
  ∃ labels : List Text, (∀ label ∈ labels, IsLabel label) ∧ name = labels.flatMap ('\\' :: ·)

/-- A dependency whose variable and class are names of the language. -/
structure Dependency.Nameable (dependency : Dependency) : Prop where
  label : IsLabel dependency.variableName
  qualified : IsQualifiedName dependency.className

theorem lineEnding_ne_nil (stream : TokenStream) : stream.lineEnding ≠ [] := by
  rw [TokenStream.lineEnding]
  split
  · split <;> simp
  · simp

theorem IsLabel.harmless {label : Text} (isLabel : IsLabel label) : Harmless label := by
  refine .of_plain fun character member => ?_
  rw [isPlain, isLabel.parts character member, Bool.or_true, Bool.true_or]

theorem Spaces.harmless {blanks : Text} (spaces : Spaces blanks) : Harmless blanks := by
  refine .of_plain fun character member => ?_
  rw [isPlain, spaces character member, Bool.true_or, Bool.true_or]

theorem IsQualifiedName.harmless {name : Text} (qualified : IsQualifiedName name) :
    Harmless name := by
  obtain ⟨labels, areLabels, rfl⟩ := qualified
  induction labels with
  | nil => exact .nil
  | cons label labels ih =>
      obtain ⟨isLabel, others⟩ := List.forall_mem_cons.mp areLabels
      obtain ⟨first, rest, rfl, start⟩ := isLabel.exists_cons
      have segment : Harmless ('\\' :: first :: rest) := .backslash start isLabel.harmless
      exact segment.append (ih others)

namespace Harmless

theorem word {text : Text} (plain : text.all isPlain = true) : Harmless text :=
  .of_plain (List.all_eq_true.mp plain)

/-- A comment around a text, in front of a blank. -/
theorem comment_append {inside rest : Text} {first : Char} (harmless : Harmless inside)
    (blank : isLineSpace first = true) (behind : Harmless (first :: rest)) :
    Harmless ('/' :: '*' :: (inside ++ '*' :: '/' :: first :: rest)) := by
  have closing : Harmless ('*' :: '/' :: first :: rest) := .plain rfl (.slash blank behind)
  refine .comment ⟨inside, first :: rest, ?_⟩ (.plain rfl (harmless.append closing))
  rw [List.append_assoc]
  rfl

theorem flatMap {Item : Type} {items : List Item} {write : Item → Text}
    (harmless : ∀ item ∈ items, Harmless (write item)) : Harmless (items.flatMap write) := by
  induction items with
  | nil => exact .nil
  | cons first items ih =>
      obtain ⟨near, later⟩ := List.forall_mem_cons.mp harmless
      rw [List.flatMap_cons]
      exact near.append (ih later)

theorem joinWith {separator : Text} {texts : List Text} (between : Harmless separator)
    (harmless : ∀ text ∈ texts, Harmless text) : Harmless (Text.joinWith separator texts) := by
  fun_induction Text.joinWith separator texts with
  | case1 => exact .nil
  | case2 last => exact harmless last (by simp)
  | case3 first rest _ ih =>
      obtain ⟨near, later⟩ := List.forall_mem_cons.mp harmless
      exact (near.append between).append (ih later)

theorem withCommas {texts : List Text} (harmless : ∀ text ∈ texts, Harmless text) :
    ∀ text ∈ withCommas texts, Harmless text := by
  fun_induction ConstructorInjection.withCommas texts with
  | case1 => simp
  | case2 last => exact harmless
  | case3 first rest _ ih =>
      obtain ⟨near, later⟩ := List.forall_mem_cons.mp harmless
      exact List.forall_mem_cons.mpr ⟨near.append (.word rfl), ih later⟩

end Harmless

namespace Dependency.Nameable

variable {dependency : Dependency}

theorem parameterText (nameable : dependency.Nameable) : Harmless dependency.parameterText :=
  (nameable.qualified.harmless.append (.word rfl)).append nameable.label.harmless

theorem assignmentText (nameable : dependency.Nameable) : Harmless dependency.assignmentText :=
  ((((Harmless.word rfl).append nameable.label.harmless).append (.word rfl)).append
    nameable.label.harmless).append (.word rfl)

/-- The comment on a property ends before its line does. -/
theorem propertyText (nameable : dependency.Nameable) {indent lineEnding : Text}
    (spacesIndent : Spaces indent) (spacesEnding : Spaces lineEnding) (breaks : lineEnding ≠ []) :
    Harmless (dependency.propertyText indent lineEnding) := by
  obtain ⟨first, others, rfl⟩ := List.exists_cons_of_ne_nil breaks
  have declared : Harmless (indent ++ "protected $" ++ dependency.variableName ++ ";") :=
    ((spacesIndent.harmless.append (.word rfl)).append nameable.label.harmless).append (.word rfl)
  have inside : Harmless ("* @var " ++ dependency.className ++ " ") :=
    ((Harmless.word rfl).append nameable.qualified.harmless).append (.word rfl)
  have whole := spacesIndent.harmless.append
    (inside.comment_append (spacesEnding first (by simp)) (spacesEnding.harmless.append declared))
  rw [Dependency.propertyText]
  simpa using whole

end Dependency.Nameable

section InjectionTexts

variable {stream : TokenStream} {declaration : ClassDeclaration} {indent lineEnding : Text}
  {options : InjectionOptions} {plan : InjectionPlan}

theorem harmless_constructorText
    (nameableParameters : ∀ dependency ∈ plan.parameters, dependency.Nameable)
    (nameableAssignments : ∀ dependency ∈ plan.assignments, dependency.Nameable)
    (marker : IsLabel options.marker) (spacesOption : Spaces options.indent)
    (spacesEnding : Spaces lineEnding) :
    Harmless (constructorText plan options lineEnding) := by
  have outer := spacesOption.harmless
  have inner := outer.append outer
  have opening : Harmless (options.indent ++ "public function " ++ options.marker ++ "(") :=
    ((outer.append (.word rfl)).append marker.harmless).append (.word rfl)
  have parentCall :
      Harmless (options.indent ++ options.indent ++ "parent::" ++ options.marker ++ "();") :=
    ((inner.append (.word rfl)).append marker.harmless).append (.word rfl)
  rw [constructorText]
  refine .joinWith spacesEnding.harmless ?_
  simp only [List.forall_mem_append, List.forall_mem_singleton, List.forall_mem_map]
  refine ⟨⟨⟨⟨⟨opening, ?_⟩, outer.append (.word rfl)⟩, ?_⟩, ?_⟩, outer.append (.word rfl)⟩
  · have listed : ∀ text ∈ plan.parameters.map Dependency.parameterText, Harmless text :=
      List.forall_mem_map.mpr fun dependency member =>
        (nameableParameters dependency member).parameterText
    exact fun text member => inner.append (Harmless.withCommas listed text member)
  · split
    · exact List.forall_mem_singleton.mpr parentCall
    · simp
  · exact fun dependency member =>
      inner.append (nameableAssignments dependency member).assignmentText

theorem harmless_classHeadText {blocks : List Text} (spacesEnding : Spaces lineEnding)
    (harmless : ∀ block ∈ blocks, Harmless block) :
    Harmless (classHeadText stream declaration blocks lineEnding) := by
  have ending := spacesEnding.harmless
  rcases List.eq_nil_or_concat blocks with rfl | ⟨front, last, rfl⟩
  · rw [classHeadText]
    split <;> simp [Harmless.nil]
  · obtain ⟨behind, isBehind, whole⟩ :=
      classHeadText_eq stream declaration front last lineEnding
    have harmlessBehind : Harmless behind := by
      rcases isBehind with rfl | rfl
      · exact ending
      · exact .nil
    rw [List.concat_eq_append, whole]
    refine Harmless.append (.flatMap fun block member => ?_)
      (ending.append ((harmless last (by simp)).append harmlessBehind))
    exact (ending.append (harmless block (by simp [member]))).append ending

end InjectionTexts

end ConstructorInjection
