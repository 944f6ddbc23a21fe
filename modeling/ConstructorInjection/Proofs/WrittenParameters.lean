import Mathlib.Data.List.Basic
import Mathlib.Tactic.Common
import ConstructorInjection.Proofs.CodeTokens
import ConstructorInjection.Proofs.CopiedCode
import ConstructorInjection.Proofs.Injections
import ConstructorInjection.Proofs.OwnConstructors

/-!
Parameters as they are written: attributes, modifiers, a type, the signs of a reference and of a
variadic parameter, the variable and a default, with blanks and comments between them. A list of
such parameters is read as what is written.
-/

namespace ConstructorInjection

section Grammar

/-- Groups of attributes, with the blanks behind each of them. -/
inductive AttributeGroups : List Token → Prop where
  | nil : AttributeGroups []
  | cons {opener closer : Token} {inner blanks rest : List Token}
      (opens : opener.kind = .attributeStart) (nested : Nested inner)
      (closes : closer.kind = .closeBracket) (blank : Blank blanks)
      (further : AttributeGroups rest) :
      AttributeGroups (opener :: (inner ++ closer :: (blanks ++ rest)))

/-- Modifiers that promote a parameter, with the blanks behind each of them. -/
inductive ModifierWords : List Token → Prop where
  | nil : ModifierWords []
  | cons {modifier : Token} {blanks rest : List Token}
      (promotes : promotionModifiers.any modifier.isKeyword = true) (blank : Blank blanks)
      (further : ModifierWords rest) : ModifierWords (modifier :: (blanks ++ rest))

/-- The sign between the members of a union or of an intersection. -/
def Token.JoinsTypes (token : Token) : Prop :=
  token.kind = .ampersand ∨ token.kind = .operator ∧ token.text = ['|']

/-- A type; keywords such as `array` are names of types, too. -/
inductive DeclaredType : List Token → Prop where
  | named {name : Token} (isWord : name.kind.isWord = true)
      (noModifier : promotionModifiers.any name.isKeyword = false) : DeclaredType [name]
  | nullable {question : Token} {blanks type : List Token} (isQuestion : question.kind = .question)
      (blank : Blank blanks) (declared : DeclaredType type) :
      DeclaredType (question :: (blanks ++ type))
  | joined {sign : Token} {left before behind right : List Token} (isLeft : DeclaredType left)
      (blankBefore : Blank before) (joins : sign.JoinsTypes) (blankBehind : Blank behind)
      (isRight : DeclaredType right) :
      DeclaredType (left ++ (before ++ sign :: (behind ++ right)))
  | parenthesised {opener closer : Token} {before type behind : List Token}
      (opens : opener.kind = .openParen) (blankBefore : Blank before) (inner : DeclaredType type)
      (blankBehind : Blank behind) (closes : closer.kind = .closeParen) :
      DeclaredType (opener :: (before ++ (type ++ (behind ++ [closer]))))

/-- A sign that may be missing, with the blanks behind it. -/
inductive OptionalSign (kind : TokenKind) : List Token → Prop where
  | missing : OptionalSign kind []
  | present {sign : Token} {blanks : List Token} (isSign : sign.kind = kind)
      (blank : Blank blanks) : OptionalSign kind (sign :: blanks)

/-- A default that may be missing, with the blanks in front of it. It ends with a token of its value
or with the equals sign; blanks behind it do not belong to the parameter. -/
inductive OptionalDefault : List Token → Prop where
  | missing : OptionalDefault []
  | present {sign : Token} {blanks value : List Token} (blank : Blank blanks)
      (isAssign : sign.kind = .assign) (item : IsItem value)
      (ends : ∀ last ∈ value.getLast?, last.isTrivia = false) :
      OptionalDefault (blanks ++ sign :: value)

/-- A type with the blanks behind it. -/
structure WrittenType where
  tokens : List Token
  behind : List Token
  declared : DeclaredType tokens
  blank : Blank behind

def WrittenType.tokensOf : Option WrittenType → List Token
  | none => []
  | some type => type.tokens ++ type.behind

structure WrittenParameter where
  attributes : List Token
  modifiers : List Token
  type : Option WrittenType
  reference : List Token
  ellipsis : List Token
  named : Token
  name : Text
  default : List Token
  areAttributes : AttributeGroups attributes
  areModifiers : ModifierWords modifiers
  isReference : OptionalSign .ampersand reference
  isEllipsis : OptionalSign .ellipsis ellipsis
  isVariable : named.kind = .variableName
  spelled : named.text = '$' :: name
  isDefault : OptionalDefault default

namespace WrittenParameter

variable (written : WrittenParameter)

/-- What stands in front of the variable. -/
def head : List Token :=
  written.attributes ++ (written.modifiers ++
    (WrittenType.tokensOf written.type ++ (written.reference ++ written.ellipsis)))

def tokens : List Token :=
  written.head ++ written.named :: written.default

/-- What a parameter says that is written from `start` on. -/
def parameterAt (start : Nat) : Parameter where
  typeName := written.type.map (textOf ·.tokens)
  name := written.name
  hasDefault := !written.default.isEmpty
  isVariadic := !written.ellipsis.isEmpty
  isPromoted := !written.modifiers.isEmpty
  range := ⟨start, start + written.tokens.length⟩

end WrittenParameter

/-- A parameter with blanks around it. -/
structure WrittenItem where
  before : List Token
  parameter : WrittenParameter
  behind : List Token
  blankBefore : Blank before
  blankBehind : Blank behind

def WrittenItem.tokens (item : WrittenItem) : List Token :=
  item.before ++ (item.parameter.tokens ++ item.behind)

def WrittenItem.parameterAt (item : WrittenItem) (start : Nat) : Parameter :=
  item.parameter.parameterAt (start + item.before.length)

/-- The tokens of a list from `start` on and the parameters in it. Behind the last parameter, a
comma may stand or not. -/
inductive WrittenList : Nat → List Token → List Parameter → Prop where
  | blank {start : Nat} {blanks : List Token} (blank : Blank blanks) : WrittenList start blanks []
  | last {start : Nat} (item : WrittenItem) :
      WrittenList start item.tokens [item.parameterAt start]
  | comma {start : Nat} {comma : Token} {rest : List Token} {parameters : List Parameter}
      (item : WrittenItem) (isComma : comma.kind = .comma)
      (further : WrittenList (start + item.tokens.length + 1) rest parameters) :
      WrittenList start (item.tokens ++ comma :: rest) (item.parameterAt start :: parameters)

end Grammar

section Items

theorem IsItem.nil : IsItem [] :=
  .of_plain (by simp)

theorem Blank.isItem {tokens : List Token} (blank : Blank tokens) : IsItem tokens := by
  apply IsItem.of_plain
  intro token member
  have isTrivia := blank token member
  rw [Token.isTrivia] at isTrivia
  revert isTrivia
  cases token.kind <;> decide

/-- The kinds of a token that neither opens or closes anything nor cuts a list. -/
def TokenKind.isPlain (kind : TokenKind) : Bool :=
  !kind.isOpener && !kind.isCloser && kind != .comma

theorem IsItem.single {token : Token} (plain : token.kind.isPlain = true) : IsItem [token] := by
  apply IsItem.of_plain
  intro other member
  rw [List.mem_singleton.mp member]
  simpa [TokenKind.isPlain] using plain

theorem IsItem.cons {token : Token} {rest : List Token} (plain : token.kind.isPlain = true)
    (item : IsItem rest) : IsItem (token :: rest) :=
  (IsItem.single plain).append item

theorem AttributeGroups.isItem {tokens : List Token} (groups : AttributeGroups tokens) :
    IsItem tokens := by
  induction groups with
  | nil => exact .nil
  | @cons opener closer inner blanks rest opens nested closes blank further ih =>
      have partners : opener.kind.closing? = some closer.kind := by rw [opens, closes]; rfl
      have item := (IsItem.pair partners nested).append (blank.isItem.append ih)
      simpa using item

theorem kind_of_promotes {token : Token}
    (promotes : promotionModifiers.any token.isKeyword = true) : token.kind = .keyword := by
  obtain ⟨word, _, isWord⟩ := List.any_eq_true.mp promotes
  rw [Token.isKeyword, Bool.and_eq_true, beq_iff_eq] at isWord
  exact isWord.1

theorem ModifierWords.isItem {tokens : List Token} (words : ModifierWords tokens) :
    IsItem tokens := by
  induction words with
  | nil => exact .nil
  | cons promotes blank further ih =>
      exact .cons (by rw [kind_of_promotes promotes]; rfl) (blank.isItem.append ih)

theorem DeclaredType.isItem {tokens : List Token} (declared : DeclaredType tokens) :
    IsItem tokens := by
  induction declared with
  | @named name isWord =>
      apply IsItem.single
      revert isWord
      cases name.kind <;> decide
  | nullable isQuestion blank _ ih =>
      exact .cons (by rw [isQuestion]; rfl) (blank.isItem.append ih)
  | joined _ blankBefore joins blankBehind _ left right =>
      refine left.append (blankBefore.isItem.append (.cons ?_ (blankBehind.isItem.append right)))
      rcases joins with ampersand | ⟨bar, _⟩
      · rw [ampersand]; rfl
      · rw [bar]; rfl
  | @parenthesised opener closer before type behind opens blankBefore _ blankBehind closes ih =>
      have partners : opener.kind.closing? = some closer.kind := by rw [opens, closes]; rfl
      have item := blankBefore.isItem.append (ih.append blankBehind.isItem)
      simpa using IsItem.pair partners item.nested

theorem OptionalSign.isItem {kind : TokenKind} {tokens : List Token}
    (sign : OptionalSign kind tokens) (plain : kind.isPlain = true) : IsItem tokens := by
  cases sign with
  | missing => exact .nil
  | present isSign blank => exact .cons (by rw [isSign, plain]) blank.isItem

theorem OptionalDefault.isItem {tokens : List Token} (default : OptionalDefault tokens) :
    IsItem tokens := by
  cases default with
  | missing => exact .nil
  | present blank isAssign item =>
      exact blank.isItem.append (.cons (by rw [isAssign]; rfl) item)

theorem WrittenType.isItem (type : Option WrittenType) : IsItem (tokensOf type) := by
  cases type with
  | none => exact .nil
  | some type => exact type.declared.isItem.append type.blank.isItem

theorem WrittenParameter.isItem (written : WrittenParameter) : IsItem written.tokens := by
  have head : IsItem written.head :=
    written.areAttributes.isItem.append (written.areModifiers.isItem.append
      ((WrittenType.isItem written.type).append ((written.isReference.isItem rfl).append
        (written.isEllipsis.isItem rfl))))
  exact head.append (.cons (by rw [written.isVariable]; rfl) written.isDefault.isItem)

theorem WrittenItem.isItem (item : WrittenItem) : IsItem item.tokens :=
  item.blankBefore.isItem.append (item.parameter.isItem.append item.blankBehind.isItem)

theorem WrittenList.nested {start : Nat} {tokens : List Token} {parameters : List Parameter}
    (written : WrittenList start tokens parameters) : Nested tokens := by
  induction written with
  | blank blank => exact blank.nested
  | last item => exact item.isItem.nested
  | comma item isComma _ ih =>
      refine item.isItem.nested.append (.plain ?_ ?_ ih) <;> rw [isComma] <;> rfl

end Items

section Ends

/-- The first token, if there is any, is neither blank nor comment. -/
def BeginsWithCode (tokens : List Token) : Prop :=
  ∀ first ∈ tokens.head?, first.isTrivia = false

theorem BeginsWithCode.nil : BeginsWithCode [] := by
  simp [BeginsWithCode]

theorem BeginsWithCode.append {left right : List Token} (first : BeginsWithCode left)
    (second : BeginsWithCode right) : BeginsWithCode (left ++ right) := by
  cases left with
  | nil => exact second
  | cons token left => exact first

theorem BeginsWithCode.cons {token : Token} (code : token.kind.isTrivia = false)
    (rest : List Token) : BeginsWithCode (token :: rest) := by
  intro first isFirst
  rw [List.head?_cons, Option.mem_some_iff] at isFirst
  rw [← isFirst, Token.isTrivia, code]

theorem AttributeGroups.beginsWithCode {tokens : List Token} (groups : AttributeGroups tokens) :
    BeginsWithCode tokens := by
  cases groups with
  | nil => exact .nil
  | cons opens => exact .cons (by rw [opens]; rfl) _

theorem ModifierWords.beginsWithCode {tokens : List Token} (words : ModifierWords tokens) :
    BeginsWithCode tokens := by
  cases words with
  | nil => exact .nil
  | cons promotes => exact .cons (by rw [kind_of_promotes promotes]; rfl) _

theorem OptionalSign.beginsWithCode {kind : TokenKind} {tokens : List Token}
    (sign : OptionalSign kind tokens) (code : kind.isTrivia = false) : BeginsWithCode tokens := by
  cases sign with
  | missing => exact .nil
  | present isSign => exact .cons (by rw [isSign, code]) _

theorem DeclaredType.exists_cons {tokens : List Token} (declared : DeclaredType tokens) :
    ∃ first rest, tokens = first :: rest ∧ first.kind.isTrivia = false := by
  induction declared with
  | @named name isWord =>
      refine ⟨name, [], rfl, ?_⟩
      revert isWord
      cases name.kind <;> decide
  | nullable isQuestion => exact ⟨_, _, rfl, by rw [isQuestion]; rfl⟩
  | joined _ _ _ _ _ left =>
      obtain ⟨first, rest, rfl, code⟩ := left
      exact ⟨first, _, rfl, code⟩
  | parenthesised opens => exact ⟨_, _, rfl, by rw [opens]; rfl⟩

theorem WrittenType.beginsWithCode (type : Option WrittenType) :
    BeginsWithCode (tokensOf type) := by
  cases type with
  | none => exact .nil
  | some type =>
      obtain ⟨first, rest, isType, code⟩ := type.declared.exists_cons
      rw [tokensOf, isType]
      exact .cons code _

theorem OptionalDefault.endsWithCode {token : Token} {tokens : List Token}
    (default : OptionalDefault tokens) (code : token.kind.isTrivia = false) :
    ∀ last ∈ (token :: tokens).getLast?, last.isTrivia = false := by
  cases default with
  | missing => simpa [Token.isTrivia] using code
  | @present sign blanks value blank isAssign item ends =>
      rw [← List.cons_append, List.getLast?_append_of_ne_nil _ (List.cons_ne_nil _ _)]
      cases value with
      | nil =>
          intro last isLast
          rw [List.getLast?_singleton, Option.mem_some_iff] at isLast
          rw [← isLast, Token.isTrivia, isAssign]
          rfl
      | cons first value => rwa [List.getLast?_cons_cons]

namespace WrittenParameter

variable (written : WrittenParameter)

theorem beginsWithCode : BeginsWithCode written.tokens := by
  have head : BeginsWithCode written.head :=
    written.areAttributes.beginsWithCode.append (written.areModifiers.beginsWithCode.append
      ((WrittenType.beginsWithCode written.type).append
        ((written.isReference.beginsWithCode rfl).append
          (written.isEllipsis.beginsWithCode rfl))))
  exact head.append (.cons (by rw [written.isVariable]; rfl) _)

theorem endsWithCode : ∀ last ∈ written.tokens.getLast?, last.isTrivia = false := by
  rw [tokens, List.getLast?_append_of_ne_nil _ (List.cons_ne_nil _ _)]
  exact written.isDefault.endsWithCode (by rw [written.isVariable]; rfl)

theorem tokens_ne_nil : written.tokens ≠ [] := by
  simp [tokens]

end WrittenParameter

end Ends

namespace ParameterHead

/-- A head with some tokens added to its type. -/
def extended (head : ParameterHead) (start stop : Nat) : ParameterHead :=
  { head with typeRange := some ⟨(head.typeRange.map IndexRange.start).getD start, stop⟩ }

theorem extended_extended (head : ParameterHead) (start stop more further : Nat) :
    (head.extended start stop).extended more further = head.extended start further :=
  rfl

def promoted (head : ParameterHead) (words : List Token) : ParameterHead :=
  { head with isPromoted := head.isPromoted || !words.isEmpty }

end ParameterHead

namespace TokenStream

section Heads

variable {stream : TokenStream} {stop index : Nat} {head : ParameterHead} {token : Token}
  {rest : List Token}

theorem noModifier_of_kind {kind : TokenKind} (isKind : token.kind = kind)
    (noKeyword : kind ≠ .keyword) : promotionModifiers.any token.isKeyword = false := by
  rw [← Bool.not_eq_true]
  exact fun promotes => noKeyword (isKind.symm.trans (kind_of_promotes promotes))

/-- A token that belongs to the type goes to the head. -/
theorem parameterHead?_type (cut : stream.drop index = token :: rest) (inside : index < stop)
    (ofType : token.kind.isWord = true ∨
      token.kind ∈ [.question, .operator, .openParen, .closeParen])
    (noModifier : promotionModifiers.any token.isKeyword = false) :
    stream.parameterHead? stop head index =
      stream.parameterHead? stop (head.extended index (index + 1)) (index + 1) := by
  rw [parameterHead?, if_pos inside, (drop_eq_cons_iff.mp cut).1]
  simp only [noModifier, Token.isTrivia]
  revert ofType
  cases token.kind <;> simp [TokenKind.isWord, TokenKind.isName, TokenKind.isTrivia] <;> rfl

theorem parameterHead?_modifier (cut : stream.drop index = token :: rest) (inside : index < stop)
    (promotes : promotionModifiers.any token.isKeyword = true) :
    stream.parameterHead? stop head index =
      stream.parameterHead? stop { head with isPromoted := true } (index + 1) := by
  rw [parameterHead?, if_pos inside, (drop_eq_cons_iff.mp cut).1]
  simp only [promotes, Token.isTrivia, kind_of_promotes promotes]
  rfl

theorem parameterHead?_ampersand (cut : stream.drop index = token :: rest) (inside : index < stop)
    (isAmpersand : token.kind = .ampersand) :
    stream.parameterHead? stop head index = stream.parameterHead? stop head (index + 1) := by
  rw [parameterHead?, if_pos inside, (drop_eq_cons_iff.mp cut).1]
  have noModifier := noModifier_of_kind isAmpersand (by decide)
  simp only [noModifier, Token.isTrivia, isAmpersand]
  rfl

theorem parameterHead?_ellipsis (cut : stream.drop index = token :: rest) (inside : index < stop)
    (isEllipsis : token.kind = .ellipsis) :
    stream.parameterHead? stop head index =
      stream.parameterHead? stop { head with isVariadic := true } (index + 1) := by
  rw [parameterHead?, if_pos inside, (drop_eq_cons_iff.mp cut).1]
  have noModifier := noModifier_of_kind isEllipsis (by decide)
  simp only [noModifier, Token.isTrivia, isEllipsis]
  rfl

theorem parameterHead?_variable (cut : stream.drop index = token :: rest) (inside : index < stop)
    (isVariable : token.kind = .variableName) :
    stream.parameterHead? stop head index = some (head, index) := by
  rw [parameterHead?, if_pos inside, (drop_eq_cons_iff.mp cut).1]
  have noModifier := noModifier_of_kind isVariable (by decide)
  simp only [noModifier, Token.isTrivia, isVariable]
  rfl

/-- An attribute is passed over as a whole. -/
theorem parameterHead?_attribute {opener closer : Token} {inner : List Token}
    (cut : stream.drop index = opener :: (inner ++ closer :: rest))
    (inside : index + inner.length + 2 ≤ stop) (opens : opener.kind = .attributeStart)
    (level : Level inner) (closes : closer.kind = .closeBracket) :
    stream.parameterHead? stop head index =
      stream.parameterHead? stop head (index + inner.length + 2) := by
  have partner : stream.matchingClose? index = some (index + 1 + inner.length) :=
    matchingClose?_eq_some_iff.mpr
      ⟨opener, inner, closer, rest, cut, rfl, by rw [opens]; rfl, by rw [closes]; rfl, level⟩
  rw [parameterHead?, if_pos (by omega), (drop_eq_cons_iff.mp cut).1]
  simp only [Token.isTrivia, opens, partner, Option.getD_some]
  have behind : max index (index + 1 + inner.length) + 1 = index + inner.length + 2 := by omega
  rw [behind]
  rfl

section Runs

variable {tokens : List Token} {finish : Nat}

theorem parameterHead?_attributes (groups : AttributeGroups tokens)
    (cut : stream.drop index = tokens ++ rest) (place : finish = index + tokens.length)
    (inside : finish ≤ stop) :
    stream.parameterHead? stop head index = stream.parameterHead? stop head finish := by
  induction groups generalizing index with
  | nil => rw [place]; rfl
  | @cons opener closer inner blanks groups opens nested closes blank _ ih =>
      simp only [List.cons_append, List.append_assoc] at cut
      simp only [List.length_cons, List.length_append] at place
      have behind : stream.drop (index + inner.length + 2) = blanks ++ (groups ++ rest) := by
        have atInner := (drop_eq_cons_iff.mp cut).2
        rw [← drop_of_drop_eq_cons atInner]
        congr 1
        omega
      rw [parameterHead?_attribute cut (by omega) opens nested.level closes,
        parameterHead?_blanks behind blank (by omega)]
      exact ih (drop_of_drop_eq behind) (by omega)

theorem parameterHead?_modifiers (words : ModifierWords tokens)
    (cut : stream.drop index = tokens ++ rest) (place : finish = index + tokens.length)
    (inside : finish ≤ stop) :
    stream.parameterHead? stop head index =
      stream.parameterHead? stop (head.promoted tokens) finish := by
  induction words generalizing index head with
  | nil => simp [place, ParameterHead.promoted]
  | @cons modifier blanks words promotes blank _ ih =>
      simp only [List.cons_append, List.append_assoc] at cut
      simp only [List.length_cons, List.length_append] at place
      have behind := (drop_eq_cons_iff.mp cut).2
      rw [parameterHead?_modifier cut (by omega) promotes,
        parameterHead?_blanks behind blank (by omega), ih (drop_of_drop_eq behind) (by omega)]
      simp [ParameterHead.promoted]

/-- A type is read from its first token to its last one. -/
theorem parameterHead?_declaredType (declared : DeclaredType tokens)
    (cut : stream.drop index = tokens ++ rest) (place : finish = index + tokens.length)
    (inside : finish ≤ stop) :
    stream.parameterHead? stop head index =
      stream.parameterHead? stop (head.extended index finish) finish := by
  induction declared generalizing index finish head rest with
  | named isWord noModifier =>
      rw [List.length_singleton] at place
      rw [place]
      exact parameterHead?_type cut (by omega) (.inl isWord) noModifier
  | @nullable question blanks type isQuestion blank _ ih =>
      simp only [List.cons_append, List.append_assoc] at cut
      simp only [List.length_cons, List.length_append] at place
      have behind := (drop_eq_cons_iff.mp cut).2
      rw [parameterHead?_type cut (by omega) (by simp [isQuestion])
          (noModifier_of_kind isQuestion (by decide)),
        parameterHead?_blanks behind blank (by omega),
        ih (drop_of_drop_eq behind) (by omega) inside, ParameterHead.extended_extended]
  | @joined sign left before behind right _ blankBefore joins blankBehind _ ihLeft ihRight =>
      simp only [List.cons_append, List.append_assoc] at cut
      simp only [List.length_cons, List.length_append] at place
      have atBefore := drop_of_drop_eq cut
      have atSign := drop_of_drop_eq atBefore
      have atBehind := (drop_eq_cons_iff.mp atSign).2
      rw [ihLeft cut rfl (by omega), parameterHead?_blanks atBefore blankBefore (by omega)]
      rcases joins with isAmpersand | ⟨isBar, _⟩
      -- An ampersand is read as no part of the type; the member behind it extends the type over it.
      · rw [parameterHead?_ampersand atSign (by omega) isAmpersand,
          parameterHead?_blanks atBehind blankBehind (by omega),
          ihRight (drop_of_drop_eq atBehind) (by omega) inside, ParameterHead.extended_extended]
      · rw [parameterHead?_type atSign (by omega) (by simp [isBar])
            (noModifier_of_kind isBar (by decide)),
          parameterHead?_blanks atBehind blankBehind (by omega),
          ihRight (drop_of_drop_eq atBehind) (by omega) inside, ParameterHead.extended_extended,
          ParameterHead.extended_extended]
  | @parenthesised opener closer before type behind opens blankBefore _ blankBehind closes ih =>
      simp only [List.cons_append, List.nil_append, List.append_assoc] at cut
      simp only [List.length_cons, List.length_append, List.length_nil] at place
      have atBefore := (drop_eq_cons_iff.mp cut).2
      have atType := drop_of_drop_eq atBefore
      have atBehind := drop_of_drop_eq atType
      have atCloser := drop_of_drop_eq atBehind
      rw [parameterHead?_type cut (by omega) (by simp [opens])
          (noModifier_of_kind opens (by decide)),
        parameterHead?_blanks atBefore blankBefore (by omega), ih atType rfl (by omega),
        parameterHead?_blanks atBehind blankBehind (by omega),
        parameterHead?_type atCloser (by omega) (by simp [closes])
          (noModifier_of_kind closes (by decide))]
      have last : index + 1 + before.length + type.length + behind.length + 1 = finish := by omega
      simp only [ParameterHead.extended_extended, last]

theorem parameterHead?_reference (reference : OptionalSign .ampersand tokens)
    (cut : stream.drop index = tokens ++ rest) (place : finish = index + tokens.length)
    (inside : finish ≤ stop) :
    stream.parameterHead? stop head index = stream.parameterHead? stop head finish := by
  cases reference with
  | missing => rw [place]; rfl
  | present isAmpersand blank =>
      rw [List.length_cons] at place
      rw [parameterHead?_ampersand cut (by omega) isAmpersand,
        parameterHead?_blanks (drop_eq_cons_iff.mp cut).2 blank (by omega)]
      congr 1
      omega

theorem parameterHead?_dots (ellipsis : OptionalSign .ellipsis tokens)
    (cut : stream.drop index = tokens ++ rest) (place : finish = index + tokens.length)
    (inside : finish ≤ stop) :
    stream.parameterHead? stop head index =
      stream.parameterHead? stop
        { head with isVariadic := head.isVariadic || !tokens.isEmpty } finish := by
  cases ellipsis with
  | missing => simp [place]
  | present isEllipsis blank =>
      rw [List.length_cons] at place
      rw [parameterHead?_ellipsis cut (by omega) isEllipsis,
        parameterHead?_blanks (drop_eq_cons_iff.mp cut).2 blank (by omega)]
      simp only [List.isEmpty_cons, Bool.not_false, Bool.or_true]
      congr 1
      omega

/-- The type, if there is one, from its first token to its last one. -/
theorem parameterHead?_typeTokens {type : Option WrittenType} (untyped : head.typeRange = none)
    (cut : stream.drop index = WrittenType.tokensOf type ++ rest)
    (place : finish = index + (WrittenType.tokensOf type).length) (inside : finish ≤ stop) :
    stream.parameterHead? stop head index =
      stream.parameterHead? stop
        { head with typeRange := type.map fun type => ⟨index, index + type.tokens.length⟩ }
        finish := by
  cases type with
  | none =>
      rw [Option.map_none, ← untyped, place]
      rfl
  | some type =>
      simp only [WrittenType.tokensOf, List.append_assoc, List.length_append] at cut place
      have behind := drop_of_drop_eq cut
      rw [parameterHead?_declaredType type.declared cut rfl (by omega),
        parameterHead?_blanks behind type.blank (by omega), ParameterHead.extended, untyped]
      congr 1
      omega

end Runs

end Heads

theorem isSome_firstIn?_default {stream : TokenStream} {index stop : Nat} {tokens rest : List Token}
    (default : OptionalDefault tokens) (cut : stream.drop index = tokens ++ rest)
    (place : stop = index + tokens.length) :
    (stream.firstIn? ⟨index, stop⟩ (·.kind == .assign)).isSome = !tokens.isEmpty := by
  rw [firstIn?, slice_of_drop_eq cut place]
  cases default with
  | missing => rfl
  | present blank isAssign => simp [isAssign]

end TokenStream

namespace WrittenParameter

variable (written : WrittenParameter)

/-- What is read in front of the variable of a parameter that is written from `start` on. -/
def headAt (start : Nat) : ParameterHead where
  isPromoted := !written.modifiers.isEmpty
  isVariadic := !written.ellipsis.isEmpty
  typeRange := written.type.map fun type =>
    ⟨start + written.attributes.length + written.modifiers.length,
      start + written.attributes.length + written.modifiers.length + type.tokens.length⟩

section Reading

open TokenStream

variable {stream : TokenStream} {start : Nat} {rest : List Token}

theorem parameterHead?_written {stop : Nat} (cut : stream.drop start = written.tokens ++ rest)
    (place : stop = start + written.tokens.length) :
    stream.parameterHead? stop ParameterHead.none start =
      some (written.headAt start, start + written.head.length) := by
  simp only [tokens, head, List.append_assoc, List.cons_append] at cut
  simp only [tokens, head, List.length_append, List.length_cons] at place
  have atModifiers := drop_of_drop_eq cut
  have atType := drop_of_drop_eq atModifiers
  have atReference := drop_of_drop_eq atType
  have atEllipsis := drop_of_drop_eq atReference
  have atVariable := drop_of_drop_eq atEllipsis
  rw [parameterHead?_attributes written.areAttributes cut rfl (by omega),
    parameterHead?_modifiers written.areModifiers atModifiers rfl (by omega),
    parameterHead?_typeTokens rfl atType rfl (by omega),
    parameterHead?_reference written.isReference atReference rfl (by omega),
    parameterHead?_dots written.isEllipsis atEllipsis rfl (by omega),
    parameterHead?_variable atVariable (by omega) written.isVariable]
  have variablePlace : start + written.attributes.length + written.modifiers.length +
      (WrittenType.tokensOf written.type).length + written.reference.length +
      written.ellipsis.length = start + written.head.length := by
    simp only [head, List.length_append]
    omega
  rw [variablePlace]
  simp [headAt, ParameterHead.none, ParameterHead.promoted]

theorem textOf_type (cut : stream.drop start = written.tokens ++ rest) :
    (written.headAt start).typeRange.map stream.textOf =
      written.type.map (ConstructorInjection.textOf ·.tokens) := by
  rw [headAt, Option.map_map]
  cases typed : written.type with
  | none => rfl
  | some type =>
      simp only [tokens, head, typed, WrittenType.tokensOf, List.append_assoc] at cut
      rw [Option.map_some, Option.map_some, Function.comp_apply, TokenStream.textOf,
        slice_of_drop_eq (drop_of_drop_eq (drop_of_drop_eq cut)) rfl]

/-- A parameter is read as it is written. -/
theorem parameterIn?_written (cut : stream.drop start = written.tokens ++ rest)
    (noDollar : written.name.head? ≠ some '$') :
    stream.parameterIn? ⟨start, start + written.tokens.length⟩ =
      some (written.parameterAt start) := by
  have parts : stream.drop start = written.head ++ written.named :: (written.default ++ rest) := by
    rw [cut, tokens, List.append_assoc, List.cons_append]
  have stop : start + written.tokens.length =
      start + written.head.length + 1 + written.default.length := by
    rw [tokens, List.length_append, List.length_cons]
    omega
  have default := isSome_firstIn?_default written.isDefault (drop_of_drop_eq_cons parts) stop
  have named : written.named.text.dropWhile (· == '$') = written.name := by
    rw [written.spelled, List.dropWhile_cons_of_pos (by simp)]
    cases name : written.name with
    | nil => rfl
    | cons first others =>
        rw [name, List.head?_cons, ne_eq, Option.some.injEq] at noDollar
        exact List.dropWhile_cons_of_neg (by simpa using noDollar)
  rw [parameterIn?, written.parameterHead?_written cut rfl]
  simp only [Option.bind_eq_bind, Option.bind_some, getElem?_of_drop_eq parts, default, named,
    written.textOf_type cut]
  rfl

end Reading

end WrittenParameter

section Variables

theorem LexicalRule.eq_of_variableName :
    ∀ rule ∈ lexicalRules, rule.lexeme.gives .variableName = true →
      rule = ⟨.variableName, .whole .variableName⟩ := by
  decide

theorem Pattern.take_variable {input : Text} (positive : 0 < variableName.matchLength input) :
    ∃ first others, input.take (variableName.matchLength input) = '$' :: first :: others ∧
      isLabelStart first = true := by
  have dollar : input.head? = some '$' := by
    by_contra other
    have size : matchLength variableName input = 0 := by
      rw [matchLength]
      rintro _ rfl
      exact other rfl
    omega
  obtain ⟨rest, rfl⟩ := List.head?_eq_some_iff.mp dollar
  rw [matchLength] at positive ⊢
  cases rest with
  | nil => simp [labelLength] at positive
  | cons first rest =>
      by_cases starts : isLabelStart first = true
      · exact ⟨first, rest.take (rest.takeWhile isLabelPart).length,
          by simp [labelLength, starts], starts⟩
      · simp [labelLength, starts] at positive

/-- The name of a variable begins with what names begin with, behind its dollar sign. -/
theorem Piece.text_of_variable {mode : LexMode} {memberName : Bool} {input : Text} {piece : Piece}
    (next : Piece.next mode memberName input = .ok piece)
    (isVariable : piece.kind = .variableName) :
    ∃ first others, input.take piece.length = '$' :: first :: others ∧
      isLabelStart first = true := by
  have inCode : piece.kind.isMarkup = false := by
    rw [isVariable]
    rfl
  obtain rfl := Piece.mode_of_isMarkup next inCode
  obtain ⟨rule, member, gives, matched, extent, match_eq, positive, scanned, length, -⟩ :=
    Piece.exists_rule next
  rw [isVariable] at gives
  cases LexicalRule.eq_of_variableName rule member gives
  cases scanned
  subst match_eq
  rw [length, Nat.add_zero]
  exact Pattern.take_variable positive

/-- No variable has a second dollar sign at the start of its name. -/
theorem Lexes.noDollar {mode : LexMode} {memberName : Bool} {place : Place} {input : Text}
    {tokens : List Token} (lexes : Lexes mode memberName place input tokens) :
    ∀ token ∈ tokens, token.kind = .variableName → ∀ name, token.text = '$' :: name →
      name.head? ≠ some '$' := by
  induction lexes with
  | done => simp
  | @step mode memberName place input piece rest _ next _ ih =>
      rw [List.forall_mem_cons]
      refine ⟨fun isVariable name spelled => ?_, ih⟩
      obtain ⟨first, others, text, starts⟩ := Piece.text_of_variable next isVariable
      rw [text] at spelled
      cases spelled
      rintro ⟨⟩
      contradiction

end Variables

namespace TokenStream

theorem takeWhile_blanks {blanks rest : List Token} (blank : Blank blanks)
    (code : BeginsWithCode rest) : (blanks ++ rest).takeWhile Token.isTrivia = blanks := by
  apply takeWhile_append_of_stop blank
  cases rest with
  | nil => rfl
  | cons first rest => exact code first rfl

/-- Trimming leaves what is between blanks. -/
theorem trimTrivia_between {stream : TokenStream} {start : Nat}
    {before core behind rest : List Token}
    (cut : stream.drop start = (before ++ (core ++ behind)) ++ rest) (blankBefore : Blank before)
    (nonempty : core ≠ []) (begins : BeginsWithCode core)
    (ends : ∀ last ∈ core.getLast?, last.isTrivia = false) (blankBehind : Blank behind) :
    stream.trimTrivia ⟨start, start + (before ++ (core ++ behind)).length⟩ =
      ⟨start + before.length, start + before.length + core.length⟩ := by
  have fits := congrArg List.length cut
  have sizes : (before ++ (core ++ behind)).length =
      before.length + (core.length + behind.length) := by
    rw [List.length_append, List.length_append]
  have stop : min (start + (before ++ (core ++ behind)).length) stream.length =
      start + (before ++ (core ++ behind)).length := by
    rw [List.length_drop, List.length_append] at fits
    have size := List.length_pos_iff.mpr nonempty
    omega
  have front : (before ++ (core ++ behind)).takeWhile Token.isTrivia = before := by
    apply takeWhile_blanks blankBefore
    cases core with
    | nil => contradiction
    | cons first core => exact begins
  have back : (core ++ behind).reverse.takeWhile Token.isTrivia = behind.reverse := by
    rw [List.reverse_append]
    apply takeWhile_blanks
    · exact fun token member => blankBehind token (List.mem_reverse.mp member)
    · intro last isLast
      rw [List.head?_reverse] at isLast
      exact ends last isLast
  simp only [trimTrivia, stop, slice_of_drop_eq cut rfl, front, List.drop_left, back,
    List.length_reverse, IndexRange.mk.injEq, true_and]
  omega

/-- What no comma cuts is one item, if there is any code in it. -/
theorem splitTopLevel_item {stream : TokenStream} {start : Nat} {tokens rest : List Token}
    (item : IsItem tokens) (cut : stream.drop start = tokens ++ rest) :
    stream.splitTopLevel ⟨start, start + tokens.length⟩ =
      if tokens.any (!·.isTrivia) then [⟨start, start + tokens.length⟩] else [] := by
  have inner := slice_of_drop_eq cut rfl
  rw [splitTopLevel, inner, splitFrom_uncut item.uncut item.nested.level, List.filter_singleton,
    isSignificant, inner, Bool.cond_eq_ite]

section Lists

variable {mode : LexMode} {memberName : Bool} {place : Place} {input : Text} {stream : TokenStream}
  {opening : Nat} {rest : List Token}

theorem parametersIn_item (lexes : Lexes mode memberName place input stream) (item : WrittenItem)
    (cut : stream.drop (opening + 1) = item.tokens ++ rest) :
    stream.parametersIn ⟨opening, opening + 1 + item.tokens.length⟩ =
      [item.parameterAt (opening + 1)] := by
  have named : item.parameter.named ∈ item.tokens := by
    simp [WrittenItem.tokens, WrittenParameter.tokens]
  have noDollar : item.parameter.name.head? ≠ some '$' := by
    have behind : item.parameter.named ∈ stream.drop (opening + 1) := by
      rw [cut]
      exact List.mem_append_left rest named
    exact lexes.noDollar _ (List.mem_of_mem_drop behind) item.parameter.isVariable _
      item.parameter.spelled
  have significant : item.tokens.any (!·.isTrivia) = true :=
    List.any_eq_true.mpr ⟨_, named, by rw [Token.isTrivia, item.parameter.isVariable]; rfl⟩
  have trimmed := trimTrivia_between cut item.blankBefore item.parameter.tokens_ne_nil
    item.parameter.beginsWithCode item.parameter.endsWithCode item.blankBehind
  have atParameter : stream.drop (opening + 1 + item.before.length) =
      item.parameter.tokens ++ (item.behind ++ rest) := by
    apply drop_of_drop_eq
    rw [cut, WrittenItem.tokens, List.append_assoc, List.append_assoc]
  have written := item.parameter.parameterIn?_written atParameter noDollar
  rw [parametersIn, ParameterList.inner, splitTopLevel_item item.isItem cut, if_pos significant,
    List.filterMap_cons, WrittenItem.tokens, trimmed, written]
  rfl

theorem parametersIn_blank {blanks : List Token}
    (cut : stream.drop (opening + 1) = blanks ++ rest) (blank : Blank blanks) :
    stream.parametersIn ⟨opening, opening + 1 + blanks.length⟩ = [] := by
  have insignificant : ¬ blanks.any (!·.isTrivia) = true := by
    rw [List.any_eq_true]
    rintro ⟨token, member, code⟩
    rw [blank token member] at code
    contradiction
  rw [parametersIn, ParameterList.inner, splitTopLevel_item blank.isItem cut, if_neg insignificant]
  rfl

/-- The parameters of a list are those that are written in it. -/
theorem parametersIn_written {inner : List Token} {parameters : List Parameter}
    (lexes : Lexes mode memberName place input stream)
    (cut : stream.drop (opening + 1) = inner ++ rest)
    (written : WrittenList (opening + 1) inner parameters) :
    stream.parametersIn ⟨opening, opening + 1 + inner.length⟩ = parameters := by
  generalize begins : opening + 1 = start at written
  -- The comma behind an item takes the place of the opening parenthesis for the rest of the list.
  induction written generalizing opening with
  | blank blank =>
      subst begins
      exact parametersIn_blank cut blank
  | last item =>
      subst begins
      exact parametersIn_item lexes item cut
  | @comma start comma more parameters item isComma _ ih =>
      subst begins
      rw [List.append_assoc, List.cons_append] at cut
      have length : opening + 1 + (item.tokens ++ comma :: more).length =
          opening + 1 + item.tokens.length + 1 + more.length := by
        rw [List.length_append, List.length_cons]
        omega
      rw [length, parametersIn_append_comma cut isComma item.isItem.nested.level,
        parametersIn_item lexes item cut, ih (drop_of_drop_eq_cons cut) rfl]
      rfl

end Lists

/-- The parameters of a constructor are located as they are written: each with the text of its type
from the first to the last token, its name, whether it has a default, takes all that is left and
declares a property, and with its place without the blanks and commas around it. -/
theorem locate?_written {source : Text} {stream : TokenStream} {declaration : ClassDeclaration}
    {marker : Text} {function name : Nat} {others : List Nat} {opener closer : Token}
    {blanks inner tail : List Token} {parameters : List Parameter}
    (lexed : tokenize source = .ok stream) (found : stream.findClass? = some declaration)
    (first : stream.FirstMarked declaration marker function name others)
    (cut : stream.drop (name + 1) = blanks ++ opener :: (inner ++ closer :: tail))
    (blank : Blank blanks) (opens : opener.kind = .openParen) (closes : closer.kind = .closeParen)
    (written : WrittenList (name + 1 + blanks.length + 1) inner parameters) :
    ∃ site constructor, stream.locate? marker = some site ∧ site.declaration = declaration ∧
      site.constructor? = some constructor ∧
      constructor.parameterList =
        some ⟨name + 1 + blanks.length, name + 1 + blanks.length + 1 + inner.length⟩ ∧
      constructor.parameters = parameters := by
  obtain ⟨lexes, _⟩ := tokenize_eq_ok_iff.mp lexed
  obtain ⟨site, located, isDeclaration, existing⟩ :=
    first.exists_locate? (nested_of_tokenize lexed) found
  have described := constructorAt_eq function cut blank opens written.nested.level
    (by rw [closes]; rfl)
  have atInner : stream.drop (name + 1 + blanks.length + 1) = inner ++ closer :: tail :=
    drop_of_drop_eq_cons cut
  refine ⟨site, _, located, isDeclaration, existing, ?_, ?_⟩
  · rw [described]
  · rw [described]
    exact parametersIn_written (Lexes.of_lexFrom lexes) atInner written

section Examples

def space : Token :=
  ⟨.whitespace, " ", 1⟩

theorem blank_space : Blank [space] := by
  simp [Blank, space, Token.isTrivia, TokenKind.isTrivia]

theorem blank_nil : Blank [] := by
  simp [Blank]

/-- `#[B(1,2)] private readonly (A & B)|null $a = [1,2]` -/
def promotedParameter : WrittenParameter where
  attributes := ⟨.attributeStart, "#[", 1⟩ ::
    ([⟨.identifier, "B", 1⟩, ⟨.openParen, "(", 1⟩, ⟨.number, "1", 1⟩, ⟨.comma, ",", 1⟩,
      ⟨.number, "2", 1⟩, ⟨.closeParen, ")", 1⟩] ++ ⟨.closeBracket, "]", 1⟩ :: ([space] ++ []))
  modifiers :=
    ⟨.keyword, "private", 1⟩ :: ([space] ++ ⟨.keyword, "readonly", 1⟩ :: ([space] ++ []))
  type := some
    { tokens := (⟨.openParen, "(", 1⟩ :: ([] ++ (([⟨.identifier, "A", 1⟩] ++ ([space] ++
        ⟨.ampersand, "&", 1⟩ :: ([space] ++ [⟨.identifier, "B", 1⟩]))) ++ ([] ++
        [⟨.closeParen, ")", 1⟩])))) ++ ([] ++ ⟨.operator, "|", 1⟩ :: ([] ++
        [⟨.identifier, "null", 1⟩]))
      behind := [space]
      declared := .joined (.parenthesised rfl blank_nil (.joined (.named rfl rfl) blank_space
        (.inl rfl) blank_space (.named rfl rfl)) blank_nil rfl) blank_nil (.inr ⟨rfl, rfl⟩)
        blank_nil (.named rfl rfl)
      blank := blank_space }
  reference := []
  ellipsis := []
  named := ⟨.variableName, "$a", 1⟩
  name := "a"
  default := [space] ++ ⟨.assign, "=", 1⟩ :: (space :: (⟨.openBracket, "[", 1⟩ ::
    [⟨.number, "1", 1⟩, ⟨.comma, ",", 1⟩, ⟨.number, "2", 1⟩] ++ [⟨.closeBracket, "]", 1⟩]))
  areAttributes := .cons rfl (nested_iff_closersBehind.mpr rfl) rfl blank_space .nil
  areModifiers := .cons rfl blank_space (.cons rfl blank_space .nil)
  isReference := .missing
  isEllipsis := .missing
  isVariable := rfl
  spelled := rfl
  isDefault := .present blank_space rfl
    (.cons rfl (.pair rfl (nested_iff_closersBehind.mpr rfl))) (by decide)

/-- `?int & ...$b` -/
def variadicParameter : WrittenParameter where
  attributes := []
  modifiers := []
  type := some
    { tokens := ⟨.question, "?", 1⟩ :: ([] ++ [⟨.identifier, "int", 1⟩])
      behind := [space]
      declared := .nullable rfl blank_nil (.named rfl rfl)
      blank := blank_space }
  reference := ⟨.ampersand, "&", 1⟩ :: [space]
  ellipsis := [⟨.ellipsis, "...", 1⟩]
  named := ⟨.variableName, "$b", 1⟩
  name := "b"
  default := []
  areAttributes := .nil
  areModifiers := .nil
  isReference := .present rfl blank_space
  isEllipsis := .present rfl blank_nil
  isVariable := rfl
  spelled := rfl
  isDefault := .missing

def writtenParameters : List Token :=
  ([] ++ (promotedParameter.tokens ++ [])) ++ ⟨.comma, ",", 1⟩ ::
    (([space] ++ (variadicParameter.tokens ++ [])) ++ ⟨.comma, ",", 1⟩ :: [])

/-- A constructor with both parameters and a comma behind the last one. -/
def promotedAndVariadic : Text :=
  "<?php class A\x7bfunction __construct(#[B(1,2)] private readonly (A & B)|null $a = [1,2], " ++
    "?int & ...$b,)\x7b\x7d\x7d"

theorem locate?_written_promotedAndVariadic :
    ∃ (stream : TokenStream) (declaration : ClassDeclaration) (site : ConstructorSite)
      (constructor : Constructor), tokenize promotedAndVariadic = .ok stream ∧
      stream.findClass? = some declaration ∧
      stream.FirstMarked declaration defaultMarker 5 7 [] ∧
      stream.locate? defaultMarker = some site ∧ site.constructor? = some constructor ∧
      constructor.parameters =
        [⟨some "(A & B)|null", "a", true, false, true, ⟨9, 41⟩⟩,
          ⟨some "?int", "b", false, true, false, ⟨43, 50⟩⟩] := by
  let opener : Token := ⟨.openParen, "(", 1⟩
  let closer : Token := ⟨.closeParen, ")", 1⟩
  have computed : (tokenize promotedAndVariadic).toOption.any (fun stream : TokenStream =>
      stream.findClass? == some ⟨1, some "A", none, 4, 54⟩ &&
      (stream.members 4 54).filterMap (stream.markedMethod? defaultMarker) == [(5, 7)] &&
      stream.drop 8 == opener :: (writtenParameters ++ closer :: stream.drop 52)) = true := by
    decide +kernel
  simp only [Option.any_eq_true, Bool.and_eq_true, beq_iff_eq] at computed
  obtain ⟨stream, accepted, ⟨found, marked⟩, cut⟩ := computed
  have lexed := eq_ok_of_toOption accepted
  have member_iff (other otherName : Nat) : (other, otherName) ∈ [(5, 7)] ↔
      stream.DeclaresMarked ⟨1, some "A", none, 4, 54⟩ defaultMarker other otherName := by
    rw [← markedMethod?_member_iff (nested_of_tokenize lexed) found, marked]
  have first : stream.FirstMarked ⟨1, some "A", none, 4, 54⟩ defaultMarker 5 7 [] :=
    .of_cons member_iff (List.pairwise_singleton _ _)
  have written : WrittenList (7 + 1 + ([] : List Token).length + 1) writtenParameters _ :=
    .comma ⟨[], promotedParameter, [], blank_nil, blank_nil⟩ rfl
      (.comma ⟨[space], variadicParameter, [], blank_space, blank_nil⟩ rfl (.blank blank_nil))
  obtain ⟨site, constructor, located, _, existing, _, parameters⟩ :=
    locate?_written lexed found first cut blank_nil rfl rfl written
  exact ⟨stream, _, site, constructor, lexed, found, first, located, existing,
    parameters.trans (by decide +kernel)⟩

end Examples

end TokenStream

end ConstructorInjection
