import Mathlib.Data.List.Basic
import Mathlib.Tactic.Common
import ConstructorInjection.Proofs.BalancedReplacements

/-!
The forms of arguments in the lists that replacements rebuild. A scope is put behind the first argument
of a configuration value, and the second argument of a model becomes the value of an array entry; what
comes of arguments that are unpacked, named or no values at all depends on where they stood.
-/

namespace ConstructorInjection

inductive ArgumentForm where
  | positional
  /-- `...$values` -/
  | unpacked
  /-- `name: $value` -/
  | named
  /-- The dots that make a closure of the function called. -/
  | placeholder
  deriving DecidableEq

namespace Token

def isColon (token : Token) : Bool :=
  token.kind == .operator && token.text == [':']

def isLabel (token : Token) : Bool :=
  token.kind.isWord && !token.text.contains '\\'

end Token

/-- The form of an argument, from its code. -/
def ArgumentForm.of : List Token → ArgumentForm
  | [] => .positional
  | [token] => if token.kind = .ellipsis then .placeholder else .positional
  | first :: second :: _ =>
    if first.kind = .ellipsis then .unpacked
    else if first.isLabel && second.isColon then .named
    else .positional

/-- The arguments in the first parentheses of some tokens. -/
def argumentsIn (tokens : List Token) : List (List Token) :=
  match (codeOf tokens).dropWhile (·.kind != .openParen) with
  | [] => []
  | _ :: behind =>
    match TokenStream.closerDistance? 0 behind with
    | none => []
    | some distance => (itemsFrom [] 0 (behind.take distance)).filter (· ≠ [])

/-- The value of an array's only entry. -/
def entryValue? : List Token → Option (List Token)
  | opener :: _ :: arrow :: behind =>
    if opener.kind = .openBracket ∧ arrow.kind = .doubleArrow then some behind.dropLast else none
  | _ => none

structure LegalForms (forms : List ArgumentForm) : Prop where
  positionalFirst : forms.Pairwise fun earlier later =>
    later = .positional → earlier ≠ .unpacked ∧ earlier ≠ .named
  alone : .placeholder ∈ forms → forms.length = 1

namespace CallShape

def isConfiguration (shape : CallShape) : Bool :=
  shape == getStoreConfig || shape == getStoreConfigFlag

def isCreation (shape : CallShape) : Bool :=
  shape == getModel || shape == getResourceModel

/-- The arguments of a call and the values in them may stand where the replacement has them. -/
structure LegalArguments (shape : CallShape) (replacement : List Token) : Prop where
  forms : LegalForms ((argumentsIn replacement).map .of)
  value : shape.isCreation = true → ∀ argument ∈ argumentsIn replacement,
    ∀ value ∈ entryValue? argument, ArgumentForm.of value = .positional

theorem configuration_parts {shape : CallShape} (configures : shape.isConfiguration = true) :
    shape.isCreation = false ∧ shape.maxArguments = 2 ∧
      (∀ call, shape.copied call = call.arguments.take 2) ∧
      ∃ method, ∀ name copies,
        shape.replacementTokens name copies = methodCallTokens name method (scopedTokens copies) := by
  cases shape <;> first | contradiction | exact ⟨rfl, rfl, fun _ => rfl, _, fun _ _ => rfl⟩

theorem creation_parts {shape : CallShape} (creates : shape.isCreation = true) :
    shape.isConfiguration = false ∧ shape.maxArguments = 2 ∧
      (∀ call, shape.copied call = (call.arguments.drop 1).take 1) ∧
      ∀ name copies, shape.replacementTokens name copies =
        methodCallTokens name "create" (copies.head?.elim [] dataTokens) := by
  cases shape <;> first | contradiction | exact ⟨rfl, rfl, fun _ => rfl, fun _ _ => rfl⟩

/-- The forms of arguments that a shape can rebuild. -/
def Rebuilds (shape : CallShape) (forms : List ArgumentForm) : Prop :=
  (shape.isConfiguration = true → forms.head? = some .positional ∧ .placeholder ∉ forms.tail) ∧
    (shape.isCreation = true → ∀ form ∈ forms.tail, form = .positional)

end CallShape

namespace ArgumentForm

theorem of_cons {first : Token} {rest : List Token} (noDots : first.kind ≠ .ellipsis)
    (noName : first.kind.isWord = false ∨ ∀ second ∈ rest.head?, second.kind ≠ .operator) :
    of (first :: rest) = .positional := by
  cases rest with
  | nil => rw [of, if_neg noDots]
  | cons second rest =>
      have noColon : (first.isLabel && second.isColon) = false := by
        rcases noName with noWord | noOperator
        · rw [Token.isLabel, noWord, Bool.false_and, Bool.false_and]
        · have different := noOperator second rfl
          simp [Token.isColon, different]
      rw [of, if_neg noDots, noColon]
      rfl

end ArgumentForm

/-- A copy has the form of its source, since a call and an access are values alike. -/
theorem CopiedCode.form {source copy : List Token} (copied : CopiedCode source copy) :
    ArgumentForm.of copy = ArgumentForm.of source := by
  cases copied with
  | nil => rfl
  | call isCall isAccess later =>
      obtain ⟨name, colons, others, rfl, isName, isColons⟩ := isCall.begins
      obtain ⟨object, more, rfl, isObject⟩ := isAccess.begins
      rw [List.cons_append, List.cons_append, ArgumentForm.of_cons, ArgumentForm.of_cons]
      · simp [isName]
      · refine .inr ?_
        rintro _ ⟨⟩
        simp [isColons]
      · simp [isObject]
      · refine .inl ?_
        rw [isObject]
        rfl
  | token token later =>
      cases later with
      | nil => rfl
      | token => rfl
      | call isCall isAccess later =>
          obtain ⟨name, colons, others, rfl, isName, _⟩ := isCall.begins
          obtain ⟨object, more, rfl, isObject⟩ := isAccess.begins
          simp [ArgumentForm.of, Token.isColon, isName, isObject]

theorem argumentsIn_methodCall {tokens list : List Token} {name method : Text}
    (code : codeOf tokens = methodCallTokens name method list) (nested : Nested list) :
    argumentsIn tokens = (itemsFrom [] 0 list).filter (· ≠ []) := by
  have behind : (codeOf tokens).dropWhile (·.kind != .openParen) =
      ⟨.openParen, ['('], 0⟩ :: (list ++ [⟨.closeParen, [')'], 0⟩]) := by
    rw [code]
    simp [methodCallTokens, propertyTokens]
  have distance : TokenStream.closerDistance? 0 (list ++ [⟨.closeParen, [')'], 0⟩]) =
      some list.length :=
    TokenStream.closerDistance?_eq_some_iff.mpr ⟨list, _, [], rfl, rfl, rfl, nested.level⟩
  rw [argumentsIn, behind]
  simp only [distance, List.take_left]

theorem itemsFrom_item {tokens : List Token} (item : IsItem tokens) :
    itemsFrom [] 0 tokens = [tokens] := by
  rw [itemsFrom_uncut item.uncut item.nested.level, List.nil_append]

theorem itemsFrom_item_comma {tokens behind : List Token} (item : IsItem tokens) :
    itemsFrom [] 0 (tokens ++ commaToken :: behind) = tokens :: itemsFrom [] 0 behind := by
  rw [itemsFrom_append_comma rfl item.nested.level, itemsFrom_item item, List.singleton_append]

theorem itemsFrom_separated {first : List Token} {others : List (List Token)} (item : IsItem first)
    (items : ∀ other ∈ others, IsItem other) :
    itemsFrom [] 0 (first ++ others.flatMap (commaToken :: ·)) = first :: others := by
  induction others generalizing first with
  | nil => rw [List.flatMap_nil, List.append_nil, itemsFrom_item item]
  | cons other others ih =>
      obtain ⟨isItem, items⟩ := List.forall_mem_cons.mp items
      rw [List.flatMap_cons, List.cons_append, itemsFrom_item_comma item, ih isItem items]

theorem itemsFrom_scopedTokens {first : List Token} {others : List (List Token)}
    (items : ∀ copy ∈ first :: others, IsItem copy) :
    itemsFrom [] 0 (scopedTokens (first :: others)) = first :: scopeTokens :: others := by
  obtain ⟨item, items⟩ := List.forall_mem_cons.mp items
  have whole : scopedTokens (first :: others) =
      first ++ commaToken :: (scopeTokens ++ others.flatMap (commaToken :: ·)) := by
    simp [scopedTokens]
  rw [whole, itemsFrom_item_comma item, itemsFrom_separated CallShape.isItem_scopeTokens items]

theorem entryValue?_dataTokens (data : List Token) : entryValue? (dataTokens data) = some data := by
  simp [dataTokens, entryValue?]

theorem legalForms_behind_scope {first : ArgumentForm} {others : List ArgumentForm}
    (few : others.length ≤ 1) :
    LegalForms (first :: .positional :: others) ↔ first = .positional ∧ .placeholder ∉ others := by
  constructor
  · intro legal
    have noPlaceholder : .placeholder ∉ first :: .positional :: others := by
      intro member
      have only := legal.alone member
      simp at only
    obtain ⟨before, _⟩ := List.pairwise_cons.mp legal.positionalFirst
    have beforeScope := before .positional (by simp) rfl
    refine ⟨?_, fun member => noPlaceholder (by simp [member])⟩
    cases first with
    | positional => rfl
    | unpacked => exact absurd rfl beforeScope.1
    | named => exact absurd rfl beforeScope.2
    | placeholder => exact absurd List.mem_cons_self noPlaceholder
  · rintro ⟨rfl, none⟩
    refine ⟨?_, by simp [none]⟩
    match others, few with
    | [], _ => simp
    | [other], _ => simp

theorem legalForms_single (form : ArgumentForm) : LegalForms [form] :=
  ⟨List.pairwise_singleton _ _, fun _ => rfl⟩

section Rebuilt

variable {source : Text} {stream : TokenStream} {resolver : Resolver} {site : CallSite}
  {call : LegacyCall}

/-- A copied argument is one argument of the same form. -/
theorem item_of_copied {argument : IndexRange} {copy : List Token}
    (lexed : tokenize source = .ok stream) (result : stream.legacyCall? site.start = some call)
    (member : argument ∈ call.arguments)
    (copied : CopiedCode (codeOf (stream.slice argument)) copy) : IsItem copy ∧ copy ≠ [] := by
  obtain ⟨level, uncut, noBlank⟩ := TokenStream.level_argument result member
  have ordered := (TokenStream.span_argument lexed result member).ordered
  have nested := TokenStream.nested_of_level lexed ordered level
  refine ⟨⟨copied.nested (nested_codeOf.mpr nested), copied.uncut uncut.codeOf⟩, ?_⟩
  intro none
  exact noBlank (codeOf_eq_nil_iff.mp (copied.eq_nil none))

theorem items_of_copied {ranges : List IndexRange} {copies : List (List Token)}
    (lexed : tokenize source = .ok stream) (result : stream.legacyCall? site.start = some call)
    (arguments : ∀ range ∈ ranges, range ∈ call.arguments)
    (allCopied : List.Forall₂ (fun range copy => CopiedCode (codeOf (stream.slice range)) copy)
      ranges copies) :
    (∀ copy ∈ copies, IsItem copy ∧ copy ≠ []) ∧
      copies.map ArgumentForm.of =
        ranges.map fun range => ArgumentForm.of (codeOf (stream.slice range)) := by
  induction allCopied with
  | nil => exact ⟨by simp, rfl⟩
  | cons copied _ ih =>
      obtain ⟨member, arguments⟩ := List.forall_mem_cons.mp arguments
      obtain ⟨items, forms⟩ := ih arguments
      refine ⟨List.forall_mem_cons.mpr ⟨item_of_copied lexed result member copied, items⟩, ?_⟩
      rw [List.map_cons, List.map_cons, copied.form, forms]

theorem argumentsIn_configuration {tokens : List Token} {name method : Text} {first : List Token}
    {others : List (List Token)} (items : ∀ copy ∈ first :: others, IsItem copy ∧ copy ≠ [])
    (code : codeOf tokens = methodCallTokens name method (scopedTokens (first :: others))) :
    argumentsIn tokens = first :: scopeTokens :: others := by
  have nested := CallShape.nested_scopedTokens fun copy member => (items copy member).1.nested
  rw [argumentsIn_methodCall code nested,
    itemsFrom_scopedTokens fun copy member => (items copy member).1, List.filter_eq_self]
  intro item member
  rw [List.mem_cons, List.mem_cons] at member
  rw [decide_eq_true_eq]
  rcases member with rfl | rfl | member
  · exact (items item (by simp)).2
  · simp [scopeTokens]
  · exact (items item (by simp [member])).2

theorem form_scopeTokens : ArgumentForm.of scopeTokens = .positional :=
  rfl

theorem legalArguments_configuration {shape : CallShape} {tokens : List Token} {name method : Text}
    {first : List Token} {others : List (List Token)} (few : others.length ≤ 1)
    (noCreation : shape.isCreation = false)
    (items : ∀ copy ∈ first :: others, IsItem copy ∧ copy ≠ [])
    (code : codeOf tokens = methodCallTokens name method (scopedTokens (first :: others))) :
    shape.LegalArguments tokens ↔ ArgumentForm.of first = .positional ∧
      .placeholder ∉ others.map ArgumentForm.of := by
  have arguments := argumentsIn_configuration items code
  rw [← @legalForms_behind_scope _ (others.map ArgumentForm.of) (by simpa using few)]
  constructor
  · rintro ⟨legal, _⟩
    rw [arguments, List.map_cons, List.map_cons, form_scopeTokens] at legal
    exact legal
  · intro legal
    refine ⟨?_, fun creation => ?_⟩
    · rw [arguments, List.map_cons, List.map_cons, form_scopeTokens]
      exact legal
    · rw [noCreation] at creation
      contradiction

theorem legalArguments_creation {shape : CallShape} {tokens : List Token} {name : Text}
    {copies : List (List Token)} (few : copies.length ≤ 1) (creation : shape.isCreation = true)
    (items : ∀ copy ∈ copies, IsItem copy ∧ copy ≠ [])
    (code : codeOf tokens = methodCallTokens name "create" (copies.head?.elim [] dataTokens)) :
    shape.LegalArguments tokens ↔ ∀ form ∈ copies.map ArgumentForm.of, form = .positional := by
  match copies, few with
  | [], _ =>
      have arguments : argumentsIn tokens = [] := argumentsIn_methodCall code .nil
      constructor
      · simp
      · intro _
        refine ⟨?_, fun _ => ?_⟩
        · rw [arguments]
          exact ⟨List.Pairwise.nil, by simp⟩
        · simp [arguments]
  | [data], _ =>
      have item := CallShape.isItem_dataTokens (items data (by simp)).1.nested
      have arguments : argumentsIn tokens = [dataTokens data] := by
        rw [argumentsIn_methodCall code item.nested]
        change (itemsFrom [] 0 (dataTokens data)).filter (· ≠ []) = [dataTokens data]
        rw [itemsFrom_item item]
        rfl
      constructor
      · rintro ⟨_, value⟩
        have isValue := value creation (dataTokens data) (by simp [arguments]) data
          (entryValue?_dataTokens data)
        simpa using isValue
      · intro positional
        refine ⟨?_, fun _ => ?_⟩
        · rw [arguments]
          exact legalForms_single _
        · simpa [arguments, entryValue?_dataTokens] using positional

theorem one_le_of_select? {method : Text} {arguments : Nat} {shape : CallShape}
    (selected : CallShape.select? method arguments = some shape) : 1 ≤ arguments := by
  have accepted := List.find?_some selected
  simp only [CallShape.accepts, Bool.and_eq_true, decide_eq_true_eq] at accepted
  exact accepted.1.2

/-- A rebuilt list of arguments is legal just when nothing but a value stands where the scope is put
behind it or the array takes it. -/
theorem legalArguments_iff {index : Nat} (lexed : tokenize source = .ok stream)
    (dispatched : dispatch? resolver stream index = some site)
    (result : stream.legacyCall? index = some call)
    (rebuilt : site.shape.isConfiguration = true ∨ site.shape.isCreation = true)
    (movable : stream.Movable site.range) :
    site.shape.LegalArguments site.replacement ↔
      site.shape.Rebuilds
        (call.arguments.map fun argument => .of (codeOf (stream.slice argument))) := by
  obtain ⟨rfl, other, converted⟩ := dispatch?_eq_some dispatched
  have same := converted.call_eq
  rw [result] at same
  cases same
  obtain ⟨copies, allCopied, code⟩ := converted.codeOf_replacement lexed movable
  have lower := one_le_of_select? converted.shape_eq
  have upper := (CallShape.accepts_of_select? converted.shape_eq).2
  obtain ⟨first, others, list⟩ := List.exists_cons_of_length_pos lower
  rw [list] at upper ⊢
  have arguments {ranges : List IndexRange} (some : ∀ range ∈ ranges, range ∈ first :: others)
      (allCopied : List.Forall₂ (fun range copy => CopiedCode (codeOf (stream.slice range)) copy)
        ranges copies) := items_of_copied lexed result (by rwa [list]) allCopied
  by_cases configures : site.shape.isConfiguration = true
  · obtain ⟨noCreation, most, copied, method, tokens⟩ := CallShape.configuration_parts configures
    rw [most, List.length_cons] at upper
    rw [copied, list, List.take_of_length_le (by rw [List.length_cons]; omega)] at allCopied
    obtain ⟨items, forms⟩ := arguments (fun _ member => member) allCopied
    cases allCopied with
    | @cons _ firstCopy _ otherCopies _ later =>
        have few : otherCopies.length ≤ 1 := by
          rw [← later.length_eq]
          omega
        rw [tokens] at code
        rw [legalArguments_configuration few noCreation items code]
        rw [List.map_cons, List.map_cons, List.cons.injEq] at forms
        simp [CallShape.Rebuilds, configures, noCreation, forms]
  · have creates := rebuilt.resolve_left configures
    obtain ⟨_, most, copied, tokens⟩ := CallShape.creation_parts creates
    rw [most, List.length_cons] at upper
    rw [copied, list, List.drop_one, List.tail_cons,
      List.take_of_length_le (by omega)] at allCopied
    obtain ⟨items, forms⟩ := arguments (fun _ member => List.mem_cons_of_mem first member) allCopied
    have few : copies.length ≤ 1 := by
      rw [← allCopied.length_eq]
      omega
    rw [tokens] at code
    rw [legalArguments_creation few creates items code, forms]
    simp [CallShape.Rebuilds, configures, creates]

end Rebuilt

section Examples

/-- A store that is taken out of a list, behind the path that the scope is put after. -/
def unpackedStore : Text :=
  "<?php Mage::getStoreConfig('web/url', ...Mage::helper('tax')->stores());"

theorem dispatch?_unpackedStore : ∃ (stream : TokenStream) (site : CallSite) (call : LegacyCall),
    tokenize unpackedStore = .ok stream ∧
    dispatch? conventions.resolver stream 1 = some site ∧ stream.legacyCall? 1 = some call ∧
    site.shape = .getStoreConfig ∧ site.nested ≠ [] ∧ stream.Movable site.range ∧
    (call.arguments.map fun argument => ArgumentForm.of (codeOf (stream.slice argument))) =
      [.positional, .unpacked] := by
  have computed : (tokenize unpackedStore).toOption.any (fun stream =>
      (dispatch? conventions.resolver stream 1).any fun site =>
        (stream.legacyCall? 1).any fun call =>
          site.shape == .getStoreConfig && !site.nested.isEmpty &&
          (stream.slice site.range).all (fun token =>
            token.kind != .attributeStart && token.kind != .question) &&
          ((List.range stream.length).all fun index => (stream.legacyCall? index).all fun call =>
            stream[call.stop]?.all (·.kind != .number)) &&
          (call.arguments.map fun argument => ArgumentForm.of (codeOf (stream.slice argument))) ==
            [.positional, .unpacked]) = true := by
    decide +kernel
  simp only [Option.any_eq_true, Bool.and_eq_true, Bool.not_eq_true', List.isEmpty_eq_false_iff,
    beq_iff_eq] at computed
  obtain ⟨stream, lexed, site, dispatched, call, result, ⟨⟨⟨shape, nested⟩, plain⟩, apart⟩, forms⟩ :=
    computed
  exact ⟨stream, site, call, eq_ok_of_toOption lexed, dispatched, result, shape, nested,
    TokenStream.movable_of_all plain apart, forms⟩

theorem legalArguments_iff_unpackedStore :
    ∃ (stream : TokenStream) (site : CallSite) (call : LegacyCall),
      tokenize unpackedStore = .ok stream ∧
      dispatch? conventions.resolver stream 1 = some site ∧ stream.legacyCall? 1 = some call ∧
      site.shape.isConfiguration = true ∧ stream.Movable site.range ∧ site.nested ≠ [] ∧
      site.shape.LegalArguments site.replacement := by
  obtain ⟨stream, site, call, lexed, dispatched, result, shape, nested, movable, forms⟩ :=
    dispatch?_unpackedStore
  have configures : site.shape.isConfiguration = true := by
    rw [shape]
    rfl
  refine ⟨stream, site, call, lexed, dispatched, result, configures, movable, nested, ?_⟩
  rw [legalArguments_iff lexed dispatched result (.inl configures) movable, forms, shape]
  simp [CallShape.Rebuilds, CallShape.isCreation]

/-- A path that is taken out of a list. -/
def unpackedPath : Text :=
  "<?php Mage::getStoreConfig(...$args);"

theorem forms_unpackedPath : ∃ (stream : TokenStream) (site : CallSite),
    tokenize unpackedPath = .ok stream ∧
    dispatch? conventions.resolver stream 1 = some site ∧ site.shape = .getStoreConfig ∧
    (argumentsIn site.replacement).map ArgumentForm.of = [.unpacked, .positional] := by
  have computed : (tokenize unpackedPath).toOption.any (fun stream =>
      (dispatch? conventions.resolver stream 1).any fun site =>
        site.shape == .getStoreConfig &&
        (argumentsIn site.replacement).map ArgumentForm.of == [.unpacked, .positional]) = true := by
    decide +kernel
  simp only [Option.any_eq_true, Bool.and_eq_true, beq_iff_eq] at computed
  obtain ⟨stream, lexed, site, dispatched, shape, forms⟩ := computed
  exact ⟨stream, site, eq_ok_of_toOption lexed, dispatched, shape, forms⟩

/-- The scope comes to stand behind the unpacked list. -/
theorem not_legalArguments_unpackedPath :
    ¬ ∀ (resolver : Resolver) (source : Text) (stream : TokenStream) (index : Nat)
        (site : CallSite), tokenize source = .ok stream →
      dispatch? resolver stream index = some site →
      (site.shape.isConfiguration = true ∨ site.shape.isCreation = true) →
        site.shape.LegalArguments site.replacement := by
  intro legal
  obtain ⟨stream, site, lexed, dispatched, shape, forms⟩ := forms_unpackedPath
  have configures : site.shape.isConfiguration = true := by
    rw [shape]
    rfl
  have legalForms := (legal _ _ _ _ _ lexed dispatched (.inl configures)).forms
  rw [forms] at legalForms
  have first := ((@legalForms_behind_scope .unpacked [] (Nat.zero_le 1)).mp legalForms).1
  contradiction

end Examples

end ConstructorInjection
