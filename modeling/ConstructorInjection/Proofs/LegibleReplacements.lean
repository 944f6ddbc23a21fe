import Mathlib.Data.List.Basic
import Mathlib.Tactic.Common
import ConstructorInjection.Proofs.Accesses
import ConstructorInjection.Proofs.LegibleSeams
import ConstructorInjection.Proofs.PairedInjections
import ConstructorInjection.Proofs.ReplacementTexts

/-!
Replacements among the tokens around them. What takes the place of a call is read as it stands if no
name goes on behind it and it ends in code, and the tokens in front of a call are read in front of
the replacement as well.
-/

namespace ConstructorInjection

/-- The kinds of tokens that a name in front of them would swallow. -/
def TokenKind.continuesName : TokenKind → Bool
  | identifier | qualifiedName | keyword | number => true
  | _ => false

theorem LexicalRule.pattern_of_name :
    ∀ rule ∈ lexicalRules, rule.lexeme = .name → rule.pattern = .name := by
  decide

namespace Token

variable {token : Token} {memberName : Bool} {behind : Text}

/-- What begins with a character of a name would go on with a name in front of it. -/
theorem IsRead.continuesName (isRead : token.IsRead .code memberName behind)
    (goesOn : token.text.head?.any isClassCharacter = true) :
    token.kind.continuesName = true := by
  obtain ⟨piece, next, kind, _⟩ := isRead
  cases text : token.text with
  | nil =>
      rw [text] at goesOn
      contradiction
  | cons first rest =>
      rw [text] at goesOn next
      simp only [List.head?_cons, Option.any_some, isClassCharacter, isLabelPart, Bool.or_eq_true,
        beq_iff_eq] at goesOn
      by_cases digit : first.isDigit = true
      · rw [← kind, Piece.number_of_isDigit digit next]
        rfl
      · have begins : BeginsName (first :: (rest ++ behind)) := by
          rw [BeginsName, List.head?_cons, Option.any_some, Bool.or_eq_true, beq_iff_eq]
          tauto
        have isWord := (Piece.isWord_of_beginsName begins next).1
        rw [kind] at isWord
        cases isKind : token.kind <;> rw [isKind] at isWord <;> first | rfl | contradiction

theorem IsRead.beginsName (isRead : token.IsRead .code memberName behind)
    (isWord : token.kind.isWord = true) : BeginsName token.text := by
  have nonempty := isRead.text_ne_nil
  obtain ⟨piece, next, kind, size⟩ := isRead
  obtain ⟨rule, isRule, gives, matched, extent, length, positive, _⟩ := Piece.exists_rule next
  rw [kind] at gives
  have isName := LexicalRule.lexeme_of_isWord rule isRule _ isWord gives
  rw [LexicalRule.pattern_of_name rule isRule isName] at length
  obtain ⟨first, rest, text⟩ := List.exists_cons_of_ne_nil nonempty
  rw [text, List.cons_append] at length
  rw [text, BeginsName, List.head?_cons, Option.any_some]
  by_contra closed
  have noName : Pattern.name.opensWith first = false := Bool.eq_false_iff.mpr closed
  rw [Pattern.matchLength_eq_zero noName] at length
  omega

/-- Words do not end in a mark. -/
theorem IsRead.not_ends_fresh {text : Text} {last : Char}
    (isRead : token.IsRead .code memberName behind) (isWord : token.kind.isWord = true)
    (isFresh : isFresh last = true) : token.text ≠ text ++ [last] := by
  intro ends
  obtain ⟨piece, next, kind, size⟩ := isRead
  obtain ⟨rule, isRule, gives, matched, extent, length, _, scan, total, _⟩ := Piece.exists_rule next
  rw [kind] at gives
  have isName := LexicalRule.lexeme_of_isWord rule isRule _ isWord gives
  rw [isName] at scan
  cases scan
  have bound := Pattern.matchLength_name_le_length text
  have fresh : Fresh (last :: behind) := by
    rintro _ ⟨⟩
    exact isFresh
  rw [LexicalRule.pattern_of_name rule isRule isName, ends, List.append_assoc, List.singleton_append,
    Pattern.contextual_name _ _ (.inl fresh)] at length
  rw [ends, List.length_append, List.length_singleton] at size
  omega

end Token

theorem textOf_map_line (tokens : List Token) (line : Nat) :
    textOf (tokens.map fun token => { token with line := line }) = textOf tokens :=
  List.flatMap_map ..

/-- Legibility is not about lines. -/
theorem Legible.on_line {behind : Text} {mode : LexMode} {memberName : Bool} {tokens : List Token}
    (legible : Legible behind mode memberName tokens) (line : Nat) :
    Legible behind mode memberName (tokens.map fun token => { token with line := line }) := by
  induction legible with
  | nil => exact .nil
  | plain noAttribute isRead _ ih =>
      exact .plain noAttribute (by rwa [textOf_map_line]) ih
  | opener isStart text _ ih => exact .opener isStart text ih

theorem Scans.legible {memberName : Bool} {text : Text} {tokens : List Token}
    (scans : Scans memberName text tokens) : Legible [] .code memberName tokens := by
  obtain ⟨place, lexed, lexes, rfl⟩ := scans
  exact (Legible.of_lexes lexes).on_line 0

/-- Tokens that are read in front of the text behind any code, and leave code without a member to be
named. -/
structure Fitting (tokens : List Token) (copy : Text) : Prop where
  legible : ∀ memberName, Legible copy .code memberName tokens
  mode : modeBehind .code tokens = .code
  memory : ∀ memberName, memberNameBehind memberName tokens = false

section Replacements

variable {name copy : Text} {tokens : List Token}

theorem isLabel_this : IsLabel "this" :=
  .of_all rfl rfl

/-- An access to a property is read in front of all that does not go on with its name. -/
theorem fitting_propertyTokens (isLabel : IsLabel name)
    (stop : copy.head?.any isClassCharacter = false) : Fitting (propertyTokens name) copy where
  legible memberName := by
    obtain ⟨stopLabel, noSegment⟩ := noName_of_noClass stop
    have leads := @leads_label true copy name isLabel stopLabel noSegment
    rw [Scans.nameKind_member isLabel] at leads
    have member : Legible copy .code true [⟨.identifier, name, 0⟩] :=
      .plain TokenKind.noConfusion leads .nil
    have arrow : Legible copy .code false [⟨.objectOperator, "->", 0⟩, ⟨.identifier, name, 0⟩] :=
      .plain TokenKind.noConfusion (@leads_arrow false _) member
    exact .plain TokenKind.noConfusion (@leads_variable memberName _ _ isLabel_this rfl) arrow
  mode := rfl
  memory _ := rfl

theorem Scans.eq_propertyTokens (isLabel : IsLabel name)
    (scans : Scans false ("$this->" ++ name) tokens) : tokens = propertyTokens name := by
  obtain ⟨_, rfl, behindThis⟩ := @Scans.variableName ("->" ++ name) _ _ _ isLabel_this scans rfl
  obtain ⟨_, rfl, behindArrow⟩ := behindThis.piece leads_arrow TokenKind.noConfusion
  rw [← List.append_nil name] at behindArrow
  obtain ⟨_, rfl, behindName⟩ := behindArrow.word isLabel rfl
  have isMember : nameKind (memberNameAfter false .objectOperator "->") name = .identifier :=
    Scans.nameKind_member isLabel
  rw [behindName.eq_nil, isMember]
  rfl

theorem CallShape.replacement_begins (shape : CallShape) (name : Text) (copies : List Text) :
    ∃ rest, shape.replacement name copies = '$' :: "this" ++ ("->" ++ rest) := by
  cases shape
  case getModel | getResourceModel => cases copies <;> exact ⟨_, rfl⟩
  all_goals exact ⟨_, rfl⟩

theorem CallShape.replacement_ends (shape : CallShape) (name : Text) (copies : List Text) :
    shape.replacement name copies = "$this->" ++ name ∨
      ∃ front, shape.replacement name copies = front ++ [')'] := by
  cases shape
  case helper | getSingleton | getResourceSingleton => exact .inl rfl
  case getModel | getResourceModel =>
    cases copies with
    | nil =>
        let access : Text := "$this->" ++ name
        exact .inr ⟨access ++ "->create(", (List.append_assoc access "->create(" [')']).symm⟩
    | cons data rest =>
        let access : Text := "$this->" ++ name ++ "->create(['data' => " ++ data
        exact .inr ⟨access ++ "]", (List.append_assoc access "]" [')']).symm⟩
  all_goals exact .inr ⟨_, rfl⟩

/-- Tokens that end in a closing parenthesis are read in front of any text. -/
theorem Scans.fitting_of_closeParen {text : Text} {last : Token}
    (scans : Scans false (('$' :: "this") ++ ("->" ++ text)) (tokens ++ [last]))
    (isClose : last.kind = .closeParen) : Fitting (tokens ++ [last]) copy where
  legible memberName := by
    have legible := scans.legible
    obtain ⟨later, cut, _⟩ := scans.variableName isLabel_this rfl
    have first : ∀ token ∈ (tokens ++ [last]).find? (!·.isTrivia),
        token.kind.isWord = true → token.kind = .qualifiedName := by
      rw [cut]
      rintro token ⟨⟩ isWord
      contradiction
    exact (legible.remember first memberName).front_of_sign (by rw [isClose]; rfl)
  mode := by
    have isRead := scans.legible.isRead_last (by rw [isClose]; exact TokenKind.noConfusion)
    have isCode := isRead.mode_of_isMarkup (by rw [isClose]; rfl)
    rw [modeBehind_concat, isCode, isClose]
    rfl
  memory memberName := by
    rw [memberNameBehind, List.foldl_append, List.foldl_cons, List.foldl_nil, isClose]
    rfl

theorem CallShape.fitting {shape : CallShape} {copies : List Text} (isLabel : IsLabel name)
    (synthesized : synthesize (shape.replacement name copies) = .ok tokens)
    (ends : ∀ last ∈ tokens.getLast?, last.kind = .identifier ∨ last.kind = .closeParen)
    (stop : copy.head?.any isClassCharacter = false) : Fitting tokens copy := by
  have scans := scans_of_synthesize synthesized
  rcases shape.replacement_ends name copies with lookup | ⟨front, closes⟩
  · rw [lookup] at scans
    rw [scans.eq_propertyTokens isLabel]
    exact fitting_propertyTokens isLabel stop
  · have spelled := textOf_of_synthesize synthesized
    rcases List.eq_nil_or_concat' tokens with rfl | ⟨others, last, rfl⟩
    · rw [closes] at spelled
      simp [textOf] at spelled
    · have isLast := ends last (by simp)
      have isClose : last.kind = .closeParen := by
        refine isLast.resolve_left fun isName => ?_
        have isWord : last.kind.isWord = true := by
          rw [isName]
          rfl
        have isRead := scans.legible.isRead_last (by rw [isName]; exact TokenKind.noConfusion)
        have isCode := isRead.mode_of_isMarkup (by rw [isName]; rfl)
        rw [isCode] at isRead
        obtain ⟨text, character, isText⟩ :=
          (List.eq_nil_or_concat' last.text).resolve_left isRead.text_ne_nil
        have alone : textOf [last] = text ++ [character] := (List.append_nil _).trans isText
        rw [closes, textOf_append, alone, ← List.append_assoc] at spelled
        obtain ⟨-, ⟨⟩⟩ := List.append_inj' spelled rfl
        exact isRead.not_ends_fresh isWord rfl isText
      obtain ⟨rest, begins⟩ := shape.replacement_begins name copies
      rw [begins] at scans
      exact scans.fitting_of_closeParen isClose

end Replacements

/-- A call and tokens that can take its place. -/
structure Exchange (call tokens : List Token) : Prop where
  begins : ∃ name others, call = name :: others ∧ name.kind.isWord = true
  ends : ∃ others closer, call = others ++ [closer] ∧ closer.kind.sign?.isSome = true
  head : (textOf tokens).head? = some '$'
  fitting : ∀ copy : Text, copy.head?.any isClassCharacter = false → Fitting tokens copy

namespace Exchange

variable {mode : LexMode} {memberName : Bool} {front call rest tokens others : List Token}

/-- The code behind a call is read as code, with no member to be named. -/
theorem legible_behind (exchange : Exchange call tokens)
    (legible : Legible [] mode memberName (front ++ (call ++ rest))) : Legible [] .code false rest := by
  obtain ⟨before, closer, isCall, sign⟩ := exchange.ends
  obtain ⟨sign, isSign⟩ := Option.isSome_iff_exists.mp sign
  have plain := TokenKind.plain_of_sign isSign
  obtain ⟨ahead, behind⟩ := Legible.append_iff.mp (List.append_assoc .. ▸ legible)
  rw [isCall, ← List.append_assoc] at ahead behind
  have isCode := (ahead.isRead_last plain.2.2.2.2.1).mode_of_isMarkup plain.1
  have memory : memberNameBehind memberName (front ++ before ++ [closer]) = false := by
    rw [memberNameBehind, List.foldl_append]
    exact memberNameAfter_of_sign isSign _ _
  rwa [modeBehind_concat, isCode, memory, TokenKind.after_of_sign isSign] at behind

/-- Code in front of a call and code behind it is read with what takes the call's place. -/
theorem legible (exchange : Exchange call tokens)
    (legible : Legible [] mode memberName (front ++ (call ++ rest)))
    (behind : Legible [] .code false others)
    (apart : (textOf others).head?.any isClassCharacter = false) :
    Legible [] mode memberName (front ++ (tokens ++ others)) := by
  obtain ⟨name, more, rfl, isWord⟩ := exchange.begins
  obtain ⟨ahead, fromCall⟩ := Legible.append_iff.mp legible
  have isRead := fromCall.isRead (by rintro isStart; rw [isStart] at isWord; contradiction)
  have isCode := isRead.mode_of_isMarkup (TokenKind.isMarkup_of_isWord isWord)
  rw [isCode] at isRead
  have fitting := exchange.fitting (textOf others ++ []) (by rwa [List.append_nil])
  obtain ⟨text, isText⟩ := List.head?_eq_some_iff.mp exchange.head
  refine Legible.append_iff.mpr ⟨ahead.front_of_fresh isCode ?_ ?_, ?_⟩
  · rw [textOf_append, textOf_cons, List.append_nil, List.append_assoc]
    refine .of_beginsName ?_
    rw [BeginsName, List.head?_append_of_ne_nil _ isRead.text_ne_nil]
    exact isRead.beginsName isWord
  · rw [textOf_append, isText]
    rintro _ ⟨⟩
    rfl
  · rw [isCode]
    refine Legible.append_iff.mpr ⟨fitting.legible _, ?_⟩
    rwa [fitting.mode, fitting.memory]

end Exchange

/-- A call that gives way where no name follows it. -/
structure Edit.Exchanges (stream : TokenStream) (edit : Edit) : Prop where
  exchange : Exchange (stream.slice edit.range) edit.replacement
  apart : (textOf (stream.drop edit.range.stop)).head?.any isClassCharacter = false

/-- A stream is read with replacements as it was with the calls, and what it begins with is either
as it was or a replacement. -/
theorem Edit.legible_rebuilt {edits : List Edit} {stream : TokenStream} {start : Nat} {mode : LexMode}
    {memberName : Bool} (inOrder : InOrder edits stream)
    (behind : ∀ edit ∈ edits, start ≤ edit.range.start)
    (exchanges : ∀ edit ∈ edits, edit.Exchanges stream)
    (legible : Legible [] mode memberName (stream.drop start)) :
    Legible [] mode memberName (rebuilt stream start edits) ∧
      ((textOf (rebuilt stream start edits)).head? = (textOf (stream.drop start)).head? ∨
        (textOf (rebuilt stream start edits)).head? = some '$') := by
  induction edits generalizing start mode memberName with
  | nil => exact ⟨legible, .inl rfl⟩
  | cons edit edits ih =>
      obtain ⟨exchange, apart⟩ := exchanges edit (by simp)
      obtain ⟨ordered, inside⟩ := inOrder.proper edit (by simp)
      have whole := stream.drop_eq_slices (behind edit (by simp)) ordered inside
      rw [whole] at legible
      obtain ⟨later, head⟩ := ih inOrder.tail (List.pairwise_cons.mp inOrder.apart).1
        (fun other member => exchanges other (List.mem_cons_of_mem _ member))
        (exchange.legible_behind legible)
      have apartLater :
          (textOf (rebuilt stream edit.range.stop edits)).head?.any isClassCharacter = false := by
        rcases head with same | access
        · rwa [same]
        · rw [access]
          rfl
      rw [rebuilt, List.append_assoc]
      refine ⟨exchange.legible legible later apartLater, ?_⟩
      cases kept : stream.slice ⟨start, edit.range.start⟩ with
      | nil =>
          refine .inr ?_
          obtain ⟨text, isText⟩ := List.head?_eq_some_iff.mp exchange.head
          rw [List.nil_append, textOf_append, isText]
          rfl
      | cons token tokens =>
          refine .inl ?_
          rw [kept] at legible
          have nonempty := legible.text_ne_nil token (by simp)
          rw [whole, kept, List.cons_append, List.cons_append, textOf_cons, textOf_cons,
            List.head?_append_of_ne_nil _ nonempty, List.head?_append_of_ne_nil _ nonempty]

/-- Edits that put nested tokens in the place of such tokens keep a stream nested. -/
theorem Edit.nested_rebuilt {edits : List Edit} {stream : TokenStream} {start : Nat}
    {front : List Token} (inOrder : InOrder edits stream)
    (behind : ∀ edit ∈ edits, start ≤ edit.range.start)
    (level : ∀ edit ∈ edits, Level (stream.slice edit.range))
    (replacements : ∀ edit ∈ edits, Nested edit.replacement)
    (nested : Nested (front ++ stream.drop start)) : Nested (front ++ rebuilt stream start edits) := by
  induction edits generalizing start front with
  | nil => exact nested
  | cons edit edits ih =>
      obtain ⟨ordered, inside⟩ := inOrder.proper edit (by simp)
      obtain ⟨levelOld, levelLater⟩ := List.forall_mem_cons.mp level
      obtain ⟨nestedNew, nestedLater⟩ := List.forall_mem_cons.mp replacements
      rw [stream.drop_eq_slices (behind edit (by simp)) ordered inside, ← List.append_assoc] at nested
      have replaced := nested.replace (levelOld.nested nested) nestedNew
      rw [← List.append_assoc] at replaced
      have later := ih inOrder.tail (List.pairwise_cons.mp inOrder.apart).1 levelLater nestedLater
        replaced
      rwa [rebuilt, ← List.append_assoc, ← List.append_assoc]

/-- What a converted call needs in order to be written as its replacement: the replacement is nested
and does not end in a comment, and no name follows it. -/
structure CallSite.Fits (site : CallSite) (stream : TokenStream) : Prop where
  nested : Nested site.replacement
  ends : ∀ last ∈ site.replacement.getLast?, last.kind = .identifier ∨ last.kind = .closeParen
  apart : stream[site.stop]?.any (·.kind.continuesName) = false

instance (site : CallSite) (stream : TokenStream) : Decidable (site.Fits stream) :=
  decidable_of_iff (closersBehind [] site.replacement = some [] ∧
      (∀ last ∈ site.replacement.getLast?, last.kind = .identifier ∨ last.kind = .closeParen) ∧
      stream[site.stop]?.any (·.kind.continuesName) = false)
    ⟨fun parts => ⟨nested_iff_closersBehind.mpr parts.1, parts.2.1, parts.2.2⟩,
      fun fits => ⟨nested_iff_closersBehind.mp fits.nested, fits.ends, fits.apart⟩⟩

namespace Converted

variable {resolver : Resolver} {stream : TokenStream} {site : CallSite} {call : LegacyCall}

theorem exchange (converted : Converted resolver stream site call)
    (ends : ∀ last ∈ site.replacement.getLast?, last.kind = .identifier ∨ last.kind = .closeParen) :
    Exchange (stream.slice site.range) site.replacement where
  begins := by
    obtain ⟨receiver, _⟩ := TokenStream.legacyCall?_eq_some converted.call_eq
    obtain ⟨name, found, isName⟩ := TokenStream.isName_of_isReceiver receiver
    refine ⟨name, _, TokenStream.slice_eq_cons found converted.start_lt_stop, ?_⟩
    cases isKind : name.kind <;> rw [isKind] at isName <;> first | rfl | contradiction
  ends := by
    obtain ⟨_, _, _, _, _, _, _, _, closed, _⟩ :=
      TokenStream.legacyCall?_eq_some converted.call_eq
    have delimited := TokenStream.delimited_of_matchingClose? closed
    obtain ⟨closer, found, closes⟩ := delimited.closer
    have order := (TokenStream.legacyCall?_order converted.call_eq).1
    have lower : site.start ≤ call.closing := by
      have inner := delimited.ordered
      omega
    refine ⟨stream.slice ⟨site.start, call.closing⟩, closer, ?_,
      TokenKind.isSome_sign?_of_isCloser closes⟩
    rw [← TokenStream.slice_succ lower found, CallSite.range, converted.stop_eq]
    rfl
  head := by
    rw [textOf_of_synthesize converted.replacement_eq]
    exact site.shape.head?_replacement _ _
  fitting copy stop :=
    CallShape.fitting (CallShape.isLabel_of_dependency? converted.dependency_eq)
      converted.replacement_eq ends stop

theorem exchanges (converted : Converted resolver stream site call)
    (legible : Legible [] .html false stream) (fits : site.Fits stream) :
    Edit.Exchanges stream ⟨site.range, site.replacement⟩ where
  exchange := converted.exchange fits.ends
  apart := by
    have exchange := converted.exchange fits.ends
    have inside := (TokenStream.level_of_legacyCall? converted.call_eq).2
    rw [← converted.stop_eq] at inside
    have whole := stream.drop_eq_slices (Nat.zero_le site.start)
      (Nat.le_of_lt converted.start_lt_stop) inside
    rw [List.drop_zero] at whole
    rw [whole] at legible
    have behind := exchange.legible_behind legible
    change (textOf (stream.drop site.stop)).head?.any isClassCharacter = false
    cases next : stream.drop site.stop with
    | nil => rfl
    | cons token rest =>
        rw [next] at behind
        have apart := fits.apart
        rw [(TokenStream.drop_eq_cons_iff.mp next).1, Option.any_some] at apart
        rw [textOf_cons, List.head?_append_of_ne_nil _ (behind.text_ne_nil token (by simp))]
        by_cases isStart : token.kind = .attributeStart
        · rw [behind.text_of_attributeStart isStart]
          rfl
        · rw [Bool.eq_false_iff]
          intro goesOn
          rw [(behind.isRead isStart).continuesName goesOn] at apart
          contradiction

end Converted

namespace Converter

variable {converter : Converter} {source : Text} {stream : TokenStream} {conversion : Conversion}

/-- A stream whose calls have given way is read as it stands, if each replacement fits in. -/
theorem legible_replaced (lexed : tokenize source = .ok stream)
    (processed : converter.process stream = .ok conversion)
    (fits : ∀ site ∈ conversion.sites, site.Fits stream) :
    Legible [] .html false (replaced stream conversion) := by
  have legible := Legible.of_lexes (Lexes.of_lexFrom (tokenize_eq_ok_iff.mp lexed).1)
  refine (Edit.legible_rebuilt (process_eq_ok processed).1 (fun _ _ => Nat.zero_le _) ?_ legible).1
  intro edit member
  obtain ⟨site, isSite, rfl⟩ := List.mem_map.mp member
  obtain ⟨_, _, inSites⟩ := exists_mem_sites processed isSite
  obtain ⟨_, _, converted⟩ := dispatch?_eq_some (dispatched_of_mem_sites inSites).1
  exact converted.exchanges legible (fits site isSite)

theorem nested_replaced (lexed : tokenize source = .ok stream)
    (processed : converter.process stream = .ok conversion)
    (fits : ∀ site ∈ conversion.sites, site.Fits stream) : Nested (replaced stream conversion) := by
  refine @Edit.nested_rebuilt _ _ _ [] (process_eq_ok processed).1 (fun _ _ => Nat.zero_le _) ?_ ?_
    (nested_of_tokenize lexed) <;> intro edit member <;>
    obtain ⟨site, isSite, rfl⟩ := List.mem_map.mp member
  · obtain ⟨_, _, inSites⟩ := exists_mem_sites processed isSite
    obtain ⟨_, _, converted⟩ := dispatch?_eq_some (dispatched_of_mem_sites inSites).1
    have level := (TokenStream.level_of_legacyCall? converted.call_eq).1
    rwa [← converted.stop_eq] at level
  · exact (fits site isSite).nested

end Converter

end ConstructorInjection
