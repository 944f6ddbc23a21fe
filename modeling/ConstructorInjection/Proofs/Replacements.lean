import Mathlib.Data.List.Basic
import Mathlib.Tactic.Common
import ConstructorInjection.Proofs.CallSites
import ConstructorInjection.Proofs.Injections
import ConstructorInjection.Proofs.StaticCalls

/-!
The stream in which the converted calls have given way to their replacements. Its delimiters match
as before, its blanks are blanks, and the class is found where it was.
-/

namespace ConstructorInjection

theorem openBehind_of_nestingError? {opened : List OpenDelimiter} {offset : Nat}
    {tokens : List Token} (faultless : nestingError? opened offset tokens = none) :
    openBehind opened.length tokens = some 0 := by
  induction tokens generalizing opened offset with
  | nil =>
      cases opened with
      | nil => rfl
      | cons innermost outer => contradiction
  | cons token rest ih =>
      rw [nestingError?] at faultless
      simp only at faultless
      rw [openBehind]
      split at faultless
      next opens =>
        rw [if_pos opens]
        exact ih faultless
      next noOpener =>
        rw [if_neg noOpener]
        split at faultless
        next closes =>
          rw [if_pos closes]
          cases opened with
          | nil => contradiction
          | cons innermost outer =>
              simp only at faultless
              split at faultless
              next => exact ih faultless
              next => contradiction
        next noCloser =>
          rw [if_neg noCloser]
          exact ih faultless

/-- The delimiters of an accepted source match. -/
theorem level_of_tokenize {source : Text} {stream : TokenStream}
    (lexed : tokenize source = .ok stream) : Level stream :=
  openBehind_of_nestingError? (tokenize_eq_ok_iff.mp lexed).2

theorem openTagAt?_ne_whitespace {input : Text} {tag : OpenTag}
    (found : openTagAt? input = some tag) : tag.kind ≠ .whitespace := by
  unfold openTagAt? at found
  split at found
  · cases found
    simp
  · split at found
    · split at found <;> cases found <;> simp
    · contradiction
  · contradiction

theorem pattern_eq_blanks :
    ∀ rule ∈ lexicalRules, rule.lexeme.wholeKind? = some .whitespace → rule.pattern = .blanks := by
  simp [lexicalRules, punctuation, operators, Lexeme.wholeKind?]

/-- Only blanks are read as blanks. -/
theorem Piece.spaces_of_next {mode : LexMode} {memberName : Bool} {input : Text} {piece : Piece}
    (next : Piece.next mode memberName input = .ok piece) (blank : piece.kind = .whitespace) :
    Spaces (input.take piece.length) := by
  cases mode with
  | html =>
      cases next
      rw [Piece.ofHtml] at blank
      split at blank
      next tag found => exact absurd blank (openTagAt?_ne_whitespace found)
      next => contradiction
  | code =>
      obtain ⟨found, result, built⟩ := Piece.ofCode_eq_ok next
      obtain ⟨rule, member, lexeme, length⟩ := longestAmong_mem result
      have isBlanks := pattern_eq_blanks rule member
      rw [lexeme] at isBlanks
      unfold Piece.ofMatch at built
      simp only at built
      split at built
      · rename_i kind equal
        cases built
        simp only at blank
        rw [equal, Lexeme.wholeKind?, blank] at isBlanks
        rw [isBlanks rfl, Pattern.matchLength] at length
        simp only [← length]
        rw [← List.prefix_iff_eq_take.mp (List.takeWhile_prefix _)]
        exact List.all_eq_true.mp List.all_takeWhile
      · cases built
        simp only [nameKind] at blank
        split at blank <;> try split at blank
        all_goals contradiction
      · cases built
        contradiction
      · split at built <;> cases built <;> contradiction
      · split at built <;> cases built
        simp only [blockCommentKind] at blank
        split at blank <;> try split at blank
        all_goals contradiction
      · split at built <;> cases built
        contradiction
      · split at built <;> cases built
        contradiction

theorem Lexes.wellSpaced {mode : LexMode} {memberName : Bool} {place : Place} {input : Text}
    {tokens : List Token} (lexes : Lexes mode memberName place input tokens) :
    WellSpaced tokens := by
  induction lexes with
  | done => simp [WellSpaced]
  | step _ next _ ih =>
      intro token member blank
      rcases List.mem_cons.mp member with rfl | later
      · exact Piece.spaces_of_next next blank
      · exact ih token later blank

theorem wellSpaced_of_tokenize {source : Text} {stream : TokenStream}
    (lexed : tokenize source = .ok stream) : WellSpaced stream :=
  (Lexes.of_lexFrom (tokenize_eq_ok_iff.mp lexed).1).wellSpaced

theorem wellSpaced_of_synthesize {code : Text} {tokens : List Token}
    (result : synthesize code = .ok tokens) : WellSpaced tokens := by
  obtain ⟨place, lexed, lexes, rfl⟩ := scans_of_synthesize result
  intro token member blank
  obtain ⟨original, inLexed, rfl⟩ := List.mem_map.mp member
  exact lexes.wellSpaced original inLexed blank

namespace TokenStream

theorem isName_of_isReceiver {stream : TokenStream} {index : Nat}
    (receiver : stream.isReceiver index = true) :
    ∃ token, stream[index]? = some token ∧ token.kind.isName = true := by
  rw [isReceiver, Bool.and_eq_true] at receiver
  obtain ⟨token, found, named⟩ := (Option.any_eq_true _ _).mp receiver.1
  refine ⟨token, found, ?_⟩
  simp only [Token.isNamed, Bool.or_eq_true, Bool.and_eq_true] at named
  rcases named with named | named <;> exact named.1

theorem level_of_isName {token : Token} (named : token.kind.isName = true) : Level [token] := by
  apply Level.plain <;> cases kind : token.kind <;> rw [kind] at named <;> first | rfl | contradiction

/-- A legacy call closes what it opens. -/
theorem level_of_legacyCall? {stream : TokenStream} {index : Nat} {call : LegacyCall}
    (result : stream.legacyCall? index = some call) :
    Level (stream.slice ⟨index, call.stop⟩) ∧ call.stop ≤ stream.length := by
  obtain ⟨isReceiver, colons, name, _, colonsFound, nameFound, _, openingFound, closingFound, _⟩ :=
    legacyCall?_eq_some result
  obtain ⟨receiver, atReceiver, named⟩ := isName_of_isReceiver isReceiver
  rw [nextOfKind?_iff_append .doubleColon rfl] at colonsFound
  rw [nextOfKind?_iff_append .identifier rfl] at nameFound
  rw [nextOfKind?_iff_append .openParen rfl] at openingFound
  rw [matchingClose?_eq_some_iff] at closingFound
  obtain ⟨first, colonsToken, _, behindReceiver, rfl, isColons, firstBlank⟩ := colonsFound
  obtain ⟨second, nameToken, _, behindColons, rfl, isMethod, secondBlank⟩ := nameFound
  obtain ⟨third, _, _, behindName, opening, _, thirdBlank⟩ := openingFound
  obtain ⟨opener, inner, closer, rest, atOpening, closing, opens, closes, level⟩ := closingFound
  have afterFirst := drop_of_drop_eq_cons behindReceiver
  have afterSecond := drop_of_drop_eq_cons behindColons
  have afterThird := drop_of_drop_eq behindName
  rw [← opening, atOpening] at afterThird
  rw [behindName, ← afterThird] at afterSecond
  rw [behindColons, ← afterSecond] at afterFirst
  rw [← afterFirst] at behindReceiver
  have whole := drop_eq_cons_iff.mpr ⟨atReceiver, behindReceiver⟩
  let tokens := [receiver] ++ (first ++ ([colonsToken] ++ (second ++ ([nameToken] ++ (third ++
    (opener :: inner ++ [closer]))))))
  have cut : stream.drop index = tokens ++ rest := by
    rw [whole]
    simp [tokens]
  have place : call.stop = index + tokens.length := by
    rw [LegacyCall.stop, closing, opening]
    simp only [tokens, List.length_append, List.length_cons, List.length_nil]
    omega
  have levelColons : Level [colonsToken] := by
    apply Level.plain <;> rw [isColons] <;> rfl
  have levelName : Level [nameToken] := by
    apply Level.plain <;> rw [isMethod] <;> rfl
  refine ⟨?_, ?_⟩
  · rw [slice_of_drop_eq cut place]
    exact (level_of_isName named).append (firstBlank.level.append (levelColons.append
      (secondBlank.level.append (levelName.append (thirdBlank.level.append
        (Level.pair opens closes level))))))
  · have size := congrArg List.length cut
    rw [List.length_drop, List.length_append] at size
    have inside := (List.getElem?_eq_some_iff.mp atReceiver).1
    omega

end TokenStream

namespace Converter

/-- Converted calls follow one another. -/
theorem pairwise_sitesFrom {converter : Converter} {stream : TokenStream} {stop index : Nat}
    {skipped : List IndexRange}
    (sorted : skipped.Pairwise fun left right => left.start ≤ right.start) :
    (converter.sitesFrom stream stop skipped index).Pairwise
      fun left right => left.stop ≤ right.start := by
  generalize left : (stop - index) + skipped.length = remaining
  induction remaining using Nat.strongRecOn generalizing index skipped with
  | ind remaining ih =>
      rw [sitesFrom]
      split
      case isFalse => exact List.Pairwise.nil
      case isTrue inside =>
        split
        next range first =>
          obtain ⟨head, _⟩ := Option.filter_eq_some_iff.mp first
          cases skipped with
          | nil => simp at head
          | cons earliest later =>
              simp only [List.tail_cons]
              simp only [List.length_cons] at left
              exact ih _ (by omega) (List.pairwise_cons.mp sorted).2 rfl
        next =>
          split
          next site result =>
            refine List.pairwise_cons.mpr ⟨?_, ih _ (by omega) sorted rfl⟩
            intro other member
            have lower := (mem_sitesFrom sorted member).1.1
            omega
          next => exact ih _ (by omega) sorted rfl

variable {converter : Converter} {stream : TokenStream} {declaration : ClassDeclaration}

theorem dispatched_of_mem_sites {site : CallSite}
    (member : site ∈ converter.sites stream declaration) :
    dispatch? converter.resolver stream site.start = some site ∧
      declaration.bodyOpen + 1 ≤ site.start ∧ site.stop ≤ declaration.bodyClose := by
  obtain ⟨⟨lower, upper, dispatched⟩, _⟩ :=
    mem_sitesFrom (stream.sorted_staticRanges declaration) member
  exact ⟨dispatched, lower, upper⟩

/-- The edits that put the replacements in place. -/
def replacementEdits (sites : List CallSite) : List Edit :=
  sites.map fun site => Edit.mk site.range site.replacement

theorem inOrder_replacementEdits :
    Edit.InOrder (replacementEdits (converter.sites stream declaration)) stream := by
  refine ⟨List.pairwise_map.mpr (pairwise_sitesFrom (stream.sorted_staticRanges declaration)), ?_⟩
  intro edit member
  obtain ⟨site, inSites, rfl⟩ := List.mem_map.mp member
  obtain ⟨_, call, converted⟩ := dispatch?_eq_some (dispatched_of_mem_sites inSites).1
  have nonempty := converted.start_lt_stop
  have inside := (TokenStream.level_of_legacyCall? converted.call_eq).2
  rw [← converted.stop_eq] at inside
  exact ⟨Nat.le_of_lt nonempty, inside⟩

theorem level_replacementEdits
    (nested : ∀ site ∈ converter.sites stream declaration, Nested site.replacement) :
    ∀ edit ∈ replacementEdits (converter.sites stream declaration),
      Level (stream.slice edit.range) ∧ Level edit.replacement := by
  intro edit member
  obtain ⟨site, inSites, rfl⟩ := List.mem_map.mp member
  obtain ⟨_, call, converted⟩ := dispatch?_eq_some (dispatched_of_mem_sites inSites).1
  have removed := (TokenStream.level_of_legacyCall? converted.call_eq).1
  rw [← converted.stop_eq] at removed
  exact ⟨removed, (nested site inSites).level⟩

theorem replacementEdits_behind :
    ∀ edit ∈ replacementEdits (converter.sites stream declaration),
      declaration.bodyOpen + 1 ≤ edit.range.start := by
  intro edit member
  obtain ⟨site, inSites, rfl⟩ := List.mem_map.mp member
  exact (dispatched_of_mem_sites inSites).2.1

/-- Up to the brace of the class, the stream stays as it is. -/
theorem rebuilt_eq (found : stream.findClass? = some declaration) :
    Edit.rebuilt stream 0 (replacementEdits (converter.sites stream declaration)) =
        stream.take (declaration.bodyOpen + 1) ++ Edit.rebuilt stream (declaration.bodyOpen + 1)
          (replacementEdits (converter.sites stream declaration)) ∧
      (stream.take (declaration.bodyOpen + 1)).length = declaration.bodyOpen + 1 := by
  have inside : declaration.bodyOpen + 1 ≤ stream.length := TokenStream.bodyOpen_lt_length found
  refine ⟨?_, List.length_take_of_le inside⟩
  rw [Edit.rebuilt_from (Nat.zero_le _) replacementEdits_behind inside, TokenStream.slice,
    List.drop_zero]

/-- Replacements bring in no blanks but such as the lexer reads. -/
theorem wellSpaced_replaced (wellSpaced : WellSpaced stream) :
    WellSpaced (Edit.rebuilt stream 0 (replacementEdits (converter.sites stream declaration))) := by
  intro token member blank
  rcases Edit.mem_of_mem_rebuilt member with kept | ⟨edit, inEdits, new⟩
  · exact wellSpaced token kept blank
  · obtain ⟨site, inSites, rfl⟩ := List.mem_map.mp inEdits
    obtain ⟨_, call, converted⟩ := dispatch?_eq_some (dispatched_of_mem_sites inSites).1
    exact wellSpaced_of_synthesize converted.replacement_eq token new blank

/-- The calls of a class give way to replacements whose delimiters match, and the class is found
again. -/
theorem exists_replaced (marker : Text) (level : Level stream) (wellSpaced : WellSpaced stream)
    (found : stream.findClass? = some declaration)
    (nested : ∀ site ∈ converter.sites stream declaration, Nested site.replacement) :
    ∃ edited before,
      Edit.applyAll (replacementEdits (converter.sites stream declaration)) stream = .ok edited ∧
        Level edited ∧ WellSpaced edited ∧ edited.locate? marker = some before := by
  have inOrder := @inOrder_replacementEdits converter stream declaration
  have levelEdited := Edit.level_rebuilt inOrder (level_replacementEdits nested) level
  obtain ⟨whole, length⟩ := @rebuilt_eq converter stream declaration found
  have same : (Edit.rebuilt stream 0
      (replacementEdits (converter.sites stream declaration))).take (declaration.bodyOpen + 1) =
        stream.take (declaration.bodyOpen + 1) := by
    rw [whole]
    exact List.take_left' length
  obtain ⟨again, foundAgain, _⟩ := TokenStream.findClass?_of_take_eq found same levelEdited
  obtain ⟨before, located, _⟩ := TokenStream.exists_locate? marker foundAgain
  exact ⟨_, before, Edit.applyAll_eq_ok inOrder, levelEdited, wellSpaced_replaced wellSpaced, located⟩

end Converter

end ConstructorInjection
