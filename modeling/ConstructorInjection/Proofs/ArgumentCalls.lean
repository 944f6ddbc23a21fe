import Mathlib.Data.List.Basic
import Mathlib.Tactic.Common
import ConstructorInjection.Proofs.CallCoverage
import ConstructorInjection.Proofs.Partners

/-!
The calls that are converted in the arguments of another one: they follow one another between its
parentheses, each is a conversion of its own, and no call with a replacement is missing.
-/

namespace ConstructorInjection

namespace TokenStream

/-- The items of a list follow one another, with a comma between two of them. -/
theorem pairwise_splitFrom {start index depth : Nat} {tokens : List Token}
    (ordered : start ≤ index) :
    (splitFrom start index depth tokens).Pairwise fun left right => left.stop < right.start := by
  induction tokens generalizing start index depth with
  | nil => exact List.pairwise_singleton _ _
  | cons token rest ih =>
      rw [splitFrom]
      split
      · exact ih (by omega)
      · split
        · exact ih (by omega)
        · split
          · refine List.pairwise_cons.mpr ⟨fun item member => ?_, ih (Nat.le_refl _)⟩
            have lower := start_le_of_mem_splitFrom (Nat.le_refl _) member
            simp only
            omega
          · exact ih (by omega)

theorem pairwise_arguments {stream : TokenStream} {index : Nat} {call : LegacyCall}
    (result : stream.legacyCall? index = some call) :
    call.arguments.Pairwise fun left right => left.stop ≤ right.start := by
  obtain ⟨_, _, _, _, _, _, _, _, _, _, arguments⟩ := legacyCall?_eq_some result
  rw [arguments, List.pairwise_map, splitTopLevel]
  refine ((pairwise_splitFrom (Nat.le_refl _)).filter _).imp fun {left right} apart => ?_
  have stop := trimTrivia_stop_le stream left
  have start := start_le_trimTrivia stream right
  omega

end TokenStream

namespace CallShape

/-- The ranges that a replacement copies follow one another. -/
theorem pairwise_copied {stream : TokenStream} {index : Nat} {call : LegacyCall} (shape : CallShape)
    (result : stream.legacyCall? index = some call) :
    (shape.copied call).Pairwise fun left right => left.stop ≤ right.start := by
  have arguments := TokenStream.pairwise_arguments result
  cases shape <;> simp only [copied]
  case helper | getSingleton | getResourceSingleton => exact .nil
  case getModel | getResourceModel =>
    exact arguments.sublist ((List.take_sublist _ _).trans (List.drop_sublist _ _))
  case getStoreConfig | getStoreConfigFlag => exact arguments.sublist (List.take_sublist _ _)
  case dispatchEvent | logException | log => exact List.pairwise_singleton _ _

/-- A range that a replacement copies begins behind the opening parenthesis. -/
theorem opening_lt_of_mem_copied {stream : TokenStream} {index : Nat} {call : LegacyCall}
    {shape : CallShape} {range : IndexRange} (result : stream.legacyCall? index = some call)
    (member : range ∈ shape.copied call) : call.opening < range.start := by
  rcases inner_or_argument_of_mem_copied member with rfl | argument
  · exact Nat.lt_succ_self _
  · exact (TokenStream.legacyCall?_order result).2 range argument

end CallShape

/-- The calls of a converted span follow one another. -/
theorem pairwise_convertSpan (resolver : Resolver) (stream : TokenStream) (start stop : Nat) :
    (convertSpan resolver stream start stop).sites.Pairwise
      fun left right => left.stop ≤ right.start := by
  generalize left : stream.length - start = remaining
  induction remaining using Nat.strongRecOn generalizing start with
  | ind remaining ih =>
      rw [convertSpan]
      split
      next inside =>
        split
        next site result =>
          refine List.pairwise_cons.mpr ⟨fun other member => ?_, ih _ (by omega) _ rfl⟩
          have lower := (convertSpan_sites member).1
          omega
        next => exact ih _ (by omega) _ rfl
      next => exact .nil

/-- A converted call in its place: its parentheses, and the calls that are converted between
them. -/
structure CallSite.Arranged (resolver : Resolver) (stream : TokenStream) (site : CallSite)
    (opening closing : Nat) : Prop where
  /-- The parenthesis stands behind the receiver, two colons and the name of a method. -/
  opens : ∃ colons name, stream.nextOfKind? .doubleColon site.start = some colons ∧
    stream.nextOfKind? .identifier colons = some name ∧
    stream.nextOfKind? .openParen name = some opening
  /-- Its partner is the first parenthesis behind it that closes what is open. -/
  closes : opening < closing ∧ stream.hasKind .closeParen closing = true ∧
    Nested (stream.slice ⟨opening + 1, closing⟩)
  stop_eq : site.stop = closing + 1
  between : ∀ inner ∈ site.nested,
    opening < inner.start ∧ inner.start < inner.stop ∧ inner.stop ≤ closing
  inOrder : site.nested.Pairwise fun left right => left.stop ≤ right.start
  own : ∀ inner ∈ site.nested, dispatch? resolver stream inner.start = some inner
  complete : ∀ index other, opening < index → index < closing →
    dispatch? resolver stream index = some other →
      ∃ inner ∈ site.nested, inner.start ≤ index ∧ index < inner.stop

namespace Converted

variable {resolver : Resolver} {stream : TokenStream} {site : CallSite} {call : LegacyCall}

theorem pairwise_nested (converted : Converted resolver stream site call) :
    site.nested.Pairwise fun left right => left.stop ≤ right.start := by
  rw [converted.nested_eq, List.pairwise_flatMap]
  refine ⟨fun range _ => pairwise_convertSpan resolver stream range.start range.stop, ?_⟩
  refine (site.shape.pairwise_copied converted.call_eq).imp fun {left right} apart => ?_
  intro first inLeft second inRight
  have upper := (convertSpan_sites inLeft).2.1
  have lower := (convertSpan_sites inRight).1
  omega

/-- A call in the arguments comes from a range that is copied. -/
theorem bounds_of_mem_nested (converted : Converted resolver stream site call) {inner : CallSite}
    (member : inner ∈ site.nested) :
    call.opening < inner.start ∧ inner.stop ≤ call.closing ∧
      dispatch? resolver stream inner.start = some inner := by
  rw [converted.nested_eq] at member
  obtain ⟨range, copied, inSpan⟩ := List.mem_flatMap.mp member
  obtain ⟨lower, upper, dispatched⟩ := convertSpan_sites inSpan
  have behind := CallShape.opening_lt_of_mem_copied converted.call_eq copied
  have before := CallShape.stop_of_mem_copied converted.call_eq copied
  rw [LegacyCall.stop] at before
  exact ⟨by omega, by omega, dispatched⟩

theorem exists_nested_around (converted : Converted resolver stream site call) {index : Nat}
    {other : CallSite} (behind : call.opening < index) (before : index < call.closing)
    (dispatched : dispatch? resolver stream index = some other) :
    ∃ inner ∈ site.nested, inner.start ≤ index ∧ index < inner.stop := by
  obtain ⟨rfl, otherCall, otherConverted⟩ := dispatch?_eq_some dispatched
  have opening := (TokenStream.legacyCall?_order converted.call_eq).1
  have stop := converted.stop_eq
  rw [LegacyCall.stop] at stop
  obtain ⟨range, copied, lower, upper⟩ :=
    converted.exists_copied_around otherConverted (by omega) (by omega)
  obtain ⟨inner, member, around⟩ := exists_site_around dispatched lower upper
  refine ⟨inner, ?_, around⟩
  rw [converted.nested_eq]
  exact List.mem_flatMap.mpr ⟨range, copied, member⟩

end Converted

/-- In nested tokens, the parentheses of a call are partners. -/
theorem TokenStream.parentheses_of_legacyCall? {stream : TokenStream} {index : Nat}
    {call : LegacyCall} (nested : Nested stream) (result : stream.legacyCall? index = some call) :
    call.opening < call.closing ∧ stream.hasKind .closeParen call.closing = true ∧
      Nested (stream.slice ⟨call.opening + 1, call.closing⟩) := by
  obtain ⟨_, _, _, _, _, _, _, openingNext, closing, _⟩ := legacyCall?_eq_some result
  have partners := (matchingClose?_eq_some_iff_partners nested).mp closing
  obtain ⟨opener, closer, atOpening, atClosing, family⟩ := partners.family
  obtain ⟨other, sameOpening, isParen⟩ := hasKind_iff.mp (nextOfKind?_eq_some_iff.mp openingNext).2
  rw [atOpening, Option.some.injEq] at sameOpening
  rw [sameOpening, isParen, TokenKind.closing?, Option.some.injEq] at family
  exact ⟨partners.ordered, hasKind_iff.mpr ⟨closer, atClosing, family.symm⟩, partners.between⟩

theorem exists_arranged {resolver : Resolver} {stream : TokenStream} {site : CallSite}
    (nested : Nested stream) (dispatched : dispatch? resolver stream site.start = some site) :
    ∃ opening closing, site.Arranged resolver stream opening closing := by
  obtain ⟨_, call, converted⟩ := dispatch?_eq_some dispatched
  obtain ⟨_, colons, name, _, colonsNext, nameNext, _, openingNext, _, _⟩ :=
    TokenStream.legacyCall?_eq_some converted.call_eq
  refine ⟨call.opening, call.closing, ?_⟩
  exact {
    opens := ⟨colons, name, colonsNext, nameNext, openingNext⟩
    closes := TokenStream.parentheses_of_legacyCall? nested converted.call_eq
    stop_eq := converted.stop_eq
    between := fun inner member => by
      obtain ⟨lower, upper, own⟩ := converted.bounds_of_mem_nested member
      obtain ⟨_, _, innerConverted⟩ := dispatch?_eq_some own
      exact ⟨lower, innerConverted.start_lt_stop, upper⟩
    inOrder := converted.pairwise_nested
    own := fun inner member => (converted.bounds_of_mem_nested member).2.2
    complete := fun index other behind before found =>
      converted.exists_nested_around behind before found }

/-- A conversion starts where it is looked for and ends behind its closing parenthesis. Between its
parentheses, the calls that are converted with it follow one another, each as it is converted on its
own, and no call with a replacement is left out; the same holds of each of them. -/
theorem dispatch?_arranged {source : Text} {stream : TokenStream} {resolver : Resolver}
    {index : Nat} {site : CallSite} (lexed : tokenize source = .ok stream)
    (dispatched : dispatch? resolver stream index = some site) :
    site.start = index ∧ ∀ part, CallSite.Within part site →
      ∃ opening closing, part.Arranged resolver stream opening closing := by
  obtain ⟨rfl, _⟩ := dispatch?_eq_some dispatched
  exact ⟨rfl, fun part within =>
    exists_arranged (nested_of_tokenize lexed) (within.bounds dispatched).1⟩

/-- A call with three others in its arguments, one of which has another one in its own. -/
def callsInArguments : Text :=
  "<?php Mage::getStoreConfig(Mage::helper('a')->path(Mage::log(Mage::helper('b'))), " ++
    "Mage::getModel('c/d'));"

theorem dispatch?_callsInArguments : ∃ (stream : TokenStream) (site : CallSite),
    tokenize callsInArguments = .ok stream ∧
      dispatch? conventions.resolver stream 1 = some site ∧
      site.nested.map (·.nested.length) = [0, 1, 0] := by
  have computed : (tokenize callsInArguments).toOption.any (fun stream : TokenStream =>
      (dispatch? conventions.resolver stream 1).any fun site =>
        site.nested.map (·.nested.length) == [0, 1, 0]) = true := by
    decide +kernel
  simp only [Option.any_eq_true, beq_iff_eq] at computed
  obtain ⟨stream, lexed, site, dispatched, nested⟩ := computed
  exact ⟨stream, site, eq_ok_of_toOption lexed, dispatched, nested⟩

theorem dispatch?_arranged_callsInArguments : ∃ (stream : TokenStream) (site : CallSite),
    tokenize callsInArguments = .ok stream ∧
      dispatch? conventions.resolver stream 1 = some site ∧
      site.nested.map (·.nested.length) = [0, 1, 0] ∧ site.start = 1 ∧
      ∀ part, CallSite.Within part site →
        ∃ opening closing, part.Arranged conventions.resolver stream opening closing := by
  obtain ⟨stream, site, lexed, dispatched, nested⟩ := dispatch?_callsInArguments
  exact ⟨stream, site, lexed, dispatched, nested, dispatch?_arranged lexed dispatched⟩

end ConstructorInjection
