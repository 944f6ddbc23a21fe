import Mathlib.Data.List.Basic
import Mathlib.Tactic.Common
import ConstructorInjection.Conversion
import ConstructorInjection.Proofs.Search

/-!
Where converted calls stand: what one conversion consists of, how the calls in its arguments lie
inside it, and how the scan of a class body steps from one call to the next.
-/

namespace ConstructorInjection

namespace TokenStream

theorem stop_le_of_mem_splitFrom {start index depth : Nat} {tokens : List Token}
    {item : IndexRange} (member : item ∈ splitFrom start index depth tokens) :
    item.stop ≤ index + tokens.length := by
  induction tokens generalizing start index depth with
  | nil =>
      simp only [splitFrom, List.mem_singleton] at member
      simp [member]
  | cons token rest ih =>
      rw [List.length_cons]
      rw [splitFrom] at member
      split at member
      · have bound := ih member
        omega
      · split at member
        · have bound := ih member
          omega
        · split at member
          · rcases List.mem_cons.mp member with first | later
            · simp only [first]
              omega
            · have bound := ih later
              omega
          · have bound := ih member
            omega

theorem stop_le_of_mem_splitTopLevel {stream : TokenStream} {range item : IndexRange}
    (ordered : range.start ≤ range.stop) (member : item ∈ stream.splitTopLevel range) :
    item.stop ≤ range.stop := by
  have bound := stop_le_of_mem_splitFrom (List.mem_filter.mp member).1
  rw [length_slice] at bound
  omega

theorem trimTrivia_stop_le (stream : TokenStream) (range : IndexRange) :
    (stream.trimTrivia range).stop ≤ range.stop := by
  simp only [trimTrivia]
  omega

theorem lt_of_matchingClose? {stream : TokenStream} {opener closer : Nat}
    (result : stream.matchingClose? opener = some closer) : opener < closer := by
  rw [matchingClose?] at result
  split at result
  · simp only [Option.map_eq_some_iff] at result
    obtain ⟨distance, _, rfl⟩ := result
    omega
  · contradiction

/-- A legacy call is a receiver, two colons, a name and a parenthesized list, in this order. -/
theorem legacyCall?_eq_some {stream : TokenStream} {index : Nat} {call : LegacyCall}
    (result : stream.legacyCall? index = some call) :
    stream.isReceiver index = true ∧ ∃ colons name token,
      stream.nextOfKind? .doubleColon index = some colons ∧
      stream.nextOfKind? .identifier colons = some name ∧ stream[name]? = some token ∧
      stream.nextOfKind? .openParen name = some call.opening ∧
      stream.matchingClose? call.opening = some call.closing ∧ call.method = token.text ∧
      call.arguments =
        (stream.splitTopLevel ⟨call.opening + 1, call.closing⟩).map stream.trimTrivia := by
  rw [legacyCall?] at result
  split at result
  case isFalse => contradiction
  case isTrue receiver =>
    simp only [Option.bind_eq_bind, Option.bind_eq_some_iff, Option.pure_def,
      Option.some.injEq] at result
    obtain ⟨colons, colonsResult, name, nameResult, token, tokenResult, opening, openingResult,
      closing, closingResult, rfl⟩ := result
    exact ⟨receiver, colons, name, token, colonsResult, nameResult, tokenResult, openingResult,
      closingResult, rfl, rfl⟩

end TokenStream

theorem CallShape.stop_of_mem_copied {stream : TokenStream} {index : Nat} {call : LegacyCall}
    {shape : CallShape} {range : IndexRange} (result : stream.legacyCall? index = some call)
    (member : range ∈ shape.copied call) : range.stop < call.stop := by
  obtain ⟨_, _, _, _, _, _, _, _, closing, _, arguments⟩ :=
    TokenStream.legacyCall?_eq_some result
  have ordered := TokenStream.lt_of_matchingClose? closing
  have inArguments (argument : IndexRange) (belongs : argument ∈ call.arguments) :
      argument.stop < call.stop := by
    rw [arguments] at belongs
    obtain ⟨item, itemMember, rfl⟩ := List.mem_map.mp belongs
    have bound := TokenStream.stop_le_of_mem_splitTopLevel (Nat.succ_le_of_lt ordered) itemMember
    have trimmed := TokenStream.trimTrivia_stop_le stream item
    simp only at bound
    rw [LegacyCall.stop]
    omega
  cases shape <;> simp only [copied, List.not_mem_nil] at member
  case getModel | getResourceModel =>
    exact inArguments range (List.mem_of_mem_drop (List.mem_of_mem_take member))
  case getStoreConfig | getStoreConfigFlag =>
    exact inArguments range (List.mem_of_mem_take member)
  case dispatchEvent | logException | log =>
    rw [List.mem_singleton.mp member]
    simp [LegacyCall.inner, LegacyCall.stop]

theorem CallShape.head?_replacement (shape : CallShape) (variableName : Text) (copies : List Text) :
    (shape.replacement variableName copies).head? = some '$' := by
  cases shape
  case getModel | getResourceModel => cases copies <;> rfl
  all_goals rfl

/-- All that a conversion of a call is made of. -/
structure Converted (resolver : Resolver) (stream : TokenStream) (site : CallSite)
    (call : LegacyCall) : Prop where
  call_eq : stream.legacyCall? site.start = some call
  shape_eq : CallShape.select? call.method call.arguments.length = some site.shape
  dependency_eq : site.shape.dependency? resolver stream call = some site.dependency
  stop_eq : site.stop = call.stop
  replacement_eq : synthesize (site.shape.replacement site.dependency.variableName
    ((site.shape.copied call).map fun range =>
      (convertSpan resolver stream range.start range.stop).text)) = .ok site.replacement
  nested_eq : site.nested = (site.shape.copied call).flatMap fun range =>
    (convertSpan resolver stream range.start range.stop).sites

theorem dispatch?_eq_some {resolver : Resolver} {stream : TokenStream} {index : Nat}
    {site : CallSite} (result : dispatch? resolver stream index = some site) :
    site.start = index ∧ ∃ call, Converted resolver stream site call := by
  rw [dispatch?] at result
  split at result
  next => contradiction
  next call found =>
    split at result
    next => contradiction
    next shape selected =>
      split at result
      next => contradiction
      next dependency resolved =>
        simp only at result
        split at result
        next => contradiction
        next tokens lexed =>
          cases result
          refine ⟨rfl, call, found, selected, resolved, rfl, ?_, ?_⟩
          · simpa [List.map_map, Function.comp_def] using lexed
          · simp [List.flatMap_map]

theorem Converted.start_lt_stop {resolver : Resolver} {stream : TokenStream} {site : CallSite}
    {call : LegacyCall} (converted : Converted resolver stream site call) :
    site.start < site.stop := by
  have order := (TokenStream.legacyCall?_order converted.call_eq).1
  obtain ⟨_, _, _, _, _, _, _, _, closing, _, _⟩ :=
    TokenStream.legacyCall?_eq_some converted.call_eq
  have ordered := TokenStream.lt_of_matchingClose? closing
  rw [converted.stop_eq, LegacyCall.stop]
  omega

/-- A converted span holds conversions of calls that stand in the span. -/
theorem convertSpan_sites {resolver : Resolver} {stream : TokenStream} {start stop : Nat}
    {site : CallSite} (member : site ∈ (convertSpan resolver stream start stop).sites) :
    start ≤ site.start ∧ site.stop ≤ stop ∧
      dispatch? resolver stream site.start = some site := by
  generalize left : stream.length - start = remaining
  induction remaining using Nat.strongRecOn generalizing start with
  | ind remaining ih =>
      rw [convertSpan] at member
      split at member
      next inside =>
        split at member
        next found result =>
          obtain ⟨dispatched, fits⟩ := Option.filter_eq_some_iff.mp result
          obtain ⟨startEq, _⟩ := dispatch?_eq_some dispatched
          rcases List.mem_cons.mp member with rfl | later
          · refine ⟨by omega, by simpa using fits, ?_⟩
            rw [startEq]
            exact dispatched
          · obtain ⟨lower, upper, origin⟩ := ih _ (by omega) later rfl
            exact ⟨by omega, upper, origin⟩
        next =>
          obtain ⟨lower, upper, origin⟩ := ih _ (by omega) member rfl
          exact ⟨by omega, upper, origin⟩
      next => simp at member

/-- A call that is converted is converted with another one when it stands in its arguments, or in
the arguments of a call there. -/
inductive CallSite.Within : CallSite → CallSite → Prop where
  | itself (site : CallSite) : Within site site
  | nested {inner middle outer : CallSite} (member : middle ∈ outer.nested)
      (within : Within inner middle) : Within inner outer

/-- Calls converted with another one are conversions of their own and lie inside it. -/
theorem CallSite.Within.bounds {resolver : Resolver} {stream : TokenStream}
    {inner outer : CallSite} (within : CallSite.Within inner outer)
    (dispatched : dispatch? resolver stream outer.start = some outer) :
    dispatch? resolver stream inner.start = some inner ∧
      (inner = outer ∨ outer.start < inner.start) ∧ inner.stop ≤ outer.stop := by
  induction within with
  | itself => exact ⟨dispatched, .inl rfl, Nat.le_refl _⟩
  | nested member _ ih =>
      obtain ⟨_, call, converted⟩ := dispatch?_eq_some dispatched
      rw [converted.nested_eq] at member
      obtain ⟨range, copied, inSpan⟩ := List.mem_flatMap.mp member
      obtain ⟨lower, upper, origin⟩ := convertSpan_sites inSpan
      obtain ⟨innerOrigin, innerStart, innerStop⟩ := ih origin
      have later := CallShape.start_of_mem_copied converted.call_eq copied
      have earlier := CallShape.stop_of_mem_copied converted.call_eq copied
      rw [← converted.stop_eq] at earlier
      refine ⟨innerOrigin, .inr ?_, by omega⟩
      rcases innerStart with rfl | behind <;> omega

namespace Converter

/-- One step of the scan never looks at a place in a skipped range, and a range is skipped before the
scan reaches a place behind its start. -/
theorem mem_sitesFrom {converter : Converter} {stream : TokenStream} {stop index : Nat}
    {skipped : List IndexRange} {site : CallSite}
    (sorted : skipped.Pairwise fun left right => left.start ≤ right.start)
    (member : site ∈ converter.sitesFrom stream stop skipped index) :
    (index ≤ site.start ∧ site.stop ≤ stop ∧
      dispatch? converter.resolver stream site.start = some site) ∧
      ∀ range ∈ skipped, ¬ (range.start ≤ site.start ∧ site.start < range.stop) := by
  generalize left : (stop - index) + skipped.length = remaining
  induction remaining using Nat.strongRecOn generalizing index skipped with
  | ind remaining ih =>
      rw [sitesFrom] at member
      split at member
      case isFalse => simp at member
      case isTrue inside =>
        split at member
        next range first =>
          obtain ⟨head, started⟩ := Option.filter_eq_some_iff.mp first
          cases skipped with
          | nil => simp at head
          | cons earliest later =>
              rw [List.head?_cons, Option.some.injEq] at head
              subst head
              simp only [List.tail_cons] at member
              simp only [List.length_cons] at left
              obtain ⟨⟨lower, upper, origin⟩, outside⟩ :=
                ih _ (by omega) (List.pairwise_cons.mp sorted).2 member rfl
              refine ⟨⟨by omega, upper, origin⟩, ?_⟩
              intro other belongs
              rcases List.mem_cons.mp belongs with rfl | inLater
              · omega
              · exact outside other inLater
        next first =>
          have ahead : ∀ range ∈ skipped, index < range.start := by
            intro range belongs
            cases skipped with
            | nil => simp at belongs
            | cons earliest later =>
                have notStarted : index < earliest.start := by
                  simpa [Option.filter] using first
                rcases List.mem_cons.mp belongs with rfl | inLater
                · exact notStarted
                · have order := (List.pairwise_cons.mp sorted).1 range inLater
                  omega
          split at member
          next found result =>
            obtain ⟨dispatched, fits⟩ := Option.filter_eq_some_iff.mp result
            obtain ⟨startEq, _⟩ := dispatch?_eq_some dispatched
            rcases List.mem_cons.mp member with rfl | inLater
            · refine ⟨⟨by omega, by simpa using fits, by rw [startEq]; exact dispatched⟩, ?_⟩
              intro range belongs
              have behind := ahead range belongs
              omega
            · obtain ⟨⟨lower, upper, origin⟩, outside⟩ := ih _ (by omega) sorted inLater rfl
              exact ⟨⟨by omega, upper, origin⟩, outside⟩
          next =>
            obtain ⟨⟨lower, upper, origin⟩, outside⟩ := ih _ (by omega) sorted member rfl
            exact ⟨⟨by omega, upper, origin⟩, outside⟩

end Converter

end ConstructorInjection
