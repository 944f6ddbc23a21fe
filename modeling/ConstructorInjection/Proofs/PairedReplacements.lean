import Mathlib.Data.List.Chain
import Mathlib.Tactic.Common
import ConstructorInjection.Proofs.Accesses
import ConstructorInjection.Proofs.CallCoverage
import ConstructorInjection.Proofs.Dependencies
import ConstructorInjection.Proofs.PairedStreams

/-!
Converted calls keep the line breaks of a stream. A replacement begins and ends with a character of
its own, as the call does, and what it copies from the call begins with no line break.
-/

namespace ConstructorInjection

open Text (returnsBehind)

theorem IsLabel.unbroken {label : Text} (isLabel : IsLabel label) : Text.Unbroken label :=
  .of_all isLabel.parts (by decide) (by decide)

namespace CallShape

/-- What a replacement copies can be read behind the text that it puts in front. -/
theorem settled_replacement (shape : CallShape) {variableName : Text} {copies : List Text}
    (unbroken : Text.Unbroken variableName)
    (read : ∀ copy ∈ copies, ∃ behind, returnsBehind 0 copy = some behind) :
    Text.Settled (shape.replacement variableName copies) := by
  unfold replacement
  extract_lets object forward configuration
  have accessed : Text.Unbroken object :=
    Text.Unbroken.append (by constructor <;> decide) unbroken
  have nonempty : object ≠ [] := List.append_ne_nil_of_left_ne_nil (by decide) _
  have parenthesis : Text.Settled (")" : Text) :=
    .of_unbroken (by constructor <;> decide) (by decide)
  have headRead : ∃ behind, returnsBehind 0 (copies.headD []) = some behind := by
    cases copies with
    | nil => exact ⟨0, rfl⟩
    | cons copy _ => exact read copy (by simp)
  obtain ⟨behind, first⟩ := headRead
  have called {method : Text} (unbrokenMethod : Text.Unbroken method) :
      Text.Settled (object ++ "->" ++ method ++ "(") :=
    .of_unbroken (((accessed.append (by constructor <;> decide)).append unbrokenMethod).append
      (by constructor <;> decide)) (List.append_ne_nil_of_right_ne_nil _ (by decide))
  have forwarded {method : Text} (unbrokenMethod : Text.Unbroken method) :
      Text.Settled (forward method) := by
    have whole := (called unbrokenMethod).around first parenthesis
    rwa [← List.append_assoc] at whole
  have configured {method : Text} (unbrokenMethod : Text.Unbroken method) :
      Text.Settled (configuration method) := by
    have comma : Text.Settled (", " : Text) := .of_unbroken (by constructor <;> decide) (by decide)
    have scope : Text.Settled storeScope := .of_unbroken (by constructor <;> decide) (by decide)
    have later (text : Text) (member : text ∈ copies.drop 1) :=
      read text (List.mem_of_mem_drop member)
    have whole := (called unbrokenMethod).around first
      (comma.append (scope.append (comma.flatMap_around parenthesis later)))
    simpa only [configuration, List.append_assoc] using whole
  cases shape
  case helper | getSingleton | getResourceSingleton => exact .of_unbroken accessed nonempty
  case dispatchEvent | logException | log => exact forwarded (by constructor <;> decide)
  case getStoreConfig | getStoreConfigFlag => exact configured (by constructor <;> decide)
  case getModel | getResourceModel =>
    cases copies with
    | nil =>
      exact .of_unbroken (accessed.append (by constructor <;> decide))
        (List.append_ne_nil_of_left_ne_nil nonempty _)
    | cons data _ =>
      obtain ⟨ending, readData⟩ := read data (by simp)
      have front : Text.Settled (object ++ "->create(['data' => ") :=
        .of_unbroken (accessed.append (by constructor <;> decide))
          (List.append_ne_nil_of_left_ne_nil nonempty _)
      have whole := front.around readData
        (.of_unbroken (by constructor <;> decide) (by decide) : Text.Settled ("])" : Text))
      rwa [← List.append_assoc] at whole

end CallShape

namespace PairedTokens

variable {resolver : Resolver} {stream : TokenStream}

theorem returnsAt?_behindDelimiter (paired : PairedTokens stream) {index : Nat} {token : Token}
    (found : stream[index]? = some token)
    (delimits : token.kind.isOpener = true ∨ token.kind.isCloser = true) :
    stream.returnsAt? (index + 1) = some 0 := by
  refine paired.returnsAt?_behind found fun ends => ?_
  have solid := (paired.spelled token (List.mem_of_getElem? found)).delimiter delimits
  exact absurd (solid _ (List.mem_of_getLast? ends)) (by decide)

theorem exists_returnsBehind_slice (paired : PairedTokens stream) {start stop : Nat}
    (ordered : start ≤ stop) : ∃ returns behind, stream.returnsAt? start = some returns ∧
      returnsBehind returns (textOf (stream.slice ⟨start, stop⟩)) = some behind := by
  obtain ⟨behind, atStop, _⟩ := paired.exists_returnsAt? stop
  rw [TokenStream.returnsAt?_slice ordered, Option.bind_eq_some_iff] at atStop
  obtain ⟨returns, atStart, read⟩ := atStop
  exact ⟨returns, behind, atStart, read⟩

/-- What a replacement copies can be read on its own. -/
theorem returnsBehind_copied (paired : PairedTokens stream) {index : Nat} {call : LegacyCall}
    {shape : CallShape} {range : IndexRange} (result : stream.legacyCall? index = some call)
    (member : range ∈ shape.copied call) :
    ∃ behind, returnsBehind 0 (textOf (stream.slice range)) = some behind := by
  obtain ⟨head, inner, rest, opener, closer, tokens⟩ := TokenStream.exists_callTokens result
  have atOpening : stream[call.opening]? = some opener := by
    rw [tokens.opening_eq]
    exact TokenStream.getElem?_of_drop_eq tokens.cut
  have ordered : call.opening < call.closing := by
    rw [tokens.closing_eq]
    omega
  rcases CallShape.inner_or_argument_of_mem_copied member with rfl | isArgument
  · obtain ⟨returns, behind, atStart, read⟩ :=
      paired.exists_returnsBehind_slice (Nat.succ_le_of_lt ordered)
    rw [paired.returnsAt?_behindDelimiter atOpening (.inl tokens.opens)] at atStart
    cases atStart
    exact ⟨behind, read⟩
  · obtain ⟨_, _, _, _, _, _, _, _, _, _, arguments⟩ := TokenStream.legacyCall?_eq_some result
    rw [arguments] at isArgument
    obtain ⟨item, isItem, rfl⟩ := List.mem_map.mp isArgument
    have noTag : opener.kind ≠ .closeTag := by
      intro isTag
      have opens := tokens.opens
      rw [isTag] at opens
      contradiction
    have trimmed := TokenStream.trimmed_of_mem_splitTopLevel atOpening noTag ordered
      (Nat.le_of_lt (List.getElem?_eq_some_iff.mp tokens.getElem?_closing).1) isItem
    have noBreak := paired.head?_trimmed trimmed
    generalize stream.trimTrivia item = range at trimmed noBreak
    obtain ⟨first, found, _⟩ := trimmed.first
    obtain ⟨returns, behind, _, read⟩ :=
      paired.exists_returnsBehind_slice (Nat.le_of_lt trimmed.ordered.2)
    refine Text.returnsBehind_exchange read ?_ (.inl rfl)
    have spelled := paired.spelled first (List.mem_of_getElem? found)
    rw [TokenStream.slice_eq_cons found trimmed.ordered.2, spelled.text_head?]
    rw [paired.head?_drop found] at noBreak
    intro feed
    rw [feed] at noBreak
    contradiction

/-- A call leaves no carriage return behind. -/
theorem returnsBehind_call (paired : PairedTokens stream) {index returns behind : Nat}
    {call : LegacyCall} (result : stream.legacyCall? index = some call)
    (read : returnsBehind returns (textOf (stream.slice ⟨index, call.stop⟩)) = some behind) :
    behind = 0 := by
  obtain ⟨head, inner, rest, opener, closer, tokens⟩ := TokenStream.exists_callTokens result
  have spelled := paired.spelled closer (List.mem_of_getElem? tokens.getElem?_closing)
  have ends := List.getLast?_eq_some_getLast spelled.nonempty
  have cut : stream.drop index = (head ++ (opener :: inner ++ [closer])) ++ rest := by
    rw [tokens.cut]
    simp
  rw [TokenStream.slice_of_drop_eq cut tokens.level_uncut.2.2] at read
  have last : (textOf (head ++ (opener :: inner ++ [closer]))).getLast? =
      some (closer.text.getLast spelled.nonempty) := by
    rw [← List.append_assoc, textOf_append, List.getLast?_append, textOf_cons, textOf,
      List.flatMap_nil, List.append_nil, ends, Option.some_or]
  refine Text.returnsBehind_eq_zero read last fun isReturn => ?_
  have solid := spelled.delimiter (.inr tokens.closes) _ (List.getLast_mem spelled.nonempty)
  rw [isReturn] at solid
  contradiction

theorem settled_of_converted {site : CallSite} {call : LegacyCall}
    (converted : Converted resolver stream site call)
    (read : ∀ range ∈ site.shape.copied call, ∃ behind,
      returnsBehind 0 (convertSpan resolver stream range.start range.stop).text = some behind) :
    Text.Settled (textOf site.replacement) := by
  rw [(synthesize_spelled converted.replacement_eq).1]
  refine site.shape.settled_replacement
    (CallShape.isLabel_of_dependency? converted.dependency_eq).unbroken fun copy member => ?_
  obtain ⟨range, isCopied, rfl⟩ := List.mem_map.mp member
  exact read range isCopied

/-- Conversion changes no carriage returns at the two ends of a span. -/
theorem returnsBehind_convertSpan (paired : PairedTokens stream) {start stop returns behind : Nat}
    (read : returnsBehind returns (textOf (stream.slice ⟨start, stop⟩)) = some behind) :
    returnsBehind returns (convertSpan resolver stream start stop).text = some behind := by
  generalize left : stream.length - start = remaining
  induction remaining using Nat.strongRecOn generalizing start stop returns behind with
  | ind remaining ih =>
      rw [convertSpan]
      split
      next inside =>
        split
        next site result =>
          obtain ⟨dispatched, fits⟩ := Option.filter_eq_some_iff.mp result
          obtain ⟨startEq, call, converted⟩ := dispatch?_eq_some dispatched
          have filled := converted.start_lt_stop
          have ordered : site.stop ≤ stop := by simpa using fits
          have callEq := converted.call_eq
          rw [startEq] at filled callEq
          have settled : Text.Settled site.replacementText :=
            settled_of_converted converted fun range member => by
              have later := CallShape.start_of_mem_copied callEq member
              obtain ⟨ending, copied⟩ := paired.returnsBehind_copied callEq member
              exact ⟨ending, ih _ (by omega) copied rfl⟩
          rw [← stream.slice_append_slice (Nat.le_of_lt filled) ordered, textOf_append] at read
          obtain ⟨between, front, rest⟩ := Text.returnsBehind_parts read
          rw [converted.stop_eq] at front
          rw [paired.returnsBehind_call callEq front] at rest
          have next : max (start + 1) site.stop = site.stop := by omega
          simp only [next]
          exact Text.returnsBehind_trans (settled returns) (ih _ (by omega) rest rfl)
        next =>
          rw [TokenStream.slice_eq_cons (List.getElem?_eq_getElem inside.2) inside.1, textOf_cons]
            at read
          obtain ⟨between, first, later⟩ := Text.returnsBehind_parts read
          exact Text.returnsBehind_trans first (ih _ (by omega) later rfl)
      next outside =>
        rw [TokenStream.slice_eq_nil (by simp only; omega)] at read
        exact read

end PairedTokens

section Replaced

variable {resolver : Resolver} {stream : TokenStream} {site : CallSite}

/-- The closer of a converted call is the last token that gives way. -/
theorem exists_closer_of_dispatch? (dispatched : dispatch? resolver stream site.start = some site) :
    ∃ closer, stream[site.stop - 1]? = some closer ∧ closer.kind.isCloser = true ∧
      site.start < site.stop := by
  obtain ⟨_, call, converted⟩ := dispatch?_eq_some dispatched
  obtain ⟨_, _, _, _, closer, tokens⟩ := TokenStream.exists_callTokens converted.call_eq
  refine ⟨closer, ?_, tokens.closes, converted.start_lt_stop⟩
  rw [converted.stop_eq, LegacyCall.stop, Nat.add_sub_cancel]
  exact tokens.getElem?_closing

theorem settled_of_dispatch? (paired : PairedTokens stream)
    (dispatched : dispatch? resolver stream site.start = some site) :
    Text.Settled (textOf site.replacement) := by
  obtain ⟨_, call, converted⟩ := dispatch?_eq_some dispatched
  refine PairedTokens.settled_of_converted converted fun range member => ?_
  obtain ⟨behind, read⟩ := paired.returnsBehind_copied converted.call_eq member
  exact ⟨behind, paired.returnsBehind_convertSpan read⟩

theorem keeps_of_dispatch? (paired : PairedTokens stream)
    (dispatched : dispatch? resolver stream site.start = some site) :
    Edit.Keeps stream ⟨site.range, site.replacement⟩ := by
  obtain ⟨closer, atStop, closes, filled⟩ := exists_closer_of_dispatch? dispatched
  obtain ⟨before, atStart, _⟩ := paired.exists_returnsAt? site.start
  refine ⟨0, ⟨before, atStart, settled_of_dispatch? paired dispatched before⟩, ?_⟩
  have read := paired.returnsAt?_behindDelimiter atStop (.inr closes)
  rwa [Nat.sub_add_cancel (Nat.le_trans (Nat.succ_le_succ (Nat.zero_le _)) filled)] at read

theorem links_of_dispatch? (paired : PairedTokens stream)
    (dispatched : dispatch? resolver stream site.start = some site) :
    Edit.Links Token.Meets stream ⟨site.range, site.replacement⟩ := by
  obtain ⟨closer, atStop, closes, filled⟩ := exists_closer_of_dispatch? dispatched
  obtain ⟨_, call, converted⟩ := dispatch?_eq_some dispatched
  obtain ⟨text, spelled, meets, noHtml⟩ := synthesize_spelled converted.replacement_eq
  have begins : (textOf site.replacement).head? = some '$' := by
    rw [text]
    exact CallShape.head?_replacement _ _ _
  refine ⟨⟨filled, ?_⟩, meets, ?_, ?_⟩
  · intro empty
    simp only at empty
    rw [empty] at begins
    contradiction
  · intro first isFirst token
    refine ⟨fun feed => ?_, fun isHtml => absurd isHtml (noHtml first isFirst)⟩
    obtain ⟨others, opens⟩ := List.head?_eq_some_iff.mp isFirst
    simp only at opens
    rw [opens, (spelled first (List.mem_of_mem_head? isFirst)).text_head?, feed] at begins
    contradiction
  · intro last isLast removed isRemoved next follows
    simp only [CallSite.range] at isRemoved
    rw [atStop] at isRemoved
    cases isRemoved
    refine ⟨fun _ => .inr fun ends => ?_, fun isHtml => ?_⟩
    · refine Text.getLast?_of_returnsBehind (settled_of_dispatch? paired dispatched 0) ?_
      obtain ⟨front, concat⟩ := List.getLast?_eq_some_iff.mp isLast
      simp only at concat
      rw [concat, textOf_append, List.getLast?_append, textOf_cons, textOf, List.flatMap_nil,
        List.append_nil, ends, Option.some_or]
    · rw [follows.html isHtml] at closes
      contradiction

end Replaced

/-- Replacing the calls of a class keeps the line breaks. -/
theorem Converter.pairedTokens_replaced {converter : Converter} {stream : TokenStream}
    {conversion : Conversion} (paired : PairedTokens stream)
    (processed : converter.process stream = .ok conversion) :
    PairedTokens (replaced stream conversion) := by
  have inOrder := (process_eq_ok processed).1
  have dispatched (edit : Edit) (member : edit ∈ replacementEdits conversion.sites) :
      ∃ site, edit = ⟨site.range, site.replacement⟩ ∧
        dispatch? converter.resolver stream site.start = some site := by
    obtain ⟨site, inSites, rfl⟩ := List.mem_map.mp member
    obtain ⟨declaration, _, isSite⟩ := exists_mem_sites processed inSites
    exact ⟨site, rfl, (dispatched_of_mem_sites isSite).1⟩
  have keeps : ∀ edit ∈ replacementEdits conversion.sites, edit.Keeps stream := by
    intro edit member
    obtain ⟨site, rfl, found⟩ := dispatched edit member
    exact keeps_of_dispatch? paired found
  refine ⟨?_, ?_, ?_⟩
  · intro token member
    rcases Edit.mem_of_mem_rebuilt member with kept | ⟨edit, inEdits, new⟩
    · exact paired.spelled token kept
    · obtain ⟨site, rfl, found⟩ := dispatched edit inEdits
      obtain ⟨_, call, converted⟩ := dispatch?_eq_some found
      exact (synthesize_spelled converted.replacement_eq).2.1 token new
  · refine (Edit.isChain_rebuilt paired.meets inOrder (fun edit _ => Nat.zero_le _) ?_).1
    intro edit member
    obtain ⟨site, rfl, found⟩ := dispatched edit member
    exact links_of_dispatch? paired found
  · refine Edit.paired_rebuilt paired inOrder (fun edit member => .inl (keeps edit member)) ?_
    exact List.Pairwise.imp_of_mem (fun member _ _ => .inl (keeps _ member)) inOrder.apart

end ConstructorInjection
