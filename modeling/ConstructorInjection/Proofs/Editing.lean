import Mathlib.Data.List.Basic
import Mathlib.Tactic.Common
import ConstructorInjection.Proofs.EditConflicts
import ConstructorInjection.Proofs.Navigation

/-!
What a batch of edits makes of a stream: from left to right, the tokens between the edits and the
replacements.
-/

namespace ConstructorInjection

namespace Edit

/-- Edits from left to right, each within the stream and none of them in another one. -/
structure InOrder (edits : List Edit) (stream : TokenStream) : Prop where
  apart : edits.Pairwise fun left right => left.range.stop ≤ right.range.start
  proper : ∀ edit ∈ edits, edit.range.start ≤ edit.range.stop ∧ edit.range.stop ≤ stream.length

theorem InOrder.tail {edit : Edit} {edits : List Edit} {stream : TokenStream}
    (inOrder : InOrder (edit :: edits) stream) : InOrder edits stream :=
  ⟨(List.pairwise_cons.mp inOrder.apart).2, fun other member =>
    inOrder.proper other (List.mem_cons_of_mem _ member)⟩

/-- The tokens from an index on, with the edits behind it made. -/
def rebuilt (stream : TokenStream) (start : Nat) : List Edit → List Token
  | [] => stream.drop start
  | edit :: edits =>
    stream.slice ⟨start, edit.range.start⟩ ++ edit.replacement ++
      rebuilt stream edit.range.stop edits

theorem foldr_splice_eq {edits : List Edit} {stream : TokenStream} {start : Nat}
    (inOrder : InOrder edits stream) (behind : ∀ edit ∈ edits, start ≤ edit.range.start) :
    edits.foldr (fun edit stream => stream.splice edit.range edit.replacement) stream =
      stream.take start ++ rebuilt stream start edits := by
  induction edits generalizing start with
  | nil => rw [List.foldr_nil, rebuilt, List.take_append_drop]
  | cons edit edits ih =>
      obtain ⟨ordered, bound⟩ := inOrder.proper edit (by simp)
      have later := ih inOrder.tail (List.pairwise_cons.mp inOrder.apart).1
      have first := behind edit (by simp)
      rw [List.foldr_cons, later, rebuilt, TokenStream.splice]
      have stopLength : (stream.take edit.range.stop).length = edit.range.stop := by
        rw [List.length_take]
        omega
      have stopEq : min edit.range.stop
          (stream.take edit.range.stop ++ rebuilt stream edit.range.stop edits).length =
            edit.range.stop := by
        rw [List.length_append, stopLength]
        omega
      have startEq : min edit.range.start edit.range.stop = edit.range.start := by omega
      have kept : (stream.take edit.range.stop ++ rebuilt stream edit.range.stop edits).drop
          edit.range.stop = rebuilt stream edit.range.stop edits := by
        rw [List.drop_append_of_le_length (by omega), List.drop_eq_nil_of_le (by omega),
          List.nil_append]
      have prefixes : (stream.take edit.range.stop ++
          rebuilt stream edit.range.stop edits).take edit.range.start =
            stream.take start ++ stream.slice ⟨start, edit.range.start⟩ := by
        rw [List.take_append_of_le_length (by omega), List.take_take, startEq,
          TokenStream.take_append_slice _ first]
      simp only [stopEq, startEq, kept, prefixes, List.append_assoc]

theorem InOrder.sorted_eq {edits : List Edit} {stream : TokenStream}
    (inOrder : InOrder edits stream) : sorted edits = edits := by
  apply List.mergeSort_of_pairwise
  apply List.Pairwise.imp_of_mem _ inOrder.apart
  intro left right inLeft inRight order
  have first := inOrder.proper left inLeft
  have second := inOrder.proper right inRight
  rw [comesBefore_iff]
  omega

theorem InOrder.conflict?_eq_none {edits : List Edit} {stream : TokenStream}
    (inOrder : InOrder edits stream) : conflict? edits = none := by
  have proper : ∀ edit ∈ edits, edit.range.start ≤ edit.range.stop :=
    fun edit member => (inOrder.proper edit member).1
  exact (conflict?_eq_none_iff proper).mpr (clear_of_apart proper inOrder.apart)

theorem applyAll_eq_rebuilt {edits : List Edit} {stream : TokenStream}
    (inOrder : InOrder (sorted edits) stream) (none : conflict? edits = none) :
    applyAll edits stream = .ok (rebuilt stream 0 (sorted edits)) := by
  have spliced := foldr_splice_eq inOrder fun edit _ => Nat.zero_le edit.range.start
  rw [List.take_zero, List.nil_append] at spliced
  rw [applyAll, none]
  exact congrArg Except.ok spliced

theorem applyAll_eq_ok {edits : List Edit} {stream : TokenStream}
    (inOrder : InOrder edits stream) : applyAll edits stream = .ok (rebuilt stream 0 edits) := by
  have sortedOrder : InOrder (sorted edits) stream := by rwa [inOrder.sorted_eq]
  rw [applyAll_eq_rebuilt sortedOrder inOrder.conflict?_eq_none, inOrder.sorted_eq]

theorem mem_of_mem_rebuilt {edits : List Edit} {stream : TokenStream} {start : Nat} {token : Token}
    (member : token ∈ rebuilt stream start edits) :
    token ∈ stream ∨ ∃ edit ∈ edits, token ∈ edit.replacement := by
  induction edits generalizing start with
  | nil => exact .inl (List.mem_of_mem_drop member)
  | cons edit edits ih =>
      rw [rebuilt, List.append_assoc, List.mem_append, List.mem_append] at member
      rcases member with kept | new | later
      · rw [TokenStream.slice] at kept
        exact .inl (List.mem_of_mem_take (List.mem_of_mem_drop kept))
      · exact .inr ⟨edit, by simp, new⟩
      · rcases ih later with kept | ⟨other, inEdits, new⟩
        · exact .inl kept
        · exact .inr ⟨other, by simp [inEdits], new⟩

/-- Edits that replace tokens that close what they open by other such tokens do not change the
depth of what lies behind them. -/
theorem openBehind_rebuilt {edits : List Edit} {stream : TokenStream} {start : Nat}
    (inOrder : InOrder edits stream) (behind : ∀ edit ∈ edits, start ≤ edit.range.start)
    (level : ∀ edit ∈ edits, Level (stream.slice edit.range) ∧ Level edit.replacement)
    (depth : Nat) : openBehind depth (rebuilt stream start edits) =
      openBehind depth (stream.drop start) := by
  induction edits generalizing start depth with
  | nil => rfl
  | cons edit edits ih =>
      obtain ⟨removed, inserted⟩ := level edit (by simp)
      obtain ⟨ordered, bound⟩ := inOrder.proper edit (by simp)
      have first := behind edit (by simp)
      have later (depth : Nat) := ih inOrder.tail (List.pairwise_cons.mp inOrder.apart).1
        (fun other member => level other (List.mem_cons_of_mem _ member)) depth
      rw [rebuilt, stream.drop_eq_slices first ordered bound, List.append_assoc, openBehind_append,
        openBehind_append]
      congr 1
      funext between
      rw [openBehind_append, openBehind_append, removed.openBehind, inserted.openBehind,
        Option.bind_some, Option.bind_some, later]

theorem level_rebuilt {edits : List Edit} {stream : TokenStream} (inOrder : InOrder edits stream)
    (level : ∀ edit ∈ edits, Level (stream.slice edit.range) ∧ Level edit.replacement)
    (whole : Level stream) : Level (rebuilt stream 0 edits) := by
  rw [Level, openBehind_rebuilt inOrder (fun edit _ => Nat.zero_le edit.range.start) level,
    List.drop_zero]
  exact whole

/-- Tokens in front of all edits stay. -/
theorem rebuilt_from {edits : List Edit} {stream : TokenStream} {start limit : Nat}
    (ordered : start ≤ limit) (behind : ∀ edit ∈ edits, limit ≤ edit.range.start)
    (inside : limit ≤ stream.length) :
    rebuilt stream start edits = stream.slice ⟨start, limit⟩ ++ rebuilt stream limit edits := by
  cases edits with
  | nil =>
      rw [rebuilt, rebuilt, ← TokenStream.slice_to_end, ← TokenStream.slice_to_end,
        stream.slice_append_slice ordered inside]
  | cons edit edits =>
      have first := behind edit (by simp)
      rw [rebuilt, rebuilt, ← stream.slice_append_slice ordered first]
      simp only [List.append_assoc]

/-- Edits in front of a place and edits behind it have nothing to do with each other. -/
theorem rebuilt_append {front later : List Edit} {stream : TokenStream} {start limit : Nat}
    (inOrder : InOrder front stream) (ordered : start ≤ limit)
    (before : ∀ edit ∈ front, edit.range.stop ≤ limit)
    (behind : ∀ edit ∈ later, limit ≤ edit.range.start) (inside : limit ≤ stream.length) :
    rebuilt stream start (front ++ later) =
      rebuilt (stream.take limit) start front ++ rebuilt stream limit later := by
  induction front generalizing start with
  | nil =>
      rw [List.nil_append, rebuilt_from ordered behind inside]
      rfl
  | cons edit front ih =>
      have proper := (inOrder.proper edit (by simp)).1
      have bound := before edit (by simp)
      have further := ih inOrder.tail bound
        fun other member => before other (List.mem_cons_of_mem _ member)
      have kept : TokenStream.slice (stream.take limit) ⟨start, edit.range.start⟩ =
          stream.slice ⟨start, edit.range.start⟩ := by
        rw [TokenStream.slice, List.take_take, Nat.min_eq_left (Nat.le_trans proper bound),
          TokenStream.slice]
      rw [List.cons_append, rebuilt, rebuilt, further, kept]
      simp only [List.append_assoc]

/-- The index that a token has after a batch of edits that does not take it away. -/
def placeAfter (stream : TokenStream) (edits : List Edit) (index : Nat) : Nat :=
  (rebuilt (stream.take index) 0 (edits.takeWhile (·.range.stop ≤ index))).length

/-- No edit touches the tokens from `range.start` through `range.stop`. -/
def Spare (edits : List Edit) (range : IndexRange) : Prop :=
  ∀ edit ∈ edits, edit.range.stop ≤ range.start ∨ range.stop < edit.range.start

section Places

variable {stream : TokenStream} {edits front later : List Edit} {start stop : Nat}

theorem InOrder.exists_append (inOrder : InOrder edits stream) (spare : Spare edits ⟨start, stop⟩) :
    ∃ front later, edits = front ++ later ∧ (∀ edit ∈ front, edit.range.stop ≤ start) ∧
      ∀ edit ∈ later, stop < edit.range.start ∧ stop < edit.range.stop := by
  induction edits with
  | nil => exact ⟨[], [], rfl, by simp, by simp⟩
  | cons edit edits ih =>
      rcases spare edit (by simp) with before | behind
      · obtain ⟨front, later, rfl, inFront, inLater⟩ :=
          ih inOrder.tail fun other member => spare other (List.mem_cons_of_mem _ member)
        exact ⟨edit :: front, later, rfl, List.forall_mem_cons.mpr ⟨before, inFront⟩, inLater⟩
      · refine ⟨[], edit :: edits, rfl, by simp, ?_⟩
        have proper := (inOrder.proper edit (by simp)).1
        simp only at behind
        refine List.forall_mem_cons.mpr ⟨by omega, ?_⟩
        intro other member
        have apart := (List.pairwise_cons.mp inOrder.apart).1 other member
        have otherProper := (inOrder.proper other (List.mem_cons_of_mem _ member)).1
        omega

theorem InOrder.of_append (inOrder : InOrder (front ++ later) stream) :
    InOrder front stream ∧ InOrder later stream :=
  ⟨⟨(List.pairwise_append.mp inOrder.apart).1,
      fun edit member => inOrder.proper edit (List.mem_append_left _ member)⟩,
    ⟨(List.pairwise_append.mp inOrder.apart).2.1,
      fun edit member => inOrder.proper edit (List.mem_append_right _ member)⟩⟩

theorem InOrder.take (inOrder : InOrder edits stream)
    (before : ∀ edit ∈ edits, edit.range.stop ≤ stop) : InOrder edits (stream.take stop) := by
  refine ⟨inOrder.apart, ?_⟩
  intro edit member
  obtain ⟨ordered, inside⟩ := inOrder.proper edit member
  rw [List.length_take]
  exact ⟨ordered, Nat.le_min.mpr ⟨before edit member, inside⟩⟩

theorem placeAfter_append (before : ∀ edit ∈ front, edit.range.stop ≤ start)
    (behind : ∀ edit ∈ later, start < edit.range.stop) :
    placeAfter stream (front ++ later) start = (rebuilt (stream.take start) 0 front).length := by
  have untaken : later.takeWhile (·.range.stop ≤ start) = [] := by
    cases later with
    | nil => rfl
    | cons edit later =>
        have fails : decide (edit.range.stop ≤ start) = false :=
          decide_eq_false (Nat.not_le.mpr (behind edit (by simp)))
        rw [List.takeWhile_cons, fails]
        rfl
  have taken : (front ++ later).takeWhile (·.range.stop ≤ start) = front := by
    rw [List.takeWhile_append_of_pos (fun edit member => by simpa using before edit member), untaken,
      List.append_nil]
  rw [placeAfter, taken]

/-- Tokens that no edit touches stay together. -/
theorem rebuilt_spare (inOrder : InOrder edits stream) (spare : Spare edits ⟨start, stop⟩)
    (ordered : start ≤ stop) (inside : stop ≤ stream.length) :
    ∃ front later, (∀ edit ∈ later, edit ∈ edits ∧ stop < edit.range.stop) ∧
      rebuilt stream 0 edits =
        front ++ (stream.slice ⟨start, stop⟩ ++ rebuilt stream stop later) ∧
      placeAfter stream edits start = front.length ∧
      placeAfter stream edits stop = front.length + (stop - start) := by
  obtain ⟨front, later, rfl, before, behind⟩ := inOrder.exists_append spare
  have frontInOrder := inOrder.of_append.1
  have startBehind : ∀ edit ∈ later, start < edit.range.stop :=
    fun edit member => Nat.lt_of_le_of_lt ordered (behind edit member).2
  have beforeStop : ∀ edit ∈ front, edit.range.stop ≤ stop :=
    fun edit member => Nat.le_trans (before edit member) ordered
  have shortTake : (stream.take stop).take start = stream.take start := by
    rw [List.take_take, Nat.min_eq_left ordered]
  have lengthTake := List.length_take_of_le inside
  refine ⟨rebuilt (stream.take start) 0 front, later,
    fun edit member => ⟨List.mem_append_right _ member, (behind edit member).2⟩, ?_,
    placeAfter_append before startBehind, ?_⟩
  · have behindStop : ∀ edit ∈ later, stop ≤ edit.range.start :=
      fun edit member => Nat.le_of_lt (behind edit member).1
    rw [rebuilt_append frontInOrder (Nat.zero_le _) before
      (fun edit member => Nat.le_trans ordered (behindStop edit member)) (by omega),
      rebuilt_from ordered behindStop inside]
  · have alone := rebuilt_append (frontInOrder.take beforeStop) (Nat.zero_le start) before
      (fun edit (member : edit ∈ []) => absurd member (by simp)) (by omega)
    rw [List.append_nil, shortTake, rebuilt] at alone
    rw [placeAfter_append beforeStop (fun edit member => (behind edit member).2), alone,
      List.length_append, List.length_drop, lengthTake]

/-- Tokens that no edit takes away keep their order. -/
theorem placeAfter_lt (inOrder : InOrder edits stream) (spare : Spare edits ⟨start, start⟩)
    (ordered : start < stop) (inside : stop ≤ stream.length) :
    placeAfter stream edits start < placeAfter stream edits stop := by
  obtain ⟨front, later, rfl, before, behind⟩ := inOrder.exists_append spare
  have beforeStop : ∀ edit ∈ front, edit.range.stop ≤ stop :=
    fun edit member => Nat.le_trans (before edit member) (Nat.le_of_lt ordered)
  have behindTaken : ∀ edit ∈ later.takeWhile (·.range.stop ≤ stop), start + 1 ≤ edit.range.start :=
    fun edit member => (behind edit ((List.takeWhile_sublist _).subset member)).1
  have lengthTake := List.length_take_of_le inside
  have shortTake : (stream.take stop).take start = stream.take start := by
    rw [List.take_take, Nat.min_eq_left (Nat.le_of_lt ordered)]
  have cut := rebuilt_append (inOrder.of_append.1.take beforeStop) (Nat.zero_le start) before
    (fun edit member => Nat.le_of_lt (behindTaken edit member)) (by omega)
  have kept := @rebuilt_from (later.takeWhile (·.range.stop ≤ stop)) (stream.take stop) start
    (start + 1) (Nat.le_succ start) behindTaken (by omega)
  rw [placeAfter_append before (fun edit member => (behind edit member).2), placeAfter,
    List.takeWhile_append_of_pos (fun edit member => by simpa using beforeStop edit member), cut,
    shortTake, kept, List.length_append, List.length_append, TokenStream.length_slice]
  simp only
  omega

/-- A replacement stands where the first token that it replaces would go. -/
theorem rebuilt_of_mem {edit : Edit} (inOrder : InOrder edits stream) (member : edit ∈ edits)
    (nonempty : edit.range.start < edit.range.stop) :
    ∃ front later, rebuilt stream 0 edits = front ++ (edit.replacement ++ later) ∧
      placeAfter stream edits edit.range.start = front.length := by
  obtain ⟨earlier, later, rfl⟩ := List.append_of_mem member
  obtain ⟨ordered, inside⟩ := inOrder.proper edit member
  obtain ⟨_, apartLater, apart⟩ := List.pairwise_append.mp inOrder.apart
  have before : ∀ other ∈ earlier, other.range.stop ≤ edit.range.start :=
    fun other inEarlier => apart other inEarlier edit (by simp)
  have behind : ∀ other ∈ later, edit.range.stop ≤ other.range.start :=
    (List.pairwise_cons.mp apartLater).1
  refine ⟨rebuilt (stream.take edit.range.start) 0 earlier, rebuilt stream edit.range.stop later,
    ?_, placeAfter_append before ?_⟩
  · rw [rebuilt_append inOrder.of_append.1 (Nat.zero_le _) before
      (List.forall_mem_cons.mpr ⟨Nat.le_refl _, fun other inLater =>
        Nat.le_trans ordered (behind other inLater)⟩) (by omega), rebuilt]
    rw [TokenStream.slice_eq_nil (.inl (Nat.le_refl _)), List.nil_append]
  · refine List.forall_mem_cons.mpr ⟨nonempty, fun other inLater => ?_⟩
    have laterProper := (inOrder.proper other (by simp [inLater])).1
    have first := behind other inLater
    omega

end Places

/-- What edits make of the tokens from an index on, part by part. -/
inductive Rewrites : Nat → List Token → List Edit → List Token → Prop where
  | keep (start : Nat) (tokens : List Token) : Rewrites start tokens [] tokens
  | replace {edits : List Edit} {rest result : List Token} (start : Nat)
      (kept removed new : List Token)
      (later : Rewrites (start + kept.length + removed.length) rest edits result) :
      Rewrites start (kept ++ (removed ++ rest))
        (⟨⟨start + kept.length, start + kept.length + removed.length⟩, new⟩ :: edits)
        (kept ++ (new ++ result))

namespace Rewrites

theorem prepend {start behind : Nat} {tokens result : List Token} {edits : List Edit}
    (rewrites : Rewrites behind tokens edits result) (front : List Token)
    (place : start + front.length = behind) :
    Rewrites start (front ++ tokens) edits (front ++ result) := by
  cases rewrites with
  | keep => exact .keep start (front ++ tokens)
  | replace _ kept removed new later =>
      have shifted : behind + kept.length = start + (front ++ kept).length := by
        rw [List.length_append]
        omega
      rw [shifted] at later ⊢
      have whole := Rewrites.replace start (front ++ kept) removed new later
      rwa [List.append_assoc, List.append_assoc] at whole

theorem append {start behind : Nat} {tokens result others otherResult : List Token}
    {edits otherEdits : List Edit} (first : Rewrites start tokens edits result)
    (second : Rewrites behind others otherEdits otherResult)
    (place : start + tokens.length = behind) :
    Rewrites start (tokens ++ others) (edits ++ otherEdits) (result ++ otherResult) := by
  induction first with
  | keep start tokens => exact second.prepend tokens place
  | replace start kept removed new later ih =>
      rw [List.append_assoc, List.append_assoc, List.append_assoc, List.append_assoc]
      refine .replace start kept removed new (ih ?_)
      simp only [List.length_append] at place
      omega

theorem extend {start : Nat} {tokens result : List Token} {edits : List Edit}
    (rewrites : Rewrites start tokens edits result) (rest : List Token) :
    Rewrites start (tokens ++ rest) edits (result ++ rest) := by
  have extended := rewrites.append (.keep _ rest) rfl
  rwa [List.append_nil] at extended

theorem single (start : Nat) (kept removed new rest : List Token) :
    Rewrites start (kept ++ (removed ++ rest))
      [⟨⟨start + kept.length, start + kept.length + removed.length⟩, new⟩] (kept ++ (new ++ rest)) :=
  .replace start kept removed new (.keep _ rest)

theorem insertion (start : Nat) (kept new rest : List Token) :
    Rewrites start (kept ++ rest) [Edit.insertion (start + kept.length) new]
      (kept ++ (new ++ rest)) :=
  single start kept [] new rest

theorem inOrder {stream : TokenStream} {start : Nat} {tokens result : List Token}
    {edits : List Edit} (rewrites : Rewrites start tokens edits result)
    (cut : stream.drop start = tokens) (inside : start ≤ stream.length) :
    InOrder edits stream ∧ (∀ edit ∈ edits, start ≤ edit.range.start) ∧
      rebuilt stream start edits = result := by
  induction rewrites with
  | keep start tokens => exact ⟨⟨List.Pairwise.nil, by simp⟩, by simp, cut⟩
  | @replace edits rest result start kept removed new later ih =>
      have size := congrArg List.length cut
      simp only [List.length_drop, List.length_append] at size
      have behind : stream.drop (start + kept.length + removed.length) = rest := by
        rw [← List.drop_drop, TokenStream.drop_of_drop_eq cut, List.drop_left]
      obtain ⟨laterInOrder, laterBehind, laterResult⟩ := ih behind (by omega)
      have keptSlice := TokenStream.slice_of_drop_eq cut rfl
      refine ⟨⟨List.pairwise_cons.mpr ⟨laterBehind, laterInOrder.apart⟩, ?_⟩, ?_, ?_⟩
      · intro edit member
        rcases List.mem_cons.mp member with rfl | inLater
        · exact ⟨by simp, by simp only; omega⟩
        · exact laterInOrder.proper edit inLater
      · intro edit member
        rcases List.mem_cons.mp member with rfl | inLater
        · simp
        · have bound := laterBehind edit inLater
          omega
      · rw [rebuilt, keptSlice, laterResult, List.append_assoc]

theorem stop_le {start : Nat} {tokens result : List Token} {edits : List Edit}
    (rewrites : Rewrites start tokens edits result) :
    ∀ edit ∈ edits, edit.range.stop ≤ start + tokens.length := by
  induction rewrites with
  | keep => simp
  | replace start kept removed new later ih =>
      simp only [List.length_append] at ih ⊢
      refine List.forall_mem_cons.mpr ⟨by simp only; omega, fun edit member => ?_⟩
      have bound := ih edit member
      omega

/-- Tokens behind the rewritten ones keep their distance to them. -/
theorem placeAfter_eq {tokens result rest : List Token} {edits later : List Edit} {offset : Nat}
    (rewrites : Rewrites 0 tokens edits result)
    (behind : ∀ edit ∈ later, tokens.length + offset < edit.range.stop)
    (inside : offset ≤ rest.length) :
    placeAfter (tokens ++ rest) (edits ++ later) (tokens.length + offset) =
      result.length + offset := by
  have before : ∀ edit ∈ edits, edit.range.stop ≤ tokens.length + offset := by
    intro edit member
    have bound := rewrites.stop_le edit member
    omega
  have shortened : (tokens ++ rest).take (tokens.length + offset) = tokens ++ rest.take offset := by
    rw [List.take_append, List.take_of_length_le (by omega), Nat.add_sub_cancel_left]
  obtain ⟨_, _, whole⟩ :=
    (rewrites.extend (rest.take offset)).inOrder List.drop_zero (Nat.zero_le _)
  rw [Edit.placeAfter_append before behind, shortened, whole, List.length_append,
    List.length_take_of_le inside]

theorem applyAll {stream : TokenStream} {result : List Token} {edits : List Edit}
    (rewrites : Rewrites 0 stream edits result) : Edit.applyAll edits stream = .ok result := by
  obtain ⟨inOrder, _, rebuiltEq⟩ := rewrites.inOrder List.drop_zero (Nat.zero_le _)
  rw [applyAll_eq_ok inOrder, rebuiltEq]

end Rewrites

end Edit

end ConstructorInjection
