import Mathlib.Data.List.Basic
import Mathlib.Data.Nat.Init
import Mathlib.Tactic.Common
import ConstructorInjection.Proofs.ArgumentCalls

/-!
The items of a list between delimiters. The commas of the list itself, whose innermost delimiters are
those of the list, cut it into sections, and the items are the sections that hold more than blanks and
comments.
-/

namespace ConstructorInjection

namespace TokenStream

/-- A comma whose innermost delimiters are the given ones. -/
structure Separates (stream : TokenStream) (opening closing index : Nat) : Prop where
  comma : stream.hasKind .comma index = true
  enclosed : stream.EnclosedBy opening closing index

/-- A place where a section starts: behind the opener or behind a separating comma. -/
def StartsSection (stream : TokenStream) (opening closing start : Nat) : Prop :=
  start = opening + 1 ∨ ∃ comma, stream.Separates opening closing comma ∧ start = comma + 1

/-- A place where a section stops: the closer or a separating comma. -/
def StopsSection (stream : TokenStream) (opening closing stop : Nat) : Prop :=
  stop = closing ∨ stream.Separates opening closing stop

/-- A range from one separating comma, or the opener, to the next one, or the closer. -/
structure IsSection (stream : TokenStream) (opening closing : Nat) (range : IndexRange) : Prop where
  starts : stream.StartsSection opening closing range.start
  stops : stream.StopsSection opening closing range.stop
  ordered : range.start ≤ range.stop
  uncut : ∀ index, range.start ≤ index → index < range.stop →
    ¬ stream.Separates opening closing index

section Delimited

variable {stream : TokenStream} {opening closing : Nat}

theorem StartsSection.behind {start : Nat} (starts : stream.StartsSection opening closing start) :
    opening < start := by
  rcases starts with rfl | ⟨comma, separates, rfl⟩
  · exact Nat.lt_succ_self opening
  · exact Nat.lt_succ_of_lt separates.enclosed.behind

theorem StopsSection.le {stop : Nat} (stops : stream.StopsSection opening closing stop) :
    stop ≤ closing := by
  rcases stops with rfl | separates
  · exact Nat.le_refl _
  · exact Nat.le_of_lt separates.enclosed.before

/-- Counting depth tells which commas are the list's own. -/
theorem separates_iff_depth (nested : Nested stream) (partners : stream.Partners opening closing)
    {index depth : Nat} {token : Token} (behind : opening < index) (before : index < closing)
    (found : stream[index]? = some token)
    (opened : openBehind 0 (stream.slice ⟨opening + 1, index⟩) = some depth) :
    stream.Separates opening closing index ↔ token.kind = .comma ∧ depth = 0 := by
  have comma_iff : stream.hasKind .comma index = true ↔ token.kind = .comma := by
    simp [hasKind_iff, found]
  have level_iff : Level (stream.slice ⟨opening + 1, index⟩) ↔ depth = 0 := by
    rw [Level, opened, Option.some.injEq]
  have enclosed_iff (isComma : token.kind = .comma) :
      stream.EnclosedBy opening closing index ↔ depth = 0 := by
    rw [enclosedBy_iff_level nested partners behind before ?_, level_iff]
    rw [Passes, found, Option.any_some, isComma]
    decide
  constructor
  · rintro ⟨comma, enclosed⟩
    have isComma := comma_iff.mp comma
    exact ⟨isComma, (enclosed_iff isComma).mp enclosed⟩
  · rintro ⟨isComma, outside⟩
    exact ⟨comma_iff.mpr isComma, (enclosed_iff isComma).mpr outside⟩

theorem openBehind_slice_succ {start index depth : Nat} {token : Token} (ordered : start ≤ index)
    (found : stream[index]? = some token)
    (opened : openBehind 0 (stream.slice ⟨start, index⟩) = some depth) :
    openBehind 0 (stream.slice ⟨start, index + 1⟩) = openBehind depth [token] := by
  rw [slice_succ ordered found, openBehind_append, opened, Option.bind_some]

/-- A section does not stop inside another one that starts with it. -/
theorem IsSection.stop_le {first second : IndexRange}
    (isFirst : stream.IsSection opening closing first)
    (isSecond : stream.IsSection opening closing second) (same : second.start = first.start) :
    first.stop ≤ second.stop := by
  rcases isSecond.stops with last | separates
  · rw [last]
    exact isFirst.stops.le
  · by_contra early
    have ordered := isSecond.ordered
    exact isFirst.uncut second.stop (by omega) (by omega) separates

/-- No section starts inside another one. -/
theorem IsSection.eq_of_start_le {first second : IndexRange}
    (isFirst : stream.IsSection opening closing first)
    (isSecond : stream.IsSection opening closing second) (lower : first.start ≤ second.start)
    (upper : second.start ≤ first.stop) : second = first := by
  have same : second.start = first.start := by
    rcases isSecond.starts with front | ⟨comma, separates, next⟩
    · have behind := isFirst.starts.behind
      omega
    · by_contra further
      exact isFirst.uncut comma (by omega) (by omega) separates
  have stops := Nat.le_antisymm (isSecond.stop_le isFirst same.symm) (isFirst.stop_le isSecond same)
  exact congrArg₂ IndexRange.mk same stops

/-- The scan that stands at `index`, in a section that started at `start`, still has before it the
sections from `start` on. -/
theorem mem_splitFrom_iff (nested : Nested stream) (partners : stream.Partners opening closing)
    {start index depth : Nat} {tokens : List Token} {item : IndexRange}
    (rest : stream.slice ⟨index, closing⟩ = tokens) (bound : index ≤ closing)
    (opened : openBehind 0 (stream.slice ⟨opening + 1, index⟩) = some depth)
    (starts : stream.StartsSection opening closing start) (ordered : start ≤ index)
    (uncut : ∀ earlier, start ≤ earlier → earlier < index →
      ¬ stream.Separates opening closing earlier) :
    item ∈ splitFrom start index depth tokens ↔
      stream.IsSection opening closing item ∧ start ≤ item.start := by
  have inside := lt_length_of_matchingClose?
    ((matchingClose?_eq_some_iff_partners nested).mpr partners)
  induction tokens generalizing start index depth with
  | nil =>
      have size := congrArg List.length rest
      rw [length_slice] at size
      simp only [List.length_nil] at size
      have atEnd : index = closing := by omega
      subst atEnd
      have isLast : stream.IsSection opening index ⟨start, index⟩ :=
        ⟨starts, .inl rfl, ordered, uncut⟩
      rw [splitFrom, List.mem_singleton]
      constructor
      · rintro rfl
        exact ⟨isLast, Nat.le_refl _⟩
      · rintro ⟨isSection, lower⟩
        exact isLast.eq_of_start_le isSection lower
          (Nat.le_trans isSection.ordered isSection.stops.le)
  | cons token tokens ih =>
      obtain ⟨before, found, later⟩ := parts_of_slice_eq_cons rest
      have behind := Nat.lt_of_lt_of_le starts.behind ordered
      obtain ⟨next, openedToken, _⟩ :
          ∃ next, openBehind depth [token] = some next ∧ openBehind next tokens = some 0 := by
        have level := partners.between.level
        rw [← stream.slice_append_slice behind bound, rest, Level, openBehind_append, opened] at level
        exact openBehind_parts level
      have openedNext : openBehind 0 (stream.slice ⟨opening + 1, index + 1⟩) = some next := by
        rw [openBehind_slice_succ behind found opened, openedToken]
      have separates_iff := separates_iff_depth nested partners behind before found opened
      by_cases separates : stream.Separates opening closing index
      · -- the section stops here, and the next one starts behind the comma
        obtain ⟨isComma, rfl⟩ := separates_iff.mp separates
        have plain : Level [token] := by
          apply Level.plain <;> rw [isComma] <;> rfl
        rw [plain, Option.some.injEq] at openedToken
        subst openedToken
        have isNext : stream.IsSection opening closing ⟨start, index⟩ :=
          ⟨starts, .inr separates, ordered, uncut⟩
        have others : item ∈ splitFrom (index + 1) (index + 1) 0 tokens ↔
            stream.IsSection opening closing item ∧ index + 1 ≤ item.start :=
          ih later before openedNext (.inr ⟨index, separates, rfl⟩) (Nat.le_refl _) (by omega)
        have split := @splitFrom_append_comma start index 0 [] tokens token isComma rfl
        rw [List.nil_append, splitFrom, List.length_nil, Nat.add_zero] at split
        rw [split, List.singleton_append, List.mem_cons, others]
        constructor
        · rintro (rfl | ⟨isSection, lower⟩)
          · exact ⟨isNext, Nat.le_refl _⟩
          · exact ⟨isSection, by omega⟩
        · rintro ⟨isSection, lower⟩
          by_cases behindComma : index < item.start
          · exact .inr ⟨isSection, behindComma⟩
          · exact .inl (isNext.eq_of_start_le isSection lower (Nat.le_of_not_lt behindComma))
      · -- the scan goes on in its section
        have uncutToken : Uncut depth [token] := by
          refine uncut_cons.mpr ⟨fun isComma outside => ?_, fun _ _ _ _ _ none => ?_⟩
          · exact separates (separates_iff.mpr ⟨isComma, outside⟩)
          · simp at none
        have split := @splitFrom_append_uncut start index _ _ _ uncutToken openedToken tokens
        rw [List.singleton_append] at split
        rw [split]
        refine ih later before openedNext starts (Nat.le_succ_of_le ordered) ?_
        intro earlier lower upper
        rcases Nat.lt_or_eq_of_le (Nat.le_of_lt_succ upper) with earlier | rfl
        · exact uncut _ lower earlier
        · exact separates

theorem exists_start (stream : TokenStream) (opening closing : Nat) {index : Nat}
    (behind : opening < index) :
    ∃ start, stream.StartsSection opening closing start ∧ start ≤ index ∧
      ∀ earlier, start ≤ earlier → earlier < index →
        ¬ stream.Separates opening closing earlier := by
  induction index, behind using Nat.le_induction with
  | base => exact ⟨opening + 1, .inl rfl, Nat.le_refl _, by omega⟩
  | succ index _ ih =>
      by_cases separates : stream.Separates opening closing index
      · exact ⟨index + 1, .inr ⟨index, separates, rfl⟩, Nat.le_refl _, by omega⟩
      · obtain ⟨start, starts, ordered, uncut⟩ := ih
        refine ⟨start, starts, Nat.le_succ_of_le ordered, fun earlier lower upper => ?_⟩
        rcases Nat.lt_or_eq_of_le (Nat.le_of_lt_succ upper) with before | rfl
        · exact uncut earlier lower before
        · exact separates

theorem exists_stop (stream : TokenStream) (opening : Nat) {closing index : Nat}
    (before : index ≤ closing) :
    ∃ stop, stream.StopsSection opening closing stop ∧ index ≤ stop ∧
      ∀ later, index ≤ later → later < stop → ¬ stream.Separates opening closing later := by
  induction before using Nat.decreasingInduction with
  | self => exact ⟨closing, .inl rfl, Nat.le_refl _, by omega⟩
  | of_succ index _ ih =>
      by_cases separates : stream.Separates opening closing index
      · exact ⟨index, .inr separates, Nat.le_refl _, by omega⟩
      · obtain ⟨stop, stops, ordered, uncut⟩ := ih
        refine ⟨stop, stops, Nat.le_of_succ_le ordered, fun later lower upper => ?_⟩
        rcases Nat.lt_or_eq_of_le lower with further | rfl
        · exact uncut later further upper
        · exact separates

/-- What does not separate lies in a section. -/
theorem exists_section_around {index : Nat} (behind : opening < index) (before : index < closing)
    (noCut : ¬ stream.Separates opening closing index) :
    ∃ range, stream.IsSection opening closing range ∧ range.start ≤ index ∧ index < range.stop := by
  obtain ⟨start, starts, lower, uncutBefore⟩ := stream.exists_start opening closing behind
  obtain ⟨stop, stops, upper, uncutBehind⟩ := stream.exists_stop opening before
  refine ⟨⟨start, stop⟩, ⟨starts, stops, by simp only; omega, ?_⟩, lower, upper⟩
  intro place first last
  rcases Nat.lt_trichotomy place index with earlier | rfl | later
  · exact uncutBefore place first earlier
  · exact noCut
  · exact uncutBehind place later last

theorem isSignificant_iff {range : IndexRange} :
    stream.isSignificant range = true ↔ ∃ index token, range.start ≤ index ∧ index < range.stop ∧
      stream[index]? = some token ∧ token.isTrivia = false := by
  rw [isSignificant, List.any_eq_true]
  constructor
  · rintro ⟨token, member, significant⟩
    obtain ⟨index, lower, upper, found⟩ := mem_slice_iff.mp member
    exact ⟨index, token, lower, upper, found, by simpa using significant⟩
  · rintro ⟨index, token, lower, upper, found, significant⟩
    exact ⟨token, mem_slice_iff.mpr ⟨index, lower, upper, found⟩, by simpa using significant⟩

/-- The items are the sections that are not blank. -/
theorem mem_splitTopLevel_iff (nested : Nested stream) (partners : stream.Partners opening closing)
    {item : IndexRange} :
    item ∈ stream.splitTopLevel ⟨opening + 1, closing⟩ ↔
      stream.IsSection opening closing item ∧ stream.isSignificant item = true := by
  have opened : openBehind 0 (stream.slice ⟨opening + 1, opening + 1⟩) = some 0 := by
    rw [slice_eq_nil (.inl (Nat.le_refl _))]
    rfl
  rw [splitTopLevel, List.mem_filter, mem_splitFrom_iff nested partners rfl partners.ordered opened
    (.inl rfl) (Nat.le_refl _) (by omega)]
  constructor
  · rintro ⟨⟨isSection, _⟩, significant⟩
    exact ⟨isSection, significant⟩
  · rintro ⟨isSection, significant⟩
    exact ⟨⟨isSection, isSection.starts.behind⟩, significant⟩

end Delimited

/-- The items between two partners are, in their order, the sections between the commas whose
innermost delimiters the partners are, without the sections that are empty or hold only blanks and
comments. The items are apart, no separating comma lies in one, and what lies neither in an item nor
is a separating comma lies in a section of blanks and comments. -/
theorem splitTopLevel_sections {source : Text} {stream : TokenStream} {opening closing : Nat}
    (lexed : tokenize source = .ok stream) (partners : stream.Partners opening closing) :
    (∀ item, item ∈ stream.splitTopLevel ⟨opening + 1, closing⟩ ↔
      stream.IsSection opening closing item ∧ ∃ index token, item.start ≤ index ∧
        index < item.stop ∧ stream[index]? = some token ∧ token.isTrivia = false) ∧
    (stream.splitTopLevel ⟨opening + 1, closing⟩).Pairwise
      (fun left right => left.stop < right.start) ∧
    (∀ item ∈ stream.splitTopLevel ⟨opening + 1, closing⟩,
      opening < item.start ∧ item.stop ≤ closing ∧ ∀ index, item.start ≤ index →
        index < item.stop → ¬ stream.Separates opening closing index) ∧
    ∀ index, opening < index → index < closing →
      stream.Separates opening closing index ∨
      (∃ item ∈ stream.splitTopLevel ⟨opening + 1, closing⟩,
        item.start ≤ index ∧ index < item.stop) ∨
      ∃ range, stream.IsSection opening closing range ∧ (range.start ≤ index ∧ index < range.stop) ∧
        ∀ place token, range.start ≤ place → place < range.stop → stream[place]? = some token →
          token.isTrivia = true := by
  have nested := nested_of_tokenize lexed
  have member_iff (item : IndexRange) :=
    @mem_splitTopLevel_iff stream opening closing nested partners item
  refine ⟨fun item => ?_, (pairwise_splitFrom (Nat.le_refl _)).filter _, fun item member => ?_, ?_⟩
  · rw [member_iff, isSignificant_iff]
  · have isSection := ((member_iff item).mp member).1
    exact ⟨isSection.starts.behind, isSection.stops.le, isSection.uncut⟩
  · intro index behind before
    by_cases separates : stream.Separates opening closing index
    · exact .inl separates
    · obtain ⟨range, isSection, around⟩ := exists_section_around behind before separates
      by_cases significant : stream.isSignificant range = true
      · exact .inr (.inl ⟨range, (member_iff range).mpr ⟨isSection, significant⟩, around⟩)
      · refine .inr (.inr ⟨range, isSection, around, fun place token lower upper found => ?_⟩)
        by_contra notTrivia
        rw [isSignificant_iff] at significant
        exact significant ⟨place, token, lower, upper, found, by simpa using notTrivia⟩

/-- An attribute, an array and a closure with commas of their own, sections without an item, and a
comma behind the last item. -/
def commasInArguments : Text :=
  "<?php f(#[A(1, 2)] fn($x, $y) => [$x, 3], , /* none */, function() \x7bg(4, 5);\x7d , );"

theorem splitTopLevel_sections_commasInArguments : ∃ stream : TokenStream,
    tokenize commasInArguments = .ok stream ∧ stream.hasKind .openParen 2 = true ∧
      stream.Partners 2 53 ∧ stream.splitTopLevel ⟨3, 53⟩ = [⟨3, 29⟩, ⟨35, 51⟩] ∧
      stream.IsSection 2 53 ⟨3, 29⟩ ∧ stream.IsSection 2 53 ⟨35, 51⟩ ∧
      stream.hasKind .comma 44 = true ∧ ¬ stream.Separates 2 53 44 := by
  have computed : (tokenize commasInArguments).toOption.any (fun stream : TokenStream =>
      stream.hasKind .openParen 2 && stream.hasKind .comma 44 && stream.matchingClose? 2 == some 53 &&
        decide (stream.splitTopLevel ⟨3, 53⟩ = [⟨3, 29⟩, ⟨35, 51⟩])) = true := by
    decide +kernel
  simp only [Option.any_eq_true, Bool.and_eq_true, beq_iff_eq, decide_eq_true_eq] at computed
  obtain ⟨stream, found, ⟨⟨isParen, comma⟩, closes⟩, items⟩ := computed
  have lexed := eq_ok_of_toOption found
  have partners := (matchingClose?_eq_some_iff_partners (nested_of_tokenize lexed)).mp closes
  obtain ⟨member_iff, _, uncut, _⟩ := splitTopLevel_sections lexed partners
  rw [items] at member_iff uncut
  have first := (member_iff ⟨3, 29⟩).mp (by decide)
  have second := (member_iff ⟨35, 51⟩).mp (by decide)
  have inside := (uncut ⟨35, 51⟩ (by decide)).2.2 44 (by decide) (by decide)
  exact ⟨stream, lexed, isParen, partners, items, first.1, second.1, comma, inside⟩

end TokenStream

end ConstructorInjection
