import Mathlib.Data.List.Basic
import Mathlib.Data.List.Induction
import Mathlib.Tactic.Common
import ConstructorInjection.Proofs.AwaitedClosers
import ConstructorInjection.Proofs.Navigation

/-!
Delimiters that belong together. A closer belongs to the innermost delimiter that is open in front of
it, and the search for the closer of an opener, which counts all families alike, finds its partner.
-/

namespace ConstructorInjection

/-- Behind an opener, nested tokens do not stay nested: its closer is there. -/
theorem Nested.not_nested_behind {before after : List Token} {opener : Token}
    (nested : Nested (before ++ opener :: after)) (opens : opener.kind.isOpener = true) :
    ¬ Nested after := by
  intro behind
  have closed := nested.level.openBehind_eq_none opens
  rw [behind.level] at closed
  contradiction

/-- The innermost delimiter that is open behind some tokens, and the tokens in front of it. -/
def InnermostOpen (tokens outer : List Token) (opener : Token) : Prop :=
  opener.kind.isOpener = true ∧ ∃ inner, tokens = outer ++ opener :: inner ∧ Nested inner

namespace InnermostOpen

variable {tokens outer : List Token} {opener : Token}

theorem not_nested (innermost : InnermostOpen tokens outer opener) : ¬ Nested tokens := by
  obtain ⟨opens, inner, rfl, nestedInner⟩ := innermost
  intro nested
  exact nested.not_nested_behind opens nestedInner

theorem unique {otherOuter : List Token} {otherOpener : Token}
    (innermost : InnermostOpen tokens outer opener)
    (other : InnermostOpen tokens otherOuter otherOpener) :
    outer = otherOuter ∧ opener = otherOpener := by
  obtain ⟨opens, inner, rfl, nested⟩ := innermost
  obtain ⟨otherOpens, otherInner, cut, otherNested⟩ := other
  rcases List.append_eq_append_iff.mp cut with ⟨more, longer, later⟩ | ⟨more, longer, later⟩
  · cases more with
    | nil =>
        simp only [List.nil_append, List.cons.injEq] at later
        exact ⟨by simpa using longer.symm, later.1⟩
    | cons first more =>
        simp only [List.cons_append, List.cons.injEq] at later
        rw [later.2] at nested
        exact absurd otherNested (nested.not_nested_behind otherOpens)
  · cases more with
    | nil =>
        simp only [List.nil_append, List.cons.injEq] at later
        exact ⟨by simpa using longer, later.1.symm⟩
    | cons first more =>
        simp only [List.cons_append, List.cons.injEq] at later
        rw [later.2] at otherNested
        exact absurd nested (otherNested.not_nested_behind opens)

theorem append (innermost : InnermostOpen tokens outer opener) {behind : List Token}
    (nested : Nested behind) : InnermostOpen (tokens ++ behind) outer opener := by
  obtain ⟨opens, inner, rfl, nestedInner⟩ := innermost
  exact ⟨opens, inner ++ behind, by simp, nestedInner.append nested⟩

theorem prepend (innermost : InnermostOpen tokens outer opener) (front : List Token) :
    InnermostOpen (front ++ tokens) (front ++ outer) opener := by
  obtain ⟨opens, inner, rfl, nested⟩ := innermost
  exact ⟨opens, inner, by simp, nested⟩

end InnermostOpen

/-- The innermost delimiter open behind the tokens asks for the closer. -/
def Awaits (tokens : List Token) (closer : Token) : Prop :=
  ∃ outer opener, InnermostOpen tokens outer opener ∧ opener.kind.closing? = some closer.kind

theorem Awaits.prepend {tokens : List Token} {closer : Token} (awaits : Awaits tokens closer)
    (front : List Token) : Awaits (front ++ tokens) closer := by
  obtain ⟨outer, opener, innermost, partners⟩ := awaits
  exact ⟨front ++ outer, opener, innermost.prepend front, partners⟩

/-- Every closer is awaited where it stands. -/
def ClosersFit (tokens : List Token) : Prop :=
  ∀ before closer after, tokens = before ++ closer :: after → closer.kind.isCloser = true →
    Awaits before closer

theorem ClosersFit.of_append {left right : List Token} (fit : ClosersFit (left ++ right)) :
    ClosersFit left := by
  intro before closer after cut closes
  exact fit before closer (after ++ right) (by rw [cut]; simp) closes

theorem Nested.closersFit {tokens : List Token} (nested : Nested tokens) : ClosersFit tokens := by
  induction nested with
  | nil =>
      intro before closer after cut
      simp at cut
  | @plain token rest noOpener noCloser _ ih =>
      intro before closer after cut closes
      cases before with
      | nil =>
          cases cut
          rw [closes] at noCloser
          contradiction
      | cons first before =>
          cases cut
          exact (ih before closer after rfl closes).prepend [token]
  | @pair opener partner inner rest partners nestedInner _ innerIh restIh =>
      intro before closer after cut closes
      have opens := TokenKind.isOpener_of_closing? partners
      have atPartner : Awaits (opener :: inner) partner :=
        ⟨[], opener, ⟨opens, inner, rfl, nestedInner⟩, partners⟩
      cases before with
      | nil =>
          cases cut
          rw [TokenKind.isOpener_of_isCloser closes] at opens
          contradiction
      | cons first before =>
          simp only [List.cons_append, List.cons.injEq] at cut
          obtain ⟨rfl, cut⟩ := cut
          rcases List.append_eq_append_iff.mp cut with ⟨more, rfl, later⟩ | ⟨more, rfl, later⟩
          · cases more with
            | nil =>
                cases later
                simpa using atPartner
            | cons other more =>
                cases later
                have behind := (restIh more closer after rfl closes).prepend
                  (opener :: inner ++ [partner])
                simpa using behind
          · cases more with
            | nil =>
                cases later
                simpa using atPartner
            | cons other more =>
                cases later
                exact (innerIh before closer more rfl closes).prepend [opener]

/-- The delimiters that are open behind some tokens, the innermost first, each with the tokens in
front of it. -/
def Opened : List (List Token × Token) → List Token → Prop
  | [], tokens => Nested tokens
  | (outer, opener) :: others, tokens => InnermostOpen tokens outer opener ∧ Opened others outer

namespace Opened

variable {opened : List (List Token × Token)} {tokens behind : List Token}

theorem append (stack : Opened opened tokens) (nested : Nested behind) :
    Opened opened (tokens ++ behind) := by
  cases opened with
  | nil => exact Nested.append stack nested
  | cons innermost others => exact ⟨stack.1.append nested, stack.2⟩

theorem closed {outer : List Token} {opener closer : Token}
    (stack : Opened ((outer, opener) :: opened) tokens)
    (partners : opener.kind.closing? = some closer.kind) : Opened opened (tokens ++ [closer]) := by
  obtain ⟨⟨_, inner, rfl, nested⟩, others⟩ := stack
  have pair : Nested (opener :: inner ++ [closer]) := .pair partners nested .nil
  have joined := others.append pair
  simpa using joined

end Opened

theorem ClosersFit.exists_opened {tokens : List Token} (fit : ClosersFit tokens) :
    ∃ opened, Opened opened tokens := by
  induction tokens using List.reverseRecOn with
  | nil => exact ⟨[], .nil⟩
  | append_singleton tokens token ih =>
      obtain ⟨opened, stack⟩ := ih fit.of_append
      by_cases opens : token.kind.isOpener = true
      · exact ⟨(tokens, token) :: opened, ⟨opens, [], rfl, .nil⟩, stack⟩
      · by_cases closes : token.kind.isCloser = true
        · obtain ⟨outer, opener, innermost, partners⟩ := fit tokens token [] rfl closes
          cases opened with
          | nil => exact absurd stack innermost.not_nested
          | cons first others =>
              obtain ⟨rfl, rfl⟩ := innermost.unique stack.1
              exact ⟨others, stack.closed partners⟩
        · rw [Bool.not_eq_true] at opens closes
          exact ⟨opened, stack.append (.plain opens closes .nil)⟩

theorem ClosersFit.exists_opened_innermost {tokens outer : List Token} {opener : Token}
    (fit : ClosersFit tokens) (innermost : InnermostOpen tokens outer opener) :
    ∃ others, Opened ((outer, opener) :: others) tokens := by
  obtain ⟨opened, stack⟩ := fit.exists_opened
  cases opened with
  | nil => exact absurd stack innermost.not_nested
  | cons first others =>
      obtain ⟨front, last⟩ := first
      obtain ⟨rfl, rfl⟩ := innermost.unique stack.1
      exact ⟨others, stack⟩

/-- Where all closers fit, either nothing is open or one delimiter is the innermost one. -/
theorem ClosersFit.nested_or_innermost {tokens : List Token} (fit : ClosersFit tokens) :
    Nested tokens ∨ ∃ outer opener, InnermostOpen tokens outer opener := by
  obtain ⟨opened, stack⟩ := fit.exists_opened
  cases opened with
  | nil => exact .inl stack
  | cons first others => exact .inr ⟨first.1, first.2, stack.1⟩

/-- In nested tokens, what opens and closes a nested part are partners. -/
theorem Nested.partners {opener closer : Token} {inner : List Token}
    (nested : Nested (opener :: inner ++ [closer])) (nestedInner : Nested inner)
    (opens : opener.kind.isOpener = true) (closes : closer.kind.isCloser = true) :
    opener.kind.closing? = some closer.kind := by
  obtain ⟨outer, other, innermost, partners⟩ :=
    nested.closersFit (opener :: inner) closer [] rfl closes
  have own : InnermostOpen (opener :: inner) [] opener := ⟨opens, inner, rfl, nestedInner⟩
  obtain ⟨_, rfl⟩ := own.unique innermost
  exact partners

namespace TokenStream

/-- Two delimiters of one family with nested tokens between them. -/
structure Partners (stream : TokenStream) (opening closing : Nat) : Prop where
  ordered : opening < closing
  family : ∃ opener closer, stream[opening]? = some opener ∧ stream[closing]? = some closer ∧
    opener.kind.closing? = some closer.kind
  between : Nested (stream.slice ⟨opening + 1, closing⟩)

theorem slice_append_drop (stream : TokenStream) {start stop : Nat} (ordered : start ≤ stop) :
    stream.slice ⟨start, stop⟩ ++ stream.drop stop = stream.drop start := by
  have rest : stream.drop stop = (stream.drop start).drop (stop - start) := by
    rw [List.drop_drop, Nat.add_sub_cancel' ordered]
  rw [slice, List.drop_take, rest, List.take_append_drop]

theorem partners_iff_append {stream : TokenStream} {opening closing : Nat} :
    stream.Partners opening closing ↔
      ∃ opener inner closer rest, stream.drop opening = opener :: inner ++ closer :: rest ∧
        closing = opening + 1 + inner.length ∧ opener.kind.closing? = some closer.kind ∧
        Nested inner := by
  constructor
  · rintro ⟨ordered, ⟨opener, closer, atOpening, atClosing, partners⟩, between⟩
    have behind := stream.slice_append_drop (Nat.succ_le_of_lt ordered)
    have closerFirst := drop_eq_cons_iff.mpr ⟨atClosing, rfl⟩
    refine ⟨opener, _, closer, stream.drop (closing + 1), ?_, ?_, partners, between⟩
    · rw [List.cons_append, ← closerFirst, behind]
      exact drop_eq_cons_iff.mpr ⟨atOpening, rfl⟩
    · have inside := (List.getElem?_eq_some_iff.mp atClosing).1
      rw [length_slice]
      simp only
      omega
  · rintro ⟨opener, inner, closer, rest, cut, rfl, partners, nested⟩
    rw [List.cons_append, drop_eq_cons_iff] at cut
    obtain ⟨atOpening, behind⟩ := cut
    refine ⟨by omega, ⟨opener, closer, atOpening, getElem?_of_drop_eq behind, partners⟩, ?_⟩
    rw [slice_of_drop_eq behind rfl]
    exact nested

/-- Counting depth alone finds the partner, as the whole sequence is nested. -/
theorem matchingClose?_eq_some_iff_partners {stream : TokenStream} (nested : Nested stream)
    {opening closing : Nat} :
    stream.matchingClose? opening = some closing ↔ stream.Partners opening closing := by
  rw [matchingClose?_eq_some_iff, partners_iff_append]
  constructor
  · rintro ⟨opener, inner, closer, rest, cut, place, opens, closes, level⟩
    have parts : stream.take opening ++ ((opener :: inner ++ [closer]) ++ rest) = stream := by
      rw [List.append_assoc, List.singleton_append, ← cut, List.take_append_drop]
    have pair : Nested (opener :: inner ++ [closer]) :=
      @Level.nested _ _ rest (Level.pair opens closes level) (by rwa [parts])
    have between : Nested inner := @Level.nested [opener] inner [closer] level pair
    exact ⟨opener, inner, closer, rest, cut, place, pair.partners between opens closes, between⟩
  · rintro ⟨opener, inner, closer, rest, cut, place, partners, between⟩
    exact ⟨opener, inner, closer, rest, cut, place, TokenKind.isOpener_of_closing? partners,
      TokenKind.isCloser_of_closing? partners, between.level⟩

theorem exists_partner_of_opener {stream : TokenStream} (nested : Nested stream) {opening : Nat}
    (opens : stream.Passes (·.kind.isOpener) opening) :
    ∃ closing, stream.matchingClose? opening = some closing := by
  obtain ⟨opener, atOpening, isOpener⟩ := (Option.any_eq_true _ _).mp opens
  have cut := drop_eq_cons_iff.mpr ⟨atOpening, rfl⟩
  have level := nested.level
  rw [← stream.take_append_drop opening, cut] at level
  obtain ⟨inner, closer, rest, behind, closes, levelInner⟩ := level.exists_closer isOpener
  refine ⟨opening + 1 + inner.length, matchingClose?_eq_some_iff.mpr
    ⟨opener, inner, closer, rest, ?_, rfl, isOpener, closes, levelInner⟩⟩
  rw [cut, behind, List.cons_append]

theorem exists_partner_of_closer {stream : TokenStream} (nested : Nested stream) {closing : Nat}
    (closes : stream.Passes (·.kind.isCloser) closing) :
    ∃ opening, stream.Partners opening closing := by
  obtain ⟨closer, atClosing, isCloser⟩ := (Option.any_eq_true _ _).mp closes
  have cut := drop_eq_cons_iff.mpr ⟨atClosing, rfl⟩
  have parts : stream = stream.take closing ++ closer :: stream.drop (closing + 1) := by
    rw [← cut, List.take_append_drop]
  obtain ⟨outer, opener, ⟨_, inner, front, nestedInner⟩, partners⟩ :=
    nested.closersFit _ _ _ parts isCloser
  have whole : stream = outer ++ (opener :: inner ++ closer :: stream.drop (closing + 1)) := by
    rw [← List.append_assoc, ← front]
    exact parts
  have inside := (List.getElem?_eq_some_iff.mp atClosing).1
  have size := congrArg List.length front
  simp only [List.length_take, List.length_append, List.length_cons] at size
  refine ⟨outer.length, partners_iff_append.mpr
    ⟨opener, inner, closer, stream.drop (closing + 1), ?_, by omega, partners, nestedInner⟩⟩
  conv_lhs => rw [whole]
  exact List.drop_left

namespace Partners

variable {stream : TokenStream} {opening closing : Nat}

theorem innermostOpen (partners : stream.Partners opening closing) :
    ∃ opener, InnermostOpen (stream.take closing) (stream.take opening) opener := by
  obtain ⟨opener, inner, closer, rest, cut, place, family, nested⟩ := partners_iff_append.mp partners
  refine ⟨opener, TokenKind.isOpener_of_closing? family, inner, ?_, nested⟩
  have front : stream.take closing = stream.take opening ++ stream.slice ⟨opening, closing⟩ :=
    (stream.take_append_slice (Nat.le_of_lt partners.ordered)).symm
  rw [front]
  have behindOpener : stream.drop opening = (opener :: inner) ++ closer :: rest := by simpa using cut
  rw [slice_of_drop_eq behindOpener]
  rw [List.length_cons]
  omega

theorem opening_unique {other : Nat} (partners : stream.Partners opening closing)
    (otherPartners : stream.Partners other closing) : opening = other := by
  obtain ⟨_, innermost⟩ := partners.innermostOpen
  obtain ⟨_, otherInnermost⟩ := otherPartners.innermostOpen
  have same := congrArg List.length (innermost.unique otherInnermost).1
  obtain ⟨_, _, atOpening, _⟩ := partners.family
  obtain ⟨_, _, atOther, _⟩ := otherPartners.family
  have inside := (List.getElem?_eq_some_iff.mp atOpening).1
  have otherInside := (List.getElem?_eq_some_iff.mp atOther).1
  simp only [List.length_take] at same
  omega

theorem closing_unique {other : Nat} (nested : Nested stream)
    (partners : stream.Partners opening closing) (otherPartners : stream.Partners opening other) :
    closing = other := by
  rw [← matchingClose?_eq_some_iff_partners nested] at partners otherPartners
  exact Option.some.inj (partners.symm.trans otherPartners)

/-- Tokens that close what they open hold the partners of their openers. -/
theorem closing_lt {start limit : Nat} (nested : Nested stream)
    (partners : stream.Partners opening closing) (level : Level (stream.slice ⟨start, limit⟩))
    (lower : start ≤ opening) (upper : opening < limit) : closing < limit := by
  obtain ⟨opener, _, atOpening, _, family⟩ := partners.family
  have opens := TokenKind.isOpener_of_closing? family
  have cut := stream.slice_append_slice lower (Nat.le_of_lt upper)
  rw [← cut, slice_eq_cons atOpening upper] at level
  obtain ⟨between, closer, rest, inside, closes, levelBetween⟩ := level.exists_closer opens
  have own : stream.matchingClose? opening = some (opening + 1 + between.length) := by
    refine matchingClose?_eq_some_iff.mpr
      ⟨opener, between, closer, rest ++ stream.drop limit, ?_, rfl, opens, closes, levelBetween⟩
    have first := drop_eq_cons_iff.mpr ⟨atOpening, rfl⟩
    rw [first, ← stream.slice_append_drop (Nat.succ_le_of_lt upper), inside]
    simp
  rw [(matchingClose?_eq_some_iff_partners nested).mpr partners, Option.some.injEq] at own
  have size := congrArg List.length inside
  rw [length_slice] at size
  simp only [List.length_append, List.length_cons] at size
  omega

/-- An opener between two partners has its own partner between them. -/
theorem closes_within {inner innerClosing : Nat} (nested : Nested stream)
    (partners : stream.Partners opening closing) (innerPartners : stream.Partners inner innerClosing)
    (behind : opening < inner) (before : inner < closing) : innerClosing < closing :=
  innerPartners.closing_lt nested partners.between.level (Nat.succ_le_of_lt behind) before

end Partners

/-- The search for a closer pairs the openers with the closers: it finds the delimiter of the same
family behind nested tokens, for each closer from one opener only, and two pairs stand either one
inside the other or one behind the other. -/
theorem matchingClose?_pairs {source : Text} {stream : TokenStream}
    (lexed : tokenize source = .ok stream) :
    (∀ opening, stream.Passes (·.kind.isOpener) opening →
      ∃ closing, stream.matchingClose? opening = some closing) ∧
    (∀ opening closing, stream.matchingClose? opening = some closing ↔
      stream.Partners opening closing) ∧
    (∀ first second closing, stream.matchingClose? first = some closing →
      stream.matchingClose? second = some closing → first = second) ∧
    (∀ closing, stream.Passes (·.kind.isCloser) closing →
      ∃! opening, stream.matchingClose? opening = some closing) ∧
    ∀ first firstClosing second secondClosing, stream.matchingClose? first = some firstClosing →
      stream.matchingClose? second = some secondClosing → first < second →
        secondClosing < firstClosing ∨ firstClosing < second := by
  have nested := nested_of_tokenize lexed
  have partners_iff (opening closing : Nat) :=
    @matchingClose?_eq_some_iff_partners stream nested opening closing
  refine ⟨fun _ opens => exists_partner_of_opener nested opens, partners_iff, ?_⟩
  simp only [partners_iff]
  refine ⟨?_, ?_, ?_⟩
  · intro first second closing partners otherPartners
    exact partners.opening_unique otherPartners
  · intro closing closes
    obtain ⟨opening, partners⟩ := exists_partner_of_closer nested closes
    exact ⟨opening, partners, fun other otherPartners => otherPartners.opening_unique partners⟩
  · intro first firstClosing second secondClosing partners otherPartners ordered
    by_cases behind : firstClosing ≤ second
    · right
      obtain ⟨_, _, _, atClosing, family⟩ := partners.family
      obtain ⟨_, _, atOpening, _, otherFamily⟩ := otherPartners.family
      refine Nat.lt_of_le_of_ne behind ?_
      rintro rfl
      rw [atClosing, Option.some.injEq] at atOpening
      have opens := TokenKind.isOpener_of_closing? otherFamily
      rw [← atOpening, TokenKind.isOpener_of_isCloser (TokenKind.isCloser_of_closing? family)] at opens
      contradiction
    · left
      exact partners.closes_within nested otherPartners ordered (by omega)

/-- A closer does not belong to tokens that close what they open when such tokens are before it. -/
theorem not_level_of_closer {before after : List Token} {closer : Token} (level : Level before)
    (closes : closer.kind.isCloser = true) : ¬ Level (before ++ closer :: after) := by
  intro whole
  rw [Level, openBehind_append, level, Option.bind_some, openBehind,
    TokenKind.isOpener_of_isCloser closes, closes] at whole
  contradiction

/-- The innermost delimiter that is open at the end of a part has its partner behind that part. -/
theorem exists_partner_behind {stream : TokenStream} {start limit : Nat} {outer : List Token}
    {opener : Token} (nested : Nested stream)
    (innermost : InnermostOpen (stream.slice ⟨start, limit⟩) outer opener) :
    ∃ closing, stream.Partners (start + outer.length) closing ∧ start + outer.length < limit ∧
      limit ≤ closing := by
  obtain ⟨opens, inner, cut, nestedInner⟩ := innermost
  have atOpener : (stream.slice ⟨start, limit⟩)[outer.length]? = some opener := by
    rw [cut, List.getElem?_append_right (Nat.le_refl _), Nat.sub_self, List.getElem?_cons_zero]
  rw [getElem?_slice] at atOpener
  simp only at atOpener
  split at atOpener
  case isFalse => contradiction
  next inside =>
    obtain ⟨closing, found⟩ := exists_partner_of_opener nested
      ((Option.any_eq_true _ _).mpr ⟨opener, atOpener, opens⟩)
    have partners := (matchingClose?_eq_some_iff_partners nested).mp found
    refine ⟨closing, partners, inside, ?_⟩
    by_contra early
    obtain ⟨_, closer, _, atClosing, family⟩ := partners.family
    have level := nestedInner.level
    have rest : stream.slice ⟨start + outer.length + 1, limit⟩ = inner := by
      rw [← stream.slice_append_slice (Nat.le_add_right start outer.length) (Nat.le_of_lt inside),
        slice_eq_cons atOpener inside] at cut
      have bound := (List.getElem?_eq_some_iff.mp atOpener).1
      have length : (stream.slice ⟨start, start + outer.length⟩).length = outer.length := by
        rw [length_slice]
        simp only
        omega
      exact (List.cons.inj (List.append_inj cut length).2).2
    rw [← rest, ← stream.slice_append_slice (Nat.succ_le_of_lt partners.ordered) (by omega),
      slice_eq_cons atClosing (by omega)] at level
    exact not_level_of_closer partners.between.level (TokenKind.isCloser_of_closing? family) level

/-- The innermost pair of delimiters around an index. -/
structure EnclosedBy (stream : TokenStream) (opening closing index : Nat) : Prop where
  partners : stream.Partners opening closing
  behind : opening < index
  before : index < closing
  innermost : ∀ other otherClosing, stream.Partners other otherClosing → other < index →
    index < otherClosing → other ≤ opening ∧ closing ≤ otherClosing

/-- What lies directly between two partners stands behind tokens that close what they open. -/
theorem enclosedBy_iff_level {stream : TokenStream} {opening closing index : Nat}
    (nested : Nested stream) (partners : stream.Partners opening closing) (behind : opening < index)
    (before : index < closing) (noCloser : ¬ stream.Passes (·.kind.isCloser) index) :
    stream.EnclosedBy opening closing index ↔ Level (stream.slice ⟨opening + 1, index⟩) := by
  constructor
  · intro enclosed
    have fit := partners.between.closersFit
    rw [← stream.slice_append_slice (Nat.succ_le_of_lt behind) (Nat.le_of_lt before)] at fit
    rcases fit.of_append.nested_or_innermost with nestedFront | ⟨outer, opener, innermost⟩
    · exact nestedFront.level
    · obtain ⟨otherClosing, otherPartners, lower, upper⟩ := exists_partner_behind nested innermost
      have notHere : index ≠ otherClosing := by
        rintro rfl
        obtain ⟨_, closer, _, atIndex, family⟩ := otherPartners.family
        exact noCloser ((Option.any_eq_true _ _).mpr
          ⟨closer, atIndex, TokenKind.isCloser_of_closing? family⟩)
      have outside := (enclosed.innermost _ _ otherPartners lower (by omega)).1
      omega
  · intro level
    refine ⟨partners, behind, before, ?_⟩
    intro other otherClosing otherPartners lower upper
    have outside : other ≤ opening := by
      by_contra inside
      have early := otherPartners.closing_lt nested level (by omega) lower
      omega
    refine ⟨outside, ?_⟩
    rcases Nat.lt_or_eq_of_le outside with further | rfl
    · have within := otherPartners.closes_within nested partners further (by omega)
      omega
    · exact Nat.le_of_eq (partners.closing_unique nested otherPartners)

/-- Delimiters of every family, with an attribute among them. -/
def delimitersOfAllFamilies : Text :=
  "<?php f(#[A(1)] fn($x) => $x['k'], function() \x7breturn [];\x7d);"

theorem matchingClose?_pairs_delimitersOfAllFamilies : ∃ stream : TokenStream,
    tokenize delimitersOfAllFamilies = .ok stream ∧ stream.hasKind .attributeStart 3 = true ∧
      stream.matchingClose? 3 = some 8 ∧ stream.Partners 3 8 ∧
      (∃! opening, stream.matchingClose? opening = some 33) := by
  have computed : (tokenize delimitersOfAllFamilies).toOption.any (fun stream : TokenStream =>
      stream.hasKind .attributeStart 3 && stream.matchingClose? 3 == some 8 &&
        stream[33]?.any (·.kind.isCloser)) = true := by
    decide +kernel
  simp only [Option.any_eq_true, Bool.and_eq_true, beq_iff_eq] at computed
  obtain ⟨stream, found, ⟨isAttribute, closed⟩, closes⟩ := computed
  have lexed := eq_ok_of_toOption found
  obtain ⟨_, partners_iff, _, unique, _⟩ := matchingClose?_pairs lexed
  have last : stream.Passes (·.kind.isCloser) 33 := (Option.any_eq_true _ _).mpr closes
  exact ⟨stream, lexed, isAttribute, closed, (partners_iff 3 8).mp closed, unique 33 last⟩

end TokenStream

end ConstructorInjection
