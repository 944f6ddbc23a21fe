import Mathlib.Data.List.Basic
import Mathlib.Tactic.Common
import ConstructorInjection.Constructor
import ConstructorInjection.Proofs.Nesting
import ConstructorInjection.Proofs.Search

/-!
Finding one's place in a stream that is cut into parts. The searches work with indices; here each of
them says how the tokens behind its start are made up.
-/

namespace ConstructorInjection

/-- Only blanks and comments. -/
def Blank (tokens : List Token) : Prop :=
  ∀ token ∈ tokens, token.isTrivia = true

theorem Level.of_plain {tokens : List Token}
    (plain : ∀ token ∈ tokens, token.kind.isOpener = false ∧ token.kind.isCloser = false) :
    Level tokens := by
  induction tokens with
  | nil => exact Level.nil
  | cons token tokens ih =>
      have first := plain token (by simp)
      exact (Level.plain first.1 first.2).append (ih fun other member => plain other (by simp [member]))

theorem Blank.level {tokens : List Token} (blank : Blank tokens) : Level tokens := by
  apply Level.of_plain
  intro token member
  have trivia := blank token member
  rw [Token.isTrivia] at trivia
  cases kind : token.kind <;> rw [kind] at trivia <;> first | contradiction | exact ⟨rfl, rfl⟩

theorem findIdx?_eq_some_iff_append {tokens : List Token} {test : Token → Bool} {found : Nat} :
    tokens.findIdx? test = some found ↔
      ∃ before token after, tokens = before ++ token :: after ∧ found = before.length ∧
        test token = true ∧ ∀ earlier ∈ before, test earlier = false := by
  induction tokens generalizing found with
  | nil => simp
  | cons first rest ih =>
      rw [List.findIdx?_cons]
      by_cases passes : test first = true
      · rw [if_pos passes, Option.some.injEq]
        constructor
        · rintro rfl
          exact ⟨[], first, rest, rfl, rfl, passes, by simp⟩
        · rintro ⟨before, token, after, cut, rfl, _, earlier⟩
          cases before with
          | nil => rfl
          | cons other before =>
              cases cut
              have fails := earlier first (by simp)
              rw [passes] at fails
              contradiction
      · rw [if_neg passes, Option.map_eq_some_iff]
        simp only [ih]
        constructor
        · rintro ⟨_, ⟨before, token, after, rfl, rfl, accepted, earlier⟩, rfl⟩
          refine ⟨first :: before, token, after, rfl, rfl, accepted, ?_⟩
          intro other member
          rcases List.mem_cons.mp member with rfl | later
          · simpa using passes
          · exact earlier other later
        · rintro ⟨before, token, after, cut, rfl, accepted, earlier⟩
          cases before with
          | nil =>
              cases cut
              contradiction
          | cons other before =>
              cases cut
              exact ⟨before.length, ⟨before, token, after, rfl, rfl, accepted,
                fun earliest member => earlier earliest (List.mem_cons_of_mem _ member)⟩, rfl⟩

namespace TokenStream

theorem firstIn?_eq_some_iff_append {stream : TokenStream} {range : IndexRange}
    {test : Token → Bool} {found : Nat} :
    stream.firstIn? range test = some found ↔
      ∃ before token after, stream.slice range = before ++ token :: after ∧
        found = range.start + before.length ∧ test token = true ∧
          ∀ earlier ∈ before, test earlier = false := by
  simp only [firstIn?, Option.map_eq_some_iff, findIdx?_eq_some_iff_append]
  constructor
  · rintro ⟨_, ⟨before, token, after, cut, rfl, passes, earlier⟩, rfl⟩
    exact ⟨before, token, after, cut, rfl, passes, earlier⟩
  · rintro ⟨before, token, after, cut, rfl, passes, earlier⟩
    exact ⟨_, ⟨before, token, after, cut, rfl, passes, earlier⟩, rfl⟩

/-- The last index of a range that passes a test, by the tokens around it. -/
theorem lastIn?_cases (stream : TokenStream) (range : IndexRange) (test : Token → Bool) :
    (stream.lastIn? range test = none ∧ ∀ token ∈ stream.slice range, test token = false) ∨
      ∃ before last after, stream.slice range = before ++ last :: after ∧ test last = true ∧
        (∀ token ∈ after, test token = false) ∧
        stream.lastIn? range test = some (range.start + before.length) := by
  rw [lastIn?]
  cases found : (stream.slice range).reverse.findIdx? test with
  | none =>
      left
      refine ⟨rfl, ?_⟩
      intro token member
      exact List.findIdx?_eq_none_iff.mp found token (List.mem_reverse.mpr member)
  | some behind =>
      right
      obtain ⟨after, last, before, cut, rfl, passes, rejected⟩ :=
        findIdx?_eq_some_iff_append.mp found
      have whole : stream.slice range = before.reverse ++ last :: after.reverse := by
        rw [← List.reverse_reverse (stream.slice range), cut]
        simp
      refine ⟨before.reverse, last, after.reverse, whole, passes, ?_, ?_⟩
      · intro token member
        exact rejected token (List.mem_reverse.mp member)
      · rw [whole, Option.map_some]
        simp only [List.length_append, List.length_cons, List.length_reverse, Option.some.injEq]
        omega

/-- Nothing but blanks and comments stands behind the last significant token. -/
theorem isTrivia_of_previousSignificant? {stream : TokenStream} {index previous between : Nat}
    {token : Token} (found : stream.previousSignificant? index = some previous)
    (lower : previous < between) (upper : between < index) (there : stream[between]? = some token) :
    token.isTrivia = true := by
  rcases stream.lastIn?_cases ⟨0, index⟩ (!·.isTrivia) with
    ⟨missing, _⟩ | ⟨before, last, after, cut, _, trivia, place⟩
  · rw [previousSignificant?, missing] at found
    contradiction
  · rw [previousSignificant?, place, Option.some.injEq] at found
    simp only [Nat.zero_add] at found
    have inSlice : (stream.slice ⟨0, index⟩)[between]? = some token := by
      rw [getElem?_slice, Nat.zero_add, if_pos upper, there]
    rw [cut, List.getElem?_append_right (by omega), List.getElem?_cons, if_neg (by omega)] at inSlice
    simpa using trivia token (List.mem_of_getElem? inSlice)

theorem slice_to_end (stream : TokenStream) (start : Nat) :
    stream.slice ⟨start, stream.length⟩ = stream.drop start := by
  rw [slice, List.take_length]

theorem drop_eq_slices (stream : TokenStream) {start first stop : Nat} (lower : start ≤ first)
    (upper : first ≤ stop) (inside : stop ≤ stream.length) :
    stream.drop start =
      stream.slice ⟨start, first⟩ ++ (stream.slice ⟨first, stop⟩ ++ stream.drop stop) := by
  rw [← slice_to_end, ← slice_to_end, ← stream.slice_append_slice lower (Nat.le_trans upper inside),
    ← stream.slice_append_slice upper inside]

theorem drop_eq_cons_iff {stream : TokenStream} {index : Nat} {token : Token}
    {rest : List Token} :
    stream.drop index = token :: rest ↔
      stream[index]? = some token ∧ stream.drop (index + 1) = rest := by
  constructor
  · intro cut
    refine ⟨?_, ?_⟩
    · rw [← Nat.add_zero index, ← List.getElem?_drop, cut]
      rfl
    · rw [← List.drop_drop, cut]
      rfl
  · rintro ⟨found, rfl⟩
    obtain ⟨bound, rfl⟩ := List.getElem?_eq_some_iff.mp found
    exact List.drop_eq_getElem_cons bound

theorem drop_of_drop_eq {stream : TokenStream} {index : Nat} {before rest : List Token}
    (cut : stream.drop index = before ++ rest) : stream.drop (index + before.length) = rest := by
  rw [← List.drop_drop, cut, List.drop_left]

theorem slice_of_drop_eq {stream : TokenStream} {start stop : Nat} {inner rest : List Token}
    (cut : stream.drop start = inner ++ rest) (place : stop = start + inner.length) :
    stream.slice ⟨start, stop⟩ = inner := by
  rw [slice, List.drop_take, place, cut, Nat.add_sub_cancel_left, List.take_left]

theorem getElem?_of_drop_eq {stream : TokenStream} {index : Nat} {token : Token}
    {before rest : List Token} (cut : stream.drop index = before ++ token :: rest) :
    stream[index + before.length]? = some token :=
  (drop_eq_cons_iff.mp (drop_of_drop_eq cut)).1

theorem drop_of_drop_eq_cons {stream : TokenStream} {index : Nat} {token : Token}
    {before rest : List Token} (cut : stream.drop index = before ++ token :: rest) :
    stream.drop (index + before.length + 1) = rest :=
  (drop_eq_cons_iff.mp (drop_of_drop_eq cut)).2

theorem nextSignificant?_eq_some_iff {stream : TokenStream} {index found : Nat} :
    stream.nextSignificant? index = some found ↔
      ∃ blanks token rest, stream.drop (index + 1) = blanks ++ token :: rest ∧
        found = index + 1 + blanks.length ∧ token.isTrivia = false ∧ Blank blanks := by
  rw [nextSignificant?, significantFrom?, firstIn?_eq_some_iff_append, slice_to_end]
  simp only [Bool.not_eq_eq_eq_not, Bool.not_true, Bool.not_false, Blank]

theorem hasKind_iff {stream : TokenStream} {kind : TokenKind} {index : Nat} :
    stream.hasKind kind index = true ↔ ∃ token, stream[index]? = some token ∧ token.kind = kind := by
  rw [hasKind, kindAt?, beq_iff_eq, Option.map_eq_some_iff]

theorem nextOfKind?_iff_append {stream : TokenStream} {index found : Nat} (kind : TokenKind)
    (significant : kind.isTrivia = false) :
    stream.nextOfKind? kind index = some found ↔
      ∃ blanks token rest, stream.drop (index + 1) = blanks ++ token :: rest ∧
        found = index + 1 + blanks.length ∧ token.kind = kind ∧ Blank blanks := by
  rw [nextOfKind?, Option.filter_eq_some_iff, nextSignificant?_eq_some_iff, hasKind_iff]
  constructor
  · rintro ⟨⟨blanks, token, rest, cut, rfl, _, trivia⟩, other, atFound, isKind⟩
    rw [getElem?_of_drop_eq cut, Option.some.injEq] at atFound
    subst atFound
    exact ⟨blanks, token, rest, cut, rfl, isKind, trivia⟩
  · rintro ⟨blanks, token, rest, cut, rfl, isKind, trivia⟩
    refine ⟨⟨blanks, token, rest, cut, rfl, ?_, trivia⟩, token, getElem?_of_drop_eq cut, isKind⟩
    rw [Token.isTrivia, isKind, significant]

theorem matchingClose?_eq_some_iff {stream : TokenStream} {opener found : Nat} :
    stream.matchingClose? opener = some found ↔
      ∃ first inner closer rest, stream.drop opener = first :: inner ++ closer :: rest ∧
        found = opener + 1 + inner.length ∧ first.kind.isOpener = true ∧
        closer.kind.isCloser = true ∧ Level inner := by
  rw [matchingClose?]
  simp only [List.cons_append, drop_eq_cons_iff]
  constructor
  · intro result
    split at result
    next opens =>
      obtain ⟨first, atOpener, isOpener⟩ := (Option.any_eq_true _ _).mp opens
      obtain ⟨_, distance, rfl⟩ := Option.map_eq_some_iff.mp result
      obtain ⟨inner, closer, rest, cut, rfl, closes, level⟩ :=
        closerDistance?_eq_some_iff.mp distance
      exact ⟨first, inner, closer, rest, ⟨atOpener, cut⟩, rfl, isOpener, closes, level⟩
    next => contradiction
  · rintro ⟨first, inner, closer, rest, ⟨atOpener, cut⟩, rfl, isOpener, closes, level⟩
    rw [if_pos (by rw [atOpener, Option.any_some, isOpener])]
    have distance := closerDistance?_eq_some_iff.mpr
      ⟨inner, closer, rest, cut, rfl, closes, level⟩
    rw [distance, Option.map_some]

end TokenStream

/-- What no counter gets through has a closer for a delimiter that was opened in front of it. -/
theorem exists_closer_of_openBehind_eq_none {depth : Nat} {tokens : List Token}
    (closed : openBehind depth tokens = none) :
    ∃ inner closer rest, tokens = inner ++ closer :: rest ∧ closer.kind.isCloser = true ∧
      openBehind depth inner = some 0 := by
  induction tokens generalizing depth with
  | nil => contradiction
  | cons token tokens ih =>
      rw [openBehind] at closed
      split at closed
      next opener =>
        obtain ⟨inner, closer, rest, rfl, closes, level⟩ := ih closed
        exact ⟨token :: inner, closer, rest, rfl, closes, by rw [openBehind, if_pos opener, level]⟩
      next noOpener =>
        split at closed
        next closer =>
          split at closed
          next outside => exact ⟨[], token, tokens, rfl, closer, by rw [outside]; rfl⟩
          next inside =>
            obtain ⟨inner, last, rest, rfl, closes, level⟩ := ih closed
            refine ⟨token :: inner, last, rest, rfl, closes, ?_⟩
            rw [openBehind, if_neg noOpener, if_pos closer, if_neg inside, level]
        next noCloser =>
          obtain ⟨inner, last, rest, rfl, closes, level⟩ := ih closed
          refine ⟨token :: inner, last, rest, rfl, closes, ?_⟩
          rw [openBehind, if_neg noOpener, if_neg noCloser, level]

/-- Behind an opener, tokens whose delimiters match hold its closer. -/
theorem Level.openBehind_eq_none {before after : List Token} {opener : Token}
    (level : Level (before ++ opener :: after)) (opens : opener.kind.isOpener = true) :
    ConstructorInjection.openBehind 0 after = none := by
  rw [Level, openBehind_append] at level
  obtain ⟨depth, _, behind⟩ := Option.bind_eq_some_iff.mp level
  rw [ConstructorInjection.openBehind, if_pos opens] at behind
  rw [Option.eq_none_iff_forall_ne_some]
  intro left opened
  have shifted := openBehind_add opened (depth + 1)
  rw [Nat.zero_add, behind, Option.some.injEq] at shifted
  omega

theorem Level.exists_closer {before after : List Token} {opener : Token}
    (level : Level (before ++ opener :: after)) (opens : opener.kind.isOpener = true) :
    ∃ inner closer rest, after = inner ++ closer :: rest ∧ closer.kind.isCloser = true ∧
      Level inner :=
  exists_closer_of_openBehind_eq_none (level.openBehind_eq_none opens)

theorem openBehind_parts {depth behind : Nat} {left right : List Token}
    (opened : openBehind depth (left ++ right) = some behind) :
    ∃ between, openBehind depth left = some between ∧ openBehind between right = some behind := by
  rw [openBehind_append] at opened
  exact Option.bind_eq_some_iff.mp opened

/-- Inside delimiters, tokens that close what they open never get out of them. -/
theorem Level.openBehind_prefix {left right : List Token} (level : Level (left ++ right))
    (depth : Nat) : ∃ more, ConstructorInjection.openBehind depth left = some (more + depth) := by
  obtain ⟨more, opened, _⟩ := openBehind_parts level
  exact ⟨more, by simpa using openBehind_add opened depth⟩

theorem Level.of_append_left {left right : List Token} (first : Level left)
    (level : Level (left ++ right)) : Level right := by
  rwa [Level, openBehind_append, first, Option.bind_some] at level

/-- What opens no more than it closes cannot reach over the closer behind such a sequence. -/
theorem Level.within_delimiters {before body tail rest : List Token} {token closer : Token}
    (levelBefore : Level before) (level : Level body) (closes : closer.kind.isCloser = true)
    (noCloser : token.kind.isCloser = false)
    (cut : before ++ token :: tail = body ++ closer :: rest) :
    ∃ after, body = before ++ token :: after := by
  rcases List.append_eq_append_iff.mp cut with ⟨more, longer, later⟩ | ⟨more, shorter, later⟩
  · cases more with
    | nil =>
        simp only [List.nil_append, List.cons.injEq] at later
        rw [later.1, closes] at noCloser
        contradiction
    | cons first more =>
        simp only [List.cons_append, List.cons.injEq] at later
        exact ⟨more, by rw [longer, later.1]⟩
  · cases more with
    | nil =>
        simp only [List.nil_append, List.cons.injEq] at later
        rw [← later.1, closes] at noCloser
        contradiction
    | cons first more =>
        simp only [List.cons_append, List.cons.injEq] at later
        obtain ⟨rfl, _⟩ := later
        rw [shorter, Level, openBehind_append, level, Option.bind_some,
          ConstructorInjection.openBehind, TokenKind.isOpener_of_isCloser closes, closes] at levelBefore
        contradiction

end ConstructorInjection
