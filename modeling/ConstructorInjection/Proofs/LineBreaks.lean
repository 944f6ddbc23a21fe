import Mathlib.Data.List.Basic
import Mathlib.Tactic.Common
import ConstructorInjection.Text

/-!
Texts in which every line ends in one carriage return and a line feed. Such a text is read from left
to right with no more in mind than the carriage returns that are just behind, so that parts of it can
be exchanged one by one.
-/

namespace ConstructorInjection

namespace Text

/-- How many carriage returns a text ends in. -/
def returnsAtEnd (text : Text) : Nat :=
  (text.reverse.takeWhile (· = '\r')).length

/-- Every line feed stands directly behind one carriage return and no more. -/
def Paired (text : Text) : Prop :=
  ∀ before after, text = before ++ '\n' :: after → returnsAtEnd before = 1

/-- The carriage returns at the end of a text that goes on behind some; none when it has a line feed
that is not behind exactly one. -/
def returnsBehind (returns : Nat) : Text → Option Nat
  | [] => some returns
  | first :: rest =>
    if first = '\n' then if returns = 1 then returnsBehind 0 rest else none
    else if first = '\r' then returnsBehind (returns + 1) rest
    else returnsBehind 0 rest

theorem returnsBehind_append (returns : Nat) (left right : Text) :
    returnsBehind returns (left ++ right) =
      (returnsBehind returns left).bind (returnsBehind · right) := by
  induction left generalizing returns with
  | nil => rfl
  | cons first rest ih =>
      rw [List.cons_append, returnsBehind, returnsBehind]
      split
      · split
        · exact ih 0
        · rfl
      · split
        · exact ih (returns + 1)
        · exact ih 0

theorem returnsBehind_parts {returns behind : Nat} {left right : Text}
    (read : returnsBehind returns (left ++ right) = some behind) :
    ∃ between, returnsBehind returns left = some between ∧
      returnsBehind between right = some behind := by
  rw [returnsBehind_append] at read
  exact Option.bind_eq_some_iff.mp read

theorem returnsBehind_trans {returns between behind : Nat} {left right : Text}
    (first : returnsBehind returns left = some between)
    (second : returnsBehind between right = some behind) :
    returnsBehind returns (left ++ right) = some behind := by
  rw [returnsBehind_append, first, Option.bind_some, second]

theorem returnsAtEnd_append_cons {first : Char} (other : first ≠ '\r') (before rest : Text) :
    returnsAtEnd (before ++ first :: rest) = returnsAtEnd rest := by
  simp only [returnsAtEnd, List.reverse_append, List.reverse_cons, List.append_assoc,
    List.takeWhile_append, List.singleton_append]
  split
  next whole => simp [whole, other]
  next => rfl

theorem returnsAtEnd_replicate (returns : Nat) :
    returnsAtEnd (List.replicate returns '\r') = returns := by
  rw [returnsAtEnd, List.reverse_replicate, List.takeWhile_replicate, if_pos (by simp),
    List.length_replicate]

/-- Reading a text behind some carriage returns is the same as reading it with them in front. -/
theorem isSome_returnsBehind_iff (returns : Nat) (text : Text) :
    (returnsBehind returns text).isSome = true ↔
      ∀ before after, text = before ++ '\n' :: after →
        returnsAtEnd (List.replicate returns '\r' ++ before) = 1 := by
  induction text generalizing returns with
  | nil => simp [returnsBehind]
  | cons first rest ih =>
      have later (behind : Nat) (same : ∀ before, returnsAtEnd (List.replicate behind '\r' ++ before) =
          returnsAtEnd (List.replicate returns '\r' ++ first :: before)) :
          (returnsBehind behind rest).isSome = true ↔ ∀ before after,
            rest = before ++ '\n' :: after →
              returnsAtEnd (List.replicate returns '\r' ++ first :: before) = 1 := by
        rw [ih]
        simp only [same]
      have split : (∀ before after, first :: rest = before ++ '\n' :: after →
            returnsAtEnd (List.replicate returns '\r' ++ before) = 1) ↔
          (first = '\n' → returns = 1) ∧ ∀ before after, rest = before ++ '\n' :: after →
            returnsAtEnd (List.replicate returns '\r' ++ first :: before) = 1 := by
        constructor
        · intro paired
          refine ⟨?_, fun before after cut => paired (first :: before) after (by rw [cut]; rfl)⟩
          rintro rfl
          simpa [returnsAtEnd_replicate] using paired [] rest rfl
        · rintro ⟨here, there⟩ before after cut
          cases before with
          | nil =>
              cases cut
              simpa [returnsAtEnd_replicate] using here rfl
          | cons other before =>
              cases cut
              exact there before after rfl
      rw [split, returnsBehind]
      by_cases feed : first = '\n'
      · rw [if_pos feed, ← later 0 fun before => ?_]
        · by_cases one : returns = 1
          · simp [one]
          · simp [one, feed]
        · rw [List.replicate_zero, List.nil_append, returnsAtEnd_append_cons (by rw [feed]; decide)]
      · rw [if_neg feed]
        by_cases isReturn : first = '\r'
        · rw [if_pos isReturn, later (returns + 1) fun before => ?_]
          · simp [feed]
          · rw [List.replicate_succ', List.append_assoc, isReturn]
            rfl
        · rw [if_neg isReturn, later 0 fun before => ?_]
          · simp [feed]
          · rw [List.replicate_zero, List.nil_append, returnsAtEnd_append_cons isReturn]

theorem paired_iff {text : Text} : Paired text ↔ ∃ behind, returnsBehind 0 text = some behind := by
  rw [← Option.isSome_iff_exists, isSome_returnsBehind_iff]
  simp [Paired]

/-- What comes behind two carriage returns or more may come behind any number of them. -/
theorem returnsBehind_of_two_le {returns behind : Nat} {text : Text} (several : 2 ≤ returns)
    (read : returnsBehind returns text = some behind) (others : Nat) :
    ∃ ending, returnsBehind others text = some ending := by
  induction text generalizing returns others with
  | nil => exact ⟨others, rfl⟩
  | cons first rest ih =>
      rw [returnsBehind] at read ⊢
      split at read
      next => rw [if_neg (by omega)] at read; contradiction
      next noFeed =>
        rw [if_neg noFeed]
        split at read
        next isReturn =>
          rw [if_pos isReturn]
          exact ih (by omega) read (others + 1)
        next noReturn =>
          rw [if_neg noReturn]
          exact ⟨behind, read⟩

/-- A text that begins with no line break may come behind any number of carriage returns. -/
theorem returnsBehind_exchange {returns behind others : Nat} {text : Text}
    (read : returnsBehind returns text = some behind) (noFeed : text.head? ≠ some '\n')
    (noReturn : others = 0 ∨ text.head? ≠ some '\r') :
    ∃ ending, returnsBehind others text = some ending := by
  cases text with
  | nil => exact ⟨others, rfl⟩
  | cons first rest =>
      rw [List.head?_cons, ne_eq, Option.some.injEq] at noFeed noReturn
      rw [returnsBehind, if_neg noFeed] at read ⊢
      by_cases isReturn : first = '\r'
      · have none : others = 0 := noReturn.resolve_right fun other => other isReturn
        rw [if_pos isReturn] at read ⊢
        cases returns with
        | zero => exact ⟨behind, by rw [none]; exact read⟩
        | succ more => exact returnsBehind_of_two_le (by omega) read (others + 1)
      · rw [if_neg isReturn] at read ⊢
        exact ⟨behind, read⟩

theorem returnsBehind_eq_zero {returns behind : Nat} {text : Text} {last : Char}
    (read : returnsBehind returns text = some behind) (ends : text.getLast? = some last)
    (noReturn : last ≠ '\r') : behind = 0 := by
  obtain ⟨front, rfl⟩ := List.getLast?_eq_some_iff.mp ends
  obtain ⟨between, _, closed⟩ := returnsBehind_parts read
  rw [returnsBehind, if_neg noReturn] at closed
  split at closed
  next =>
    split at closed
    · cases closed
      rfl
    · contradiction
  next =>
    cases closed
    rfl

theorem getLast?_of_returnsBehind {returns : Nat} {text : Text}
    (read : returnsBehind returns text = some 0) : text.getLast? ≠ some '\r' := by
  intro ends
  obtain ⟨front, rfl⟩ := List.getLast?_eq_some_iff.mp ends
  obtain ⟨between, _, closed⟩ := returnsBehind_parts read
  cases closed

theorem returnsBehind_of_notMem {text : Text} (noFeed : '\n' ∉ text) (returns : Nat) :
    ∃ behind, returnsBehind returns text = some behind := by
  induction text generalizing returns with
  | nil => exact ⟨returns, rfl⟩
  | cons first rest ih =>
      rw [List.mem_cons, not_or] at noFeed
      rw [returnsBehind, if_neg fun feed => noFeed.1 feed.symm]
      split
      · exact ih noFeed.2 (returns + 1)
      · exact ih noFeed.2 0

/-- No line breaks at all. -/
def Unbroken (text : Text) : Prop :=
  '\r' ∉ text ∧ '\n' ∉ text

theorem Unbroken.append {left right : Text} (first : Unbroken left) (second : Unbroken right) :
    Unbroken (left ++ right) :=
  ⟨List.not_mem_append first.1 second.1, List.not_mem_append first.2 second.2⟩

theorem Unbroken.of_all {text : Text} {test : Char → Bool}
    (all : ∀ character ∈ text, test character = true) (noReturn : test '\r' = false)
    (noFeed : test '\n' = false) : Unbroken text := by
  constructor <;> intro member <;> have passes := all _ member <;> simp_all

/-- A text that may come behind any carriage returns and in turn ends in none. -/
def Settled (text : Text) : Prop :=
  ∀ returns, returnsBehind returns text = some 0

namespace Settled

variable {left middle right text : Text}

theorem of_notMem (noFeed : '\n' ∉ text) {last : Char} (ends : text.getLast? = some last)
    (noReturn : last ≠ '\r') : Settled text := by
  intro returns
  obtain ⟨behind, read⟩ := returnsBehind_of_notMem noFeed returns
  rwa [returnsBehind_eq_zero read ends noReturn] at read

theorem of_unbroken (unbroken : Unbroken text) (nonempty : text ≠ []) : Settled text := by
  have ends := List.getLast?_eq_some_getLast nonempty
  refine of_notMem unbroken.2 ends fun isReturn => unbroken.1 ?_
  rw [← isReturn]
  exact List.getLast_mem nonempty

theorem append (first : Settled left) (second : Settled right) : Settled (left ++ right) :=
  fun returns => returnsBehind_trans (first returns) (second 0)

theorem prepend (noFeed : '\n' ∉ left) (settled : Settled right) : Settled (left ++ right) := by
  intro returns
  obtain ⟨between, read⟩ := returnsBehind_of_notMem noFeed returns
  exact returnsBehind_trans read (settled between)

/-- Between two settled texts, what stands on its own may stand. -/
theorem around {behind : Nat} (first : Settled left) (read : returnsBehind 0 middle = some behind)
    (second : Settled right) : Settled (left ++ (middle ++ right)) :=
  fun returns => returnsBehind_trans (first returns) (returnsBehind_trans read (second behind))

/-- So may several such texts. -/
theorem flatMap_around {separator : Text} (settled : Settled separator) (second : Settled right)
    {texts : List Text} (read : ∀ text ∈ texts, ∃ behind, returnsBehind 0 text = some behind) :
    Settled (texts.flatMap (separator ++ ·) ++ right) := by
  induction texts with
  | nil => exact second
  | cons text texts ih =>
      obtain ⟨readFirst, readLater⟩ := List.forall_mem_cons.mp read
      obtain ⟨behind, first⟩ := readFirst
      rw [List.flatMap_cons, List.append_assoc, List.append_assoc]
      exact settled.around first (ih readLater)

end Settled

end Text

end ConstructorInjection
