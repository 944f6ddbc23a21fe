import Mathlib.Data.List.Basic
import Mathlib.Tactic.Common
import ConstructorInjection.Proofs.PatternContexts

/-!
Extents in copied code. Comments, strings, heredocs and markup end in a copy where they end in its
source, when the copy goes on like its source up to a character that begins a piece of its own.
-/

namespace ConstructorInjection

/-- The copy and its source agree until the copy begins afresh. -/
def Copies (copy source : Text) : Prop :=
  ∃ common copyRest sourceRest, copy = common ++ copyRest ∧ source = common ++ sourceRest ∧
    Fresh copyRest

theorem Copies.of_fresh {copy : Text} (fresh : Fresh copy) (source : Text) : Copies copy source :=
  ⟨[], copy, source, rfl, rfl, fresh⟩

theorem Copies.append {copy source : Text} (text : Text) (copies : Copies copy source) :
    Copies (text ++ copy) (text ++ source) := by
  obtain ⟨common, copyRest, sourceRest, rfl, rfl, fresh⟩ := copies
  exact ⟨text ++ common, copyRest, sourceRest, by simp, by simp, fresh⟩

theorem Copies.head? {copy source : Text} (copies : Copies copy source) :
    copy.head? = source.head? ∨ Fresh copy := by
  obtain ⟨common, copyRest, sourceRest, rfl, rfl, fresh⟩ := copies
  cases common with
  | nil => exact .inr fresh
  | cons first others => exact .inl rfl

/-- A line feed that the copy begins with is copied. -/
theorem Copies.feed {copy source : Text} (copies : Copies copy source)
    (begins : copy.head? = some '\n') : source.head? = some '\n' := by
  rcases copies.head? with same | fresh
  · exact same ▸ begins
  · exact absurd begins (fresh.head?_ne (by decide))

/-- The text ends a line comment in front of it. -/
def EndsComment (text : Text) : Prop :=
  text.head? = some '\n' ∨ text.take 2 = ['?', '>']

theorem lineCommentExtent_copied {body source copy : Text}
    (extent : lineCommentExtent (body ++ source) = body.length) (ends : EndsComment copy) :
    lineCommentExtent (body ++ copy) = body.length := by
  induction body with
  | nil =>
      rcases ends with feed | tag
      · obtain ⟨more, rfl⟩ := List.head?_eq_some_iff.mp feed
        rfl
      · match copy, tag with
        | mark :: bracket :: more, tag =>
            simp only [List.take_succ_cons, List.take_zero, List.cons.injEq, and_true] at tag
            obtain ⟨rfl, rfl⟩ := tag
            rfl
  | cons first body ih =>
      rw [List.cons_append, lineCommentExtent.eq_def] at extent
      split at extent
      · contradiction
      · contradiction
      · contradiction
      next notFeed notTag cut =>
        obtain ⟨rfl, rfl⟩ := List.cons.inj cut
        rw [List.cons_append, lineCommentExtent, ih (Nat.succ.inj extent), List.length_cons]
        · rintro rfl
          exact notFeed rfl
        · intro more isMark tag
          cases body with
          | nil =>
              rcases ends with feed | closes
              · rw [List.nil_append] at tag
                simp [tag] at feed
              · rw [List.nil_append] at tag
                simp [tag] at closes
          | cons second body =>
              obtain ⟨rfl, _⟩ := List.cons.inj tag
              exact notTag _ isMark rfl

theorem blockCommentExtent_pos {text : Text} {extent : Nat}
    (result : blockCommentExtent text = some extent) : 0 < extent := by
  rw [blockCommentExtent.eq_def] at result
  split at result
  · contradiction
  · cases result
    exact Nat.two_pos
  · obtain ⟨_, _, rfl⟩ := Option.map_eq_some_iff.mp result
    exact Nat.succ_pos _

theorem blockCommentExtent_copied {body source : Text} {extent : Nat} (copy : Text)
    (result : blockCommentExtent (body ++ source) = some extent) (inside : extent ≤ body.length) :
    blockCommentExtent (body ++ copy) = some extent := by
  induction body generalizing extent with
  | nil => exact absurd (blockCommentExtent_pos result) (by simpa using inside)
  | cons first body ih =>
      rw [List.cons_append, blockCommentExtent.eq_def] at result
      split at result
      · contradiction
      next cut =>
        cases result
        obtain ⟨rfl, slash⟩ := List.cons.inj cut
        cases body with
        | nil => simp at inside
        | cons second body =>
            obtain ⟨rfl, _⟩ := List.cons.inj slash
            rfl
      next notEnd cut =>
        obtain ⟨rfl, rfl⟩ := List.cons.inj cut
        obtain ⟨shorter, later, rfl⟩ := Option.map_eq_some_iff.mp result
        rw [List.cons_append, blockCommentExtent, ih later (Nat.le_of_succ_le_succ inside)]
        · rfl
        · intro more isStar slash
          cases body with
          | nil => exact absurd (blockCommentExtent_pos later) (by simpa using inside)
          | cons second body =>
              obtain ⟨rfl, _⟩ := List.cons.inj slash
              exact notEnd _ isStar rfl

theorem quotedExtent_pos {quote : Char} {text : Text} {extent : Nat}
    (result : quotedExtent quote text = some extent) : 0 < extent := by
  rw [quotedExtent.eq_def] at result
  split at result
  · contradiction
  · contradiction
  · obtain ⟨_, _, rfl⟩ := Option.map_eq_some_iff.mp result
    exact Nat.succ_pos _
  · split at result
    · cases result
      exact Nat.one_pos
    · obtain ⟨_, _, rfl⟩ := Option.map_eq_some_iff.mp result
      exact Nat.succ_pos _

theorem quotedExtent_cons {quote first : Char} (noEscape : first ≠ '\\') (rest : Text) :
    quotedExtent quote (first :: rest) =
      if first = quote then some 1 else (quotedExtent quote rest).map (· + 1) := by
  rw [quotedExtent]
  · rintro rfl
    contradiction
  · rintro _ _ rfl
    contradiction

theorem quotedExtent_copied {quote : Char} {body source : Text} {extent : Nat} (copy : Text)
    (result : quotedExtent quote (body ++ source) = some extent) (inside : extent ≤ body.length) :
    quotedExtent quote (body ++ copy) = some extent := by
  generalize size : body.length = length
  induction length using Nat.strongRecOn generalizing body extent with
  | ind length ih =>
      cases body with
      | nil => exact absurd (quotedExtent_pos result) (by simpa using inside)
      | cons first body =>
          rw [List.length_cons] at size inside
          by_cases escape : first = '\\'
          · subst escape
            -- The backslash takes the next character with it, which is part of the body.
            cases body with
            | nil =>
                cases source with
                | nil => contradiction
                | cons next source =>
                    obtain ⟨_, _, rfl⟩ := Option.map_eq_some_iff.mp result
                    simp at inside
            | cons second body =>
                rw [List.length_cons] at size inside
                obtain ⟨shorter, later, rfl⟩ := Option.map_eq_some_iff.mp result
                have further := ih _ (by omega) later (by omega) rfl
                rw [List.cons_append, List.cons_append, quotedExtent, further]
                rfl
          · rw [List.cons_append, quotedExtent_cons escape] at result ⊢
            split at result
            next closes => rw [if_pos closes, result]
            next other =>
              obtain ⟨shorter, later, rfl⟩ := Option.map_eq_some_iff.mp result
              rw [if_neg other, ih _ (by omega) later (by omega) rfl]
              rfl

section Heredoc

variable {label : Text} (named : ∀ character ∈ label, isLabelPart character = true)
  (nonempty : label ≠ [])

include named nonempty in
theorem head?_isBlank (rest : Text) : (label ++ rest).head?.any isBlank = false := by
  obtain ⟨first, others, rfl⟩ := List.exists_cons_of_ne_nil nonempty
  have part := named first (by simp)
  rw [List.cons_append, List.head?_cons, Option.any_some, Bool.eq_false_iff]
  intro blank
  simp only [isBlank, Bool.or_eq_true, beq_iff_eq] at blank
  rcases blank with rfl | rfl <;> contradiction

include named nonempty in
theorem closingLabelLength?_eq_some_iff {line : Text} {length : Nat} :
    closingLabelLength? label line = some length ↔
      ∃ blanks more, line = blanks ++ (label ++ more) ∧
        (∀ character ∈ blanks, isBlank character = true) ∧
        more.head?.any isLabelPart = false ∧ length = blanks.length + label.length := by
  unfold closingLabelLength?
  extract_lets blanks
  constructor
  · intro closing
    split at closing
    next behind starts =>
      split at closing
      next => contradiction
      next stops =>
        cases closing
        rw [Text.dropStart?] at starts
        split at starts
        next isPrefix =>
          cases starts
          obtain ⟨more, cut⟩ := List.isPrefixOf_iff_prefix.mp isPrefix
          obtain ⟨others, whole⟩ := List.takeWhile_prefix (l := line) isBlank
          have dropped : line.drop blanks = others := by
            rw [← whole]
            exact List.drop_left' rfl
          rw [← cut, List.drop_left, Bool.not_eq_true] at stops
          refine ⟨line.takeWhile isBlank, more, ?_, List.all_eq_true.mp List.all_takeWhile, stops, rfl⟩
          rw [cut, dropped, whole]
        next => contradiction
    next => contradiction
  · rintro ⟨front, more, rfl, allBlank, stops, rfl⟩
    have front_eq : (front ++ (label ++ more)).takeWhile isBlank = front :=
      takeWhile_append_of_stop allBlank (head?_isBlank named nonempty more)
    simp only [blanks, front_eq, List.drop_left, Text.dropStart?]
    simp [stops]

include named nonempty in
theorem heredocBodyExtent_pos {text : Text} {atLineStart : Bool} {extent : Nat}
    (result : heredocBodyExtent label atLineStart text = some extent) : 0 < extent := by
  cases text with
  | nil => contradiction
  | cons first rest =>
      rw [heredocBodyExtent] at result
      split at result
      next length closing =>
        cases result
        obtain ⟨_, closes⟩ := Option.ite_none_right_eq_some.mp closing
        obtain ⟨_, _, _, _, _, rfl⟩ := (closingLabelLength?_eq_some_iff named nonempty).mp closes
        exact Nat.add_pos_right _ (List.length_pos_iff.mpr nonempty)
      next =>
        obtain ⟨_, _, rfl⟩ := Option.map_eq_some_iff.mp result
        exact Nat.succ_pos _

theorem newline_mem_of_heredocBodyExtent {text : Text} {extent : Nat}
    (result : heredocBodyExtent label false text = some extent) : '\n' ∈ text.take extent := by
  induction text generalizing extent with
  | nil => contradiction
  | cons first rest ih =>
      obtain ⟨shorter, later, rfl⟩ := Option.map_eq_some_iff.mp result
      rw [List.take_succ_cons]
      by_cases feed : first = '\n'
      · simp [feed]
      · rw [beq_eq_false_iff_ne.mpr feed] at later
        exact List.mem_cons_of_mem _ (ih later)

include named nonempty in
/-- A heredoc ends where it ends in front of any text that does not go on with its label. -/
theorem heredocBodyExtent_copied {body source : Text} {atLineStart : Bool} (copy : Text)
    (result : heredocBodyExtent label atLineStart (body ++ source) = some body.length) :
    source.head?.any isLabelPart = false ∧
      (copy.head?.any isLabelPart = false →
        heredocBodyExtent label atLineStart (body ++ copy) = some body.length) := by
  induction body generalizing atLineStart with
  | nil => exact absurd (heredocBodyExtent_pos named nonempty result) (Nat.lt_irrefl 0)
  | cons first body ih =>
      rw [List.cons_append, heredocBodyExtent] at result
      split at result
      next length closing =>
        obtain ⟨atStart, closes⟩ := Option.ite_none_right_eq_some.mp closing
        obtain ⟨blanks, more, cut, allBlank, stops, rfl⟩ :=
          (closingLabelLength?_eq_some_iff named nonempty).mp closes
        have size := Option.some.inj result
        have whole : (first :: body) ++ source = (blanks ++ label) ++ more := by
          rw [List.cons_append, cut, List.append_assoc]
        obtain ⟨isClosing, rfl⟩ := List.append_inj whole (by rw [List.length_append, size])
        refine ⟨stops, fun copyStops => ?_⟩
        have closesCopy : closingLabelLength? label (first :: (body ++ copy)) =
            some (blanks.length + label.length) :=
          (closingLabelLength?_eq_some_iff named nonempty).mpr
            ⟨blanks, copy, by rw [← List.cons_append, isClosing, List.append_assoc], allBlank,
              copyStops, rfl⟩
        rw [List.cons_append, heredocBodyExtent, if_pos atStart, closesCopy, size]
      next notHere =>
        obtain ⟨length, later, equal⟩ := Option.map_eq_some_iff.mp result
        cases equal
        obtain ⟨stops, further⟩ := ih later
        refine ⟨stops, fun copyStops => ?_⟩
        rw [List.cons_append, heredocBodyExtent, further copyStops]
        -- The label of this line would end before the line feed that the body still has.
        have notInCopy : (if atLineStart then closingLabelLength? label (first :: (body ++ copy))
            else none) = none := by
          rw [Option.eq_none_iff_forall_ne_some]
          intro found closing
          obtain ⟨atStart, closes⟩ := Option.ite_none_right_eq_some.mp closing
          obtain ⟨blanks, more, cut, allBlank, copyMore, rfl⟩ :=
            (closingLabelLength?_eq_some_iff named nonempty).mp closes
          have feed : '\n' ∈ first :: body := by
            by_cases isFeed : first = '\n'
            · simp [isFeed]
            · rw [beq_eq_false_iff_ne.mpr isFeed] at later
              have inBody := newline_mem_of_heredocBodyExtent later
              rw [List.take_left] at inBody
              exact List.mem_cons_of_mem _ inBody
          have noFeed : '\n' ∉ blanks ++ label := by
            rw [List.mem_append]
            rintro (inBlanks | inLabel)
            · exact absurd (allBlank _ inBlanks) (by decide)
            · exact absurd (named _ inLabel) (by decide)
          have whole : (first :: body) ++ copy = (blanks ++ label) ++ more := by
            rw [List.cons_append, cut, List.append_assoc]
          rcases List.append_eq_append_iff.mp whole with ⟨beyond, reaches, _⟩ | ⟨within, isBody, rfl⟩
          · exact noFeed (reaches ▸ List.mem_append_left _ feed)
          · cases within with
            | nil => exact noFeed (by rwa [isBody, List.append_nil] at feed)
            | cons next within =>
                have closesHere : closingLabelLength? label (first :: (body ++ source)) =
                    some (blanks.length + label.length) :=
                  (closingLabelLength?_eq_some_iff named nonempty).mpr
                    ⟨blanks, next :: within ++ source, by
                      rw [← List.cons_append, isBody, List.append_assoc, List.append_assoc],
                      allBlank, copyMore, rfl⟩
                rw [if_pos atStart, closesHere] at notHere
                contradiction
        rw [notInCopy]
        rfl

end Heredoc

/-- The quote in front of a heredoc's label. -/
def openingQuote : Text → Text
  | '\'' :: _ => ['\'']
  | '"' :: _ => ['"']
  | _ => []

def lineBreakLength : Text → Nat
  | '\r' :: '\n' :: _ => 2
  | '\n' :: _ => 1
  | _ => 0

theorem heredocExtent_eq (text : Text) :
    heredocExtent text =
      let behind := text.drop (text.takeWhile isBlank).length
      let quote := openingQuote behind
      let label := leadingLabel (behind.drop quote.length)
      match label, Text.dropStart? quote (behind.drop (quote.length + label.length)) with
      | [], _ | _, none => .malformed
      | label, some afterOpener =>
        if lineBreakLength afterOpener = 0 then .malformed
        else
          match heredocBodyExtent label true (afterOpener.drop (lineBreakLength afterOpener)) with
          | some body =>
            .closed ((text.takeWhile isBlank).length + 2 * quote.length + label.length +
              lineBreakLength afterOpener + body)
          | none => .unterminated :=
  rfl

/-- What stands between `<<<` and the body of a heredoc. -/
inductive HeredocOpener (label : Text) : Text → Prop where
  | mk {blanks quote lineBreak : Text}
      (allBlank : ∀ character ∈ blanks, isBlank character = true)
      (quoted : quote = [] ∨ quote = ['\''] ∨ quote = ['"']) (isLabel : IsLabel label)
      (breaks : lineBreak = ['\r', '\n'] ∨ lineBreak = ['\n']) :
      HeredocOpener label (blanks ++ (quote ++ (label ++ (quote ++ lineBreak))))

theorem HeredocOpener.isLabel {label opener : Text} (isOpener : HeredocOpener label opener) :
    IsLabel label := by
  cases isOpener
  assumption

theorem isLabel_leadingLabel {text : Text} (nonempty : leadingLabel text ≠ []) :
    IsLabel (leadingLabel text) ∧ leadingLabel text ++ text.drop (leadingLabel text).length = text := by
  have length : (leadingLabel text).length = labelLength text := by
    rw [leadingLabel, List.length_take, Nat.min_eq_left (labelLength_le_length text)]
  refine ⟨?_, by rw [length, leadingLabel, List.take_append_drop]⟩
  cases text with
  | nil => contradiction
  | cons first rest =>
      rw [leadingLabel, labelLength] at nonempty ⊢
      split at nonempty
      next start =>
        rw [if_pos start, List.take_succ_cons,
          ← List.prefix_iff_eq_take.mp (List.takeWhile_prefix isLabelPart)]
        exact .mk start (List.all_eq_true.mp List.all_takeWhile)
      next => contradiction

theorem openingQuote_append (text : Text) :
    (openingQuote text = [] ∨ openingQuote text = ['\''] ∨ openingQuote text = ['"']) ∧
      openingQuote text ++ text.drop (openingQuote text).length = text := by
  rw [openingQuote.eq_def]
  split
  · exact ⟨.inr (.inl rfl), rfl⟩
  · exact ⟨.inr (.inr rfl), rfl⟩
  · exact ⟨.inl rfl, rfl⟩

theorem exists_lineBreak {text : Text} (breaks : lineBreakLength text ≠ 0) :
    ∃ lineBreak, text = lineBreak ++ text.drop (lineBreakLength text) ∧
      lineBreak.length = lineBreakLength text ∧ (lineBreak = ['\r', '\n'] ∨ lineBreak = ['\n']) := by
  rw [lineBreakLength.eq_def] at breaks ⊢
  split at breaks
  · exact ⟨['\r', '\n'], rfl, rfl, .inl rfl⟩
  · exact ⟨['\n'], rfl, rfl, .inr rfl⟩
  · contradiction

theorem exists_heredocOpener {text : Text} (formed : heredocExtent text ≠ .malformed) :
    ∃ label opener rest, text = opener ++ rest ∧ HeredocOpener label opener := by
  rw [heredocExtent_eq] at formed
  extract_lets behind quote label at formed
  split at formed
  · contradiction
  · contradiction
  next afterOpener opened nonempty =>
    split at formed
    next => contradiction
    next breaks =>
      obtain ⟨others, blanksCut⟩ := List.takeWhile_prefix (l := text) isBlank
      have isBehind : behind = others :=
        calc behind = (text.takeWhile isBlank ++ others).drop (text.takeWhile isBlank).length := by
              rw [blanksCut]
          _ = others := List.drop_left
      have quoteParts : (quote = [] ∨ quote = ['\''] ∨ quote = ['"']) ∧
          quote ++ behind.drop quote.length = behind := openingQuote_append behind
      have labelParts : IsLabel label ∧ label ++ behind.drop (quote.length + label.length) =
          behind.drop quote.length := by
        rw [← List.drop_drop]
        exact isLabel_leadingLabel nonempty
      have openerCut : behind.drop (quote.length + label.length) = quote ++ afterOpener := by
        rw [Text.dropStart?] at opened
        split at opened
        next isPrefix =>
          cases opened
          obtain ⟨more, cut⟩ := List.isPrefixOf_iff_prefix.mp isPrefix
          rw [← cut, List.drop_left]
        next => contradiction
      obtain ⟨lineBreak, breakCut, -, isBreak⟩ := exists_lineBreak breaks
      have allBlank : ∀ character ∈ text.takeWhile isBlank, isBlank character = true :=
        List.all_eq_true.mp List.all_takeWhile
      refine ⟨label, _, afterOpener.drop (lineBreakLength afterOpener), ?_,
        .mk allBlank quoteParts.1 labelParts.1 isBreak⟩
      simp only [List.append_assoc]
      rw [← breakCut, ← openerCut, labelParts.2, quoteParts.2, isBehind, blanksCut]

theorem leadingLabel_append {label rest : Text} (isLabel : IsLabel label)
    (stop : rest.head?.any isLabelPart = false) : leadingLabel (label ++ rest) = label := by
  rw [leadingLabel, isLabel.labelLength_append stop, List.take_left]

theorem openingQuote_of_isLabel {quote label : Text} (isLabel : IsLabel label)
    (quoted : quote = [] ∨ quote = ['\''] ∨ quote = ['"']) (rest : Text) :
    openingQuote (quote ++ (label ++ rest)) = quote := by
  rcases quoted with rfl | rfl | rfl
  · obtain ⟨first, others, rfl, start⟩ := isLabel.exists_cons
    rw [List.nil_append, List.cons_append, openingQuote]
    · rintro _ ⟨rfl, _⟩
      contradiction
    · rintro _ ⟨rfl, _⟩
      contradiction
  · rfl
  · rfl

/-- How far a heredoc reaches behind an opener of some length and a body that ends or not. -/
def HeredocExtent.behind (length : Nat) : Option Nat → HeredocExtent
  | some body => .closed (length + body)
  | none => .unterminated

theorem HeredocOpener.heredocExtent {label opener : Text} (isOpener : HeredocOpener label opener)
    (rest : Text) :
    heredocExtent (opener ++ rest) =
      .behind opener.length (heredocBodyExtent label true rest) := by
  cases isOpener with
  | @mk blanks quote lineBreak allBlank quoted isLabel breaks =>
      have behindBlanks : (quote ++ (label ++ (quote ++ (lineBreak ++ rest)))).head?.any isBlank =
          false := by
        rcases quoted with rfl | rfl | rfl
        · exact head?_isBlank isLabel.parts isLabel.ne_nil _
        · rfl
        · rfl
      have behindLabel : (quote ++ (lineBreak ++ rest)).head?.any isLabelPart = false := by
        rcases quoted with rfl | rfl | rfl <;> rcases breaks with rfl | rfl <;> rfl
      have breakLength : lineBreakLength (lineBreak ++ rest) = lineBreak.length := by
        rcases breaks with rfl | rfl <;> rfl
      have positive : lineBreak.length ≠ 0 := by
        rcases breaks with rfl | rfl <;> simp
      have opened : Text.dropStart? quote (quote ++ (lineBreak ++ rest)) = some (lineBreak ++ rest) := by
        simp [Text.dropStart?]
      simp only [List.append_assoc]
      rw [heredocExtent_eq]
      simp only [takeWhile_append_of_stop allBlank behindBlanks, List.drop_left,
        openingQuote_of_isLabel isLabel quoted, leadingLabel_append isLabel behindLabel,
        ← List.drop_drop, opened]
      obtain ⟨first, others, rfl, _⟩ := isLabel.exists_cons
      simp only [breakLength, positive, if_false, List.drop_left, List.length_append]
      cases heredocBodyExtent (first :: others) true rest with
      | none => rfl
      | some body =>
          simp only [HeredocExtent.behind, HeredocExtent.closed.injEq]
          omega

theorem heredocExtent_eq_closed {text : Text} {length : Nat}
    (result : heredocExtent text = .closed length) :
    ∃ label opener rest extent, text = opener ++ rest ∧ HeredocOpener label opener ∧
      heredocBodyExtent label true rest = some extent ∧ length = opener.length + extent := by
  obtain ⟨label, opener, rest, rfl, isOpener⟩ := exists_heredocOpener (by rw [result]; simp)
  rw [isOpener.heredocExtent] at result
  cases closed : heredocBodyExtent label true rest with
  | none =>
      rw [closed] at result
      contradiction
  | some extent =>
      rw [closed] at result
      cases result
      exact ⟨label, opener, rest, extent, rfl, isOpener, closed, rfl⟩

theorem heredocExtent_copied {body source : Text} (copy : Text)
    (result : heredocExtent (body ++ source) = .closed body.length) :
    source.head?.any isLabelPart = false ∧ (copy.head?.any isLabelPart = false →
      heredocExtent (body ++ copy) = .closed body.length) := by
  obtain ⟨label, opener, rest, extent, cut, isOpener, closed, size⟩ := heredocExtent_eq_closed result
  have isLabel := isOpener.isLabel
  obtain ⟨inner, rfl, rfl⟩ : ∃ inner, body = opener ++ inner ∧ rest = inner ++ source := by
    rcases List.append_eq_append_iff.mp cut with ⟨beyond, rfl, rfl⟩ | ⟨inner, rfl, rfl⟩
    · have short : beyond = [] := by
        rw [List.length_append] at size
        exact List.length_eq_zero_iff.mp (by omega)
      exact ⟨[], by simp [short], by simp [short]⟩
    · exact ⟨inner, rfl, rfl⟩
  rw [List.length_append, Nat.add_left_cancel_iff] at size
  subst size
  obtain ⟨stops, further⟩ := heredocBodyExtent_copied isLabel.parts isLabel.ne_nil copy closed
  refine ⟨stops, fun copyStops => ?_⟩
  rw [List.append_assoc, isOpener.heredocExtent, further copyStops, List.length_append]
  rfl

/-- The open tag whose first five characters stand in front of a text. -/
def phpTagAt? (rest : Text) : Option OpenTag :=
  openTagAt? ('<' :: '?' :: 'p' :: 'h' :: 'p' :: rest)

theorem phpTagAt?_cons (first : Char) (rest : Text) :
    phpTagAt? (first :: rest) =
      if first = '\r' ∧ rest.head? = some '\n' then some ⟨.openTag, 7, by decide⟩
      else if isLineSpace first = true then some ⟨.openTag, 6, by decide⟩
      else none := by
  by_cases isReturn : first = '\r'
  · subst isReturn
    cases rest with
    | nil => rfl
    | cons second rest =>
        by_cases feed : second = '\n'
        · subst feed
          rfl
        · simp [phpTagAt?, openTagAt?, Text.equalIgnoringCase, feed, isLineSpace]
  · rw [if_neg fun both => isReturn both.1]
    by_cases space : isLineSpace first = true
    · rw [if_pos space]
      simp only [isLineSpace, isBlank, Bool.or_eq_true, beq_iff_eq] at space
      rcases space with ((rfl | rfl) | rfl) | rfl
      · rfl
      · rfl
      · contradiction
      · rfl
    · rw [if_neg space]
      simp only [isLineSpace, isBlank, Bool.or_eq_true, beq_iff_eq, not_or] at space
      obtain ⟨⟨⟨noBlank, noTab⟩, _⟩, noFeed⟩ := space
      simp [phpTagAt?, openTagAt?, Text.equalIgnoringCase, isReturn, noBlank, noTab, noFeed]

theorem openTagAt?_eq (text : Text) :
    openTagAt? text =
      if text.take 3 = ['<', '?', '='] then some ⟨.openTagWithEcho, 3, by decide⟩
      else if text.take 2 = ['<', '?'] ∧ Text.equalIgnoringCase ((text.drop 2).take 3) "php" = true then
        phpTagAt? (text.drop 5)
      else none := by
  unfold openTagAt?
  split
  · rfl
  next p h q rest notEcho =>
    have noEcho : ('<' :: '?' :: p :: h :: q :: rest).take 3 ≠ ['<', '?', '='] := by
      simpa using notEcho
    rw [if_neg noEcho]
    by_cases php : Text.equalIgnoringCase [p, h, q] "php" = true
    · rw [if_pos php, if_pos ⟨rfl, php⟩]
      rfl
    · rw [if_neg php, if_neg fun both => php both.2]
  next notEcho notTag =>
    rw [if_neg, if_neg]
    · rintro ⟨starts, php⟩
      have length := congrArg List.length (beq_iff_eq.mp php)
      rw [List.length_map, List.length_map] at length
      obtain ⟨p, h, q, tail⟩ := List.length_eq_three.mp length
      have rest := List.take_append_drop 3 (text.drop 2)
      rw [tail] at rest
      refine notTag p h q ((text.drop 2).drop 3) ?_
      rw [← List.take_append_drop 2 text, starts, ← rest]
      simp
    · intro starts
      refine notEcho (text.drop 3) ?_
      conv_lhs => rw [← List.take_append_drop 3 text, starts]
      rfl

/-- No tag begins in front of another one and reaches into it. -/
theorem openTagAt?_before {html source copy : Text} (nonempty : html ≠ [])
    (sourceTag : source.head? = some '<') (copyTag : copy.head? = some '<') :
    openTagAt? (html ++ source) = openTagAt? (html ++ copy) := by
  obtain ⟨source, rfl⟩ := List.head?_eq_some_iff.mp sourceTag
  obtain ⟨copy, rfl⟩ := List.head?_eq_some_iff.mp copyTag
  match html with
  | [a] => simp [openTagAt?_eq]
  | [a, b] => simp [openTagAt?_eq, Text.equalIgnoringCase]
  | [a, b, c] => simp [openTagAt?_eq, Text.equalIgnoringCase]
  | [a, b, c, d] => simp [openTagAt?_eq, Text.equalIgnoringCase]
  | [a, b, c, d, e] => simp [openTagAt?_eq, Text.equalIgnoringCase, phpTagAt?_cons]
  | [a, b, c, d, e, f] => simp [openTagAt?_eq, Text.equalIgnoringCase, phpTagAt?_cons]
  | a :: b :: c :: d :: e :: f :: g :: html =>
    simp [openTagAt?_eq, Text.equalIgnoringCase, phpTagAt?_cons]

theorem phpTagAt?_length {rest : Text} {tag : OpenTag} (found : phpTagAt? rest = some tag) :
    (rest = [] → tag.length = 5) ∧ (rest ≠ [] → 5 < tag.length) := by
  cases rest with
  | nil =>
      cases found
      simp
  | cons first rest =>
      rw [phpTagAt?_cons] at found
      split at found
      · cases found
        simp
      · split at found
        · cases found
          simp
        · contradiction

theorem phpTagAt?_copied {behind source copy : Text} {tag : OpenTag}
    (found : phpTagAt? (behind ++ source) = some tag) (size : tag.length = behind.length + 5)
    (more : source ≠ []) (feed : copy.head? = some '\n' → source.head? = some '\n') :
    phpTagAt? (behind ++ copy) = some tag := by
  match behind with
  | [] =>
    have longer := (phpTagAt?_length found).2 more
    rw [size, List.length_nil] at longer
    omega
  | [first] =>
    rw [List.singleton_append, phpTagAt?_cons] at found ⊢
    split at found
    next =>
      cases found
      simp at size
    next noFeed =>
      rw [if_neg, found]
      rintro ⟨isReturn, begins⟩
      exact noFeed ⟨isReturn, feed begins⟩
  | first :: second :: behind =>
    rw [List.cons_append, phpTagAt?_cons] at found ⊢
    exact found

/-- A tag is the same in front of any text that begins with a line feed only if its rest does. -/
theorem openTagAt?_copied {text source copy : Text} {tag : OpenTag}
    (found : openTagAt? (text ++ source) = some tag) (size : tag.length = text.length)
    (more : source ≠ []) (feed : copy.head? = some '\n' → source.head? = some '\n') :
    openTagAt? (text ++ copy) = some tag := by
  rw [openTagAt?_eq] at found ⊢
  split at found
  next echo =>
    cases found
    have whole : (text ++ copy).take 3 = ['<', '?', '='] := by
      rw [← echo, List.take_append_of_le_length (Nat.le_of_eq size),
        List.take_append_of_le_length (Nat.le_of_eq size)]
    rw [if_pos whole]
  next noEcho =>
    split at found
    next php =>
      have long : 5 ≤ text.length := by
        have bounds := phpTagAt?_length found
        by_cases short : (text ++ source).drop 5 = []
        · exact size ▸ Nat.le_of_eq (bounds.1 short).symm
        · exact size ▸ Nat.le_of_lt (bounds.2 short)
      have inFront (count : Nat) (few : count ≤ 5) (behind : Text) :
          (text ++ behind).drop count = text.drop count ++ behind :=
        List.drop_append_of_le_length (Nat.le_trans few long)
      have begins (count : Nat) (few : count ≤ 5) (behind : Text) :
          (text ++ behind).take count = text.take count :=
        List.take_append_of_le_length (Nat.le_trans few long)
      have word (behind : Text) : ((text ++ behind).drop 2).take 3 = (text.drop 2).take 3 := by
        rw [inFront 2 (by decide), List.take_append_of_le_length]
        rw [List.length_drop]
        omega
      rw [begins 3 (by decide)] at noEcho ⊢
      rw [begins 2 (by decide), word] at php ⊢
      rw [if_neg noEcho, if_pos php, inFront 5 (Nat.le_refl 5)]
      rw [inFront 5 (Nat.le_refl 5)] at found
      refine phpTagAt?_copied found ?_ more feed
      rw [List.length_drop, size]
      omega
    next => contradiction

theorem htmlExtent_copied {body source copy : Text}
    (extent : htmlExtent (body ++ source) = body.length) (sourceTag : source.head? = some '<')
    (copyTag : (openTagAt? copy).isSome = true) : htmlExtent (body ++ copy) = body.length := by
  have begins : copy.head? = some '<' := by
    obtain ⟨tag, found⟩ := Option.isSome_iff_exists.mp copyTag
    exact (openTagAt?_ends found).1
  induction body with
  | nil =>
      cases copy with
      | nil => contradiction
      | cons first copy => rw [List.nil_append, htmlExtent, if_pos copyTag, List.length_nil]
  | cons first body ih =>
      have same := openTagAt?_before (List.cons_ne_nil first body) sourceTag begins
      rw [List.cons_append, htmlExtent] at extent ⊢
      rw [List.cons_append, List.cons_append] at same
      rw [same] at extent
      split at extent
      next => contradiction
      next noTag => rw [if_neg noTag, ih (Nat.succ.inj extent), List.length_cons]

end ConstructorInjection
