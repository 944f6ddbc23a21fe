import Mathlib.Data.List.Chain
import Mathlib.Tactic.Common
import ConstructorInjection.Proofs.CallSites
import ConstructorInjection.Proofs.Editing
import ConstructorInjection.Proofs.Generated
import ConstructorInjection.Proofs.LineBreaks
import ConstructorInjection.Proofs.Lossless
import ConstructorInjection.Proofs.ParameterLists
import ConstructorInjection.Proofs.TokenTexts

/-!
Streams in which every line feed is behind one carriage return, and the edits that keep them so. An
edit changes the line breaks at its two ends only, so it is enough to compare the carriage returns
that are behind there before and after it.
-/

namespace ConstructorInjection

/-- Tokens such as the lexer reads, with every line feed behind one carriage return. -/
structure PairedTokens (stream : List Token) : Prop where
  spelled : ∀ token ∈ stream, token.WellSpelled
  meets : stream.IsChain Token.Meets
  paired : Text.Paired (textOf stream)

theorem pairedTokens_of_tokenize {source : Text} {stream : TokenStream}
    (lexed : tokenize source = .ok stream) (paired : Text.Paired source) : PairedTokens stream := by
  obtain ⟨_, lexes⟩ := exists_lexes_of_lexed (.inl lexed)
  refine ⟨lexes.wellSpelled, lexes.meets, ?_⟩
  rwa [lexes.textOf_eq]

/-- Generated code keeps its text and is well spelled. -/
theorem synthesize_spelled {code : Text} {tokens : List Token} (result : synthesize code = .ok tokens) :
    textOf tokens = code ∧ (∀ token ∈ tokens, token.WellSpelled) ∧
      tokens.IsChain Token.Meets ∧ ∀ first ∈ tokens.head?, first.kind ≠ .inlineHtml := by
  refine ⟨textOf_of_synthesize result, ?_⟩
  rw [synthesize] at result
  cases lexed : lexFragment code with
  | error fault =>
    rw [lexed] at result
    contradiction
  | ok read =>
  rw [lexed] at result
  cases result
  have lexes := Lexes.of_lexFrom lexed
  refine ⟨?_, ?_, ?_⟩
  · intro token member
    obtain ⟨original, isRead, rfl⟩ := List.mem_map.mp member
    exact ⟨(lexes.wellSpelled original isRead).nonempty, (lexes.wellSpelled original isRead).first,
      (lexes.wellSpelled original isRead).delimiter⟩
  · rw [List.isChain_map]
    exact lexes.meets.imp fun _ _ meets => ⟨meets.feed, meets.html⟩
  · cases read with
    | nil => simp
    | cons first _ =>
        rintro _ ⟨⟩ isHtml
        exact absurd (lexes.mode_of_html isHtml).1 (by decide)

theorem Token.WellSpelled.text_head? {token : Token} (spelled : token.WellSpelled)
    (rest : List Token) : (textOf (token :: rest)).head? = token.text.head? := by
  rw [textOf_cons, List.head?_append_of_ne_nil _ spelled.nonempty]

namespace TokenStream

/-- The carriage returns directly before an index; none when a line feed before it has not exactly
one. -/
def returnsAt? (stream : TokenStream) (index : Nat) : Option Nat :=
  Text.returnsBehind 0 (ConstructorInjection.textOf (stream.take index))

theorem returnsAt?_slice {stream : TokenStream} {start stop : Nat} (ordered : start ≤ stop) :
    stream.returnsAt? stop = (stream.returnsAt? start).bind
      (Text.returnsBehind · (ConstructorInjection.textOf (stream.slice ⟨start, stop⟩))) := by
  rw [returnsAt?, ← stream.take_append_slice ordered, textOf_append, Text.returnsBehind_append,
    returnsAt?]

theorem returnsAt?_behind {stream : TokenStream} {index returns : Nat} {token : Token} {last : Char}
    (found : stream[index]? = some token) (ends : token.text.getLast? = some last)
    (noReturn : last ≠ '\r') (read : stream.returnsAt? (index + 1) = some returns) : returns = 0 := by
  refine Text.returnsBehind_eq_zero read ?_ noReturn
  rw [List.take_add_one, found, textOf_append, Option.toList_some, textOf_cons, List.getLast?_append,
    List.getLast?_append, ends]
  rfl

/-- A range that begins and ends with more than blanks and comments, and not behind a close tag. -/
structure Trimmed (stream : TokenStream) (range : IndexRange) : Prop where
  ordered : 0 < range.start ∧ range.start < range.stop
  previous : ∀ previous ∈ stream[range.start - 1]?, previous.kind ≠ .closeTag
  first : ∃ first, stream[range.start]? = some first ∧ first.isTrivia = false
  last : ∃ last, stream[range.stop - 1]? = some last ∧ last.isTrivia = false

/-- An item starts where the list does, or behind a comma. -/
theorem start_of_mem_splitFrom {stream : TokenStream} {start index depth : Nat}
    {tokens rest : List Token} {item : IndexRange} (cut : stream.drop index = tokens ++ rest)
    (member : item ∈ splitFrom start index depth tokens) :
    item.start = start ∨
      0 < item.start ∧ ∃ comma, stream[item.start - 1]? = some comma ∧ comma.kind = .comma := by
  induction tokens generalizing start index depth with
  | nil =>
      rw [splitFrom, List.mem_singleton] at member
      exact .inl (by rw [member])
  | cons token tokens ih =>
      obtain ⟨found, later⟩ := drop_eq_cons_iff.mp cut
      rw [splitFrom] at member
      split at member
      · exact ih later member
      · split at member
        · exact ih later member
        · split at member
          next isComma =>
            rcases List.mem_cons.mp member with rfl | member
            · exact .inl rfl
            · rcases ih later member with same | behind
              · refine .inr ⟨by omega, token, ?_, isComma.1⟩
                rw [same, Nat.add_sub_cancel]
                exact found
              · exact .inr behind
          next => exact ih later member

theorem trimmed_of_mem_splitTopLevel {stream : TokenStream} {opening closing : Nat}
    {item : IndexRange} {opener : Token} (found : stream[opening]? = some opener)
    (noTag : opener.kind ≠ .closeTag) (ordered : opening < closing)
    (bounded : closing ≤ stream.length)
    (member : item ∈ stream.splitTopLevel ⟨opening + 1, closing⟩) :
    stream.Trimmed (stream.trimTrivia item) := by
  obtain ⟨isItem, significant⟩ := List.mem_filter.mp member
  obtain ⟨token, inItem, noTrivia⟩ := List.any_eq_true.mp significant
  obtain ⟨index, lower, upper, _⟩ := mem_slice_iff.mp inItem
  have stop : item.stop ≤ stream.length :=
    Nat.le_trans (stop_le_of_mem_splitTopLevel (Nat.succ_le_of_lt ordered) member) bounded
  have whole : stream.drop (opening + 1) =
      stream.slice ⟨opening + 1, closing⟩ ++ stream.drop closing := by
    rw [← slice_to_end, ← slice_to_end, slice_append_slice _ (Nat.succ_le_of_lt ordered) bounded]
  have cut : stream.drop item.start = stream.slice item ++ stream.drop item.stop := by
    rw [← slice_to_end, ← slice_to_end, slice_append_slice _ (by omega) stop]
  have size : item.start + (stream.slice item).length = item.stop := by
    rw [length_slice]
    omega
  obtain ⟨before, core, behind, parts, blankBefore, blankBehind, trimmed, isFirst, isLast⟩ :=
    trimTrivia_parts (by omega) cut
  rw [size] at trimmed
  have inCore : core ≠ [] := by
    rintro rfl
    rw [parts, List.nil_append, List.mem_append] at inItem
    rcases inItem with blank | blank
    · simp [blankBefore token blank] at noTrivia
    · simp [blankBehind token blank] at noTrivia
  obtain ⟨first, others, opens⟩ := List.exists_cons_of_ne_nil inCore
  obtain ⟨inner, closes⟩ := List.getLast?_eq_some_iff.mp (List.getLast?_eq_some_getLast inCore)
  have lower := start_le_of_mem_splitTopLevel member
  have sizeCore := congrArg List.length closes
  rw [List.length_append, List.length_singleton] at sizeCore
  rw [trimmed]
  rw [parts] at cut
  refine ⟨⟨by simp only at lower ⊢; omega, by simp only; omega⟩, ?_,
    ⟨first, ?_, isFirst first (by rw [opens]; rfl)⟩,
    ⟨_, ?_, isLast _ (List.getLast?_eq_some_getLast inCore)⟩⟩
  · intro previous isPrevious
    rcases List.eq_nil_or_concat' before with none | ⟨front, last, concat⟩
    · rw [none, List.length_nil, Nat.add_zero] at isPrevious
      rcases start_of_mem_splitFrom whole isItem with same | ⟨_, comma, atComma, isComma⟩
      · rw [same, Nat.add_sub_cancel, found] at isPrevious
        cases isPrevious
        exact noTag
      · rw [atComma] at isPrevious
        cases isPrevious
        rw [isComma]
        nofun
    · rw [concat, List.append_assoc, List.append_assoc] at cut
      have atLast := getElem?_of_drop_eq cut
      rw [concat, List.length_append, List.length_singleton, ← Nat.add_assoc, Nat.add_sub_cancel,
        atLast] at isPrevious
      cases isPrevious
      have blank := blankBefore previous (by rw [concat]; simp)
      intro isTag
      rw [Token.isTrivia, isTag] at blank
      contradiction
  · rw [opens, List.append_assoc] at cut
    exact getElem?_of_drop_eq cut
  · rw [closes, List.append_assoc, List.append_assoc, List.append_assoc, ← List.append_assoc before]
      at cut
    have atLast := getElem?_of_drop_eq cut
    rw [List.length_append] at atLast
    rw [← atLast]
    congr 1
    simp only
    omega

end TokenStream

namespace PairedTokens

variable {stream : TokenStream}

theorem exists_returnsAt? (paired : PairedTokens stream) (index : Nat) :
    ∃ returns, stream.returnsAt? index = some returns ∧
      ∃ behind, Text.returnsBehind returns (textOf (stream.drop index)) = some behind := by
  obtain ⟨behind, read⟩ := Text.paired_iff.mp paired.paired
  rw [← List.take_append_drop index stream, textOf_append] at read
  obtain ⟨returns, front, later⟩ := Text.returnsBehind_parts read
  exact ⟨returns, front, behind, later⟩

theorem head?_drop (paired : PairedTokens stream) {index : Nat} {token : Token}
    (found : stream[index]? = some token) :
    (textOf (stream.drop index)).head? = token.text.head? := by
  obtain ⟨inside, rfl⟩ := List.getElem?_eq_some_iff.mp found
  rw [List.drop_eq_getElem_cons inside]
  exact (paired.spelled _ (List.getElem_mem inside)).text_head? _

theorem meets_at (paired : PairedTokens stream) {index : Nat} {token next : Token}
    (found : stream[index]? = some token) (foundNext : stream[index + 1]? = some next) :
    token.Meets next := by
  obtain ⟨inside, rfl⟩ := List.getElem?_eq_some_iff.mp found
  obtain ⟨insideNext, rfl⟩ := List.getElem?_eq_some_iff.mp foundNext
  exact List.isChain_iff_getElem.mp paired.meets index insideNext

/-- A trimmed range begins with no line break. -/
theorem head?_trimmed (paired : PairedTokens stream) {range : IndexRange}
    (trimmed : stream.Trimmed range) :
    (textOf (stream.drop range.start)).head?.any isLineSpace = false := by
  obtain ⟨first, found, content⟩ := trimmed.first
  obtain ⟨inside, _⟩ := List.getElem?_eq_some_iff.mp found
  have positive := trimmed.ordered.1
  have atPrevious := List.getElem?_eq_getElem (l := stream) (i := range.start - 1) (by omega)
  have atFirst : stream[range.start - 1 + 1]? = some first := by
    rw [Nat.sub_add_cancel positive, found]
  have meets := paired.meets_at atPrevious atFirst
  rw [paired.head?_drop found]
  refine (paired.spelled first (List.mem_of_getElem? found)).first ?_
    fun isHtml => trimmed.previous _ atPrevious (meets.html isHtml)
  intro isBlank
  rw [Token.isTrivia, isBlank] at content
  contradiction

/-- Behind a token that ends in no carriage return there is none. -/
theorem returnsAt?_behind (paired : PairedTokens stream) {index : Nat} {token : Token}
    (found : stream[index]? = some token) (noReturn : token.text.getLast? ≠ some '\r') :
    stream.returnsAt? (index + 1) = some 0 := by
  obtain ⟨returns, read, _⟩ := paired.exists_returnsAt? (index + 1)
  have nonempty := (paired.spelled token (List.mem_of_getElem? found)).nonempty
  have ends := List.getLast?_eq_some_getLast nonempty
  rw [TokenStream.returnsAt?_behind found ends (fun same => noReturn (same ▸ ends)) read] at read
  exact read

end PairedTokens

namespace Edit

variable {stream : TokenStream} {edit : Edit} {edits : List Edit}

/-- The replacement can be read where it stands. -/
def Reads (stream : TokenStream) (edit : Edit) (after : Nat) : Prop :=
  ∃ before, stream.returnsAt? edit.range.start = some before ∧
    Text.returnsBehind before (textOf edit.replacement) = some after

/-- As many carriage returns are behind a replacement as were behind what it replaces. -/
def Keeps (stream : TokenStream) (edit : Edit) : Prop :=
  ∃ after, edit.Reads stream after ∧ stream.returnsAt? edit.range.stop = some after

/-- What is behind the replacement does not begin with a line break that goes on with it. -/
def Joins (stream : TokenStream) (edit : Edit) : Prop :=
  ∃ after, edit.Reads stream after ∧ (textOf (stream.drop edit.range.stop)).head? ≠ some '\n' ∧
    (after = 0 ∨ (textOf (stream.drop edit.range.stop)).head? ≠ some '\r')

theorem head?_rebuilt {start : Nat} (spelled : ∀ token ∈ stream, token.WellSpelled)
    (inOrder : InOrder edits stream) (behind : ∀ edit ∈ edits, start < edit.range.start) :
    (textOf (rebuilt stream start edits)).head? = (textOf (stream.drop start)).head? := by
  cases edits with
  | nil => rfl
  | cons edit edits =>
      have first := behind edit (by simp)
      obtain ⟨ordered, inside⟩ := inOrder.proper edit (by simp)
      have present : start < stream.length := by omega
      have wellSpelled := spelled stream[start] (List.getElem_mem present)
      rw [rebuilt, TokenStream.slice_eq_cons (List.getElem?_eq_getElem present) first,
        List.drop_eq_getElem_cons present, List.append_assoc, List.cons_append,
        wellSpelled.text_head?, wellSpelled.text_head?]

/-- Every edit is made where it can be read, and what is behind it can still be read. Two edits that
touch need one that changes nothing for the other. -/
theorem exists_returnsBehind_rebuilt {start before : Nat} (paired : PairedTokens stream)
    (inOrder : InOrder edits stream) (behind : ∀ edit ∈ edits, start ≤ edit.range.start)
    (fits : ∀ edit ∈ edits, edit.Keeps stream ∨ edit.Joins stream)
    (apart : edits.Pairwise fun left right =>
      left.Keeps stream ∨ left.range.stop < right.range.start)
    (place : stream.returnsAt? start = some before) :
    ∃ after, Text.returnsBehind before (textOf (rebuilt stream start edits)) = some after := by
  induction edits generalizing start before with
  | nil =>
      obtain ⟨returns, same, later⟩ := paired.exists_returnsAt? start
      rw [place] at same
      cases same
      exact later
  | cons edit edits ih =>
      obtain ⟨ordered, inside⟩ := inOrder.proper edit (by simp)
      have kept := @TokenStream.returnsAt?_slice stream _ _ (behind edit (by simp))
      rw [place, Option.bind_some] at kept
      obtain ⟨returns, atStop, _⟩ := paired.exists_returnsAt? edit.range.stop
      have apartLater := List.pairwise_cons.mp apart
      obtain ⟨ending, later⟩ := ih inOrder.tail (List.pairwise_cons.mp inOrder.apart).1
        (fun other member => fits other (List.mem_cons_of_mem _ member)) apartLater.2 atStop
      have joined {after : Nat} (reads : edit.Reads stream after)
          (goesOn : ∃ ending, Text.returnsBehind after
            (textOf (rebuilt stream edit.range.stop edits)) = some ending) :
          ∃ ending, Text.returnsBehind before
            (textOf (rebuilt stream start (edit :: edits))) = some ending := by
        obtain ⟨between, atStart, new⟩ := reads
        obtain ⟨ending, rest⟩ := goesOn
        refine ⟨ending, ?_⟩
        rw [rebuilt, textOf_append, textOf_append]
        exact Text.returnsBehind_trans (Text.returnsBehind_trans (kept.symm.trans atStart) new) rest
      by_cases keeps : edit.Keeps stream
      · obtain ⟨after, reads, same⟩ := keeps
        rw [atStop] at same
        cases same
        exact joined reads ⟨ending, later⟩
      · obtain ⟨after, reads, noFeed, noReturn⟩ := (fits edit (by simp)).resolve_left keeps
        have head := head?_rebuilt paired.spelled inOrder.tail fun other member =>
          (apartLater.1 other member).resolve_left keeps
        rw [← head] at noFeed noReturn
        exact joined reads (Text.returnsBehind_exchange later noFeed noReturn)

theorem paired_rebuilt (paired : PairedTokens stream) (inOrder : InOrder edits stream)
    (fits : ∀ edit ∈ edits, edit.Keeps stream ∨ edit.Joins stream)
    (apart : edits.Pairwise fun left right =>
      left.Keeps stream ∨ left.range.stop < right.range.start) :
    Text.Paired (textOf (rebuilt stream 0 edits)) :=
  Text.paired_iff.mpr
    (exists_returnsBehind_rebuilt paired inOrder (fun edit _ => Nat.zero_le edit.range.start) fits
      apart rfl)

/-- A replacement that may stand behind any token, and lets follow what followed before. -/
structure Links (R : Token → Token → Prop) (stream : TokenStream) (edit : Edit) : Prop where
  nonempty : edit.range.start < edit.range.stop ∧ edit.replacement ≠ []
  chain : edit.replacement.IsChain R
  first : ∀ first ∈ edit.replacement.head?, ∀ token, R token first
  last : ∀ last ∈ edit.replacement.getLast?, ∀ removed ∈ stream[edit.range.stop - 1]?, ∀ next,
    R removed next → R last next

/-- Tokens still follow one another as they did. -/
theorem isChain_rebuilt {start : Nat} {R : Token → Token → Prop} (chain : stream.IsChain R)
    (inOrder : InOrder edits stream) (behind : ∀ edit ∈ edits, start ≤ edit.range.start)
    (links : ∀ edit ∈ edits, edit.Links R stream) :
    (rebuilt stream start edits).IsChain R ∧ ∀ first ∈ (rebuilt stream start edits).head?,
      (∀ token, R token first) ∨ stream[start]? = some first := by
  induction edits generalizing start with
  | nil =>
      refine ⟨chain.drop start, fun first isFirst => .inr ?_⟩
      rw [rebuilt, List.head?_drop] at isFirst
      exact isFirst
  | cons edit edits ih =>
      obtain ⟨ordered, inside⟩ := inOrder.proper edit (by simp)
      obtain ⟨⟨filled, nonempty⟩, new, isFirst, isLast⟩ := links edit (by simp)
      obtain ⟨later, headLater⟩ := ih inOrder.tail (List.pairwise_cons.mp inOrder.apart).1
        fun other member => links other (List.mem_cons_of_mem _ member)
      have kept : (stream.slice ⟨start, edit.range.start⟩).IsChain R :=
        (chain.take _).drop _
      have present : edit.range.stop - 1 < stream.length := by omega
      have joined : (edit.replacement ++ rebuilt stream edit.range.stop edits).IsChain R := by
        refine List.isChain_append.mpr ⟨new, later, fun last ends next begins => ?_⟩
        rcases headLater next begins with anywhere | same
        · exact anywhere last
        · refine isLast last ends _ (List.getElem?_eq_getElem present) next ?_
          obtain ⟨bound, rfl⟩ := List.getElem?_eq_some_iff.mp same
          have step := List.isChain_iff_getElem.mp chain (edit.range.stop - 1) (by omega)
          simpa only [Nat.sub_add_cancel (Nat.le_trans (Nat.succ_le_succ (Nat.zero_le _)) filled)]
            using step
      obtain ⟨first, others, opens⟩ := List.exists_cons_of_ne_nil nonempty
      have free := isFirst first (by rw [opens]; rfl)
      rw [rebuilt, List.append_assoc]
      refine ⟨List.isChain_append.mpr ⟨kept, joined, ?_⟩, ?_⟩
      · intro last _ next begins
        rw [opens, List.cons_append, List.head?_cons] at begins
        cases begins
        exact free last
      · intro next begins
        cases empty : stream.slice ⟨start, edit.range.start⟩ with
        | nil =>
            rw [empty, List.nil_append, opens, List.cons_append, List.head?_cons] at begins
            cases begins
            exact .inl free
        | cons token rest =>
            rw [empty, List.cons_append, List.head?_cons] at begins
            cases begins
            refine .inr ?_
            have here := stream.getElem?_slice ⟨start, edit.range.start⟩ 0
            rw [empty] at here
            split at here
            · exact here.symm
            · contradiction

end Edit

end ConstructorInjection
