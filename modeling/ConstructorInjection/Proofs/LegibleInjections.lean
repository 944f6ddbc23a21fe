import Mathlib.Data.List.Basic
import Mathlib.Tactic.Common
import ConstructorInjection.Proofs.LegibleAdditions
import ConstructorInjection.Proofs.SeparatedItems

/-!
The edits of an injection in a stream that is read as it stands: behind the brace of the class, behind
or in front of a parameter, and behind the content of a list or of a body.
-/

namespace ConstructorInjection

section Places

variable {source : Text} {memberName : Bool} {blanks rest : List Token} {token : Token}

theorem Token.isTrivia_of_sign (isMark : token.kind.sign?.isSome = true) :
    token.isTrivia = false := by
  obtain ⟨sign, isSign⟩ := Option.isSome_iff_exists.mp isMark
  exact (TokenKind.plain_of_sign isSign).2.1

/-- A name does not go on with a mark, nor with the blanks and comments in front of one. -/
theorem Legible.not_isLabelPart (legible : Legible source .code memberName (blanks ++ token :: rest))
    (blank : Blank blanks) (isMark : token.kind.sign?.isSome = true) :
    (textOf (blanks ++ token :: rest)).head?.any isLabelPart = false := by
  cases blanks with
  | nil =>
      obtain ⟨sign, isSign⟩ := Option.isSome_iff_exists.mp isMark
      have isRead := legible.isRead (TokenKind.plain_of_sign isSign).2.2.2.2.1
      rw [List.nil_append, textOf_cons, isRead.text_of_sign isSign]
      cases isKind : token.kind <;> rw [isKind] at isSign <;>
        first | contradiction | (cases isSign; rfl)
  | cons first blanks =>
      have trivia := blank first List.mem_cons_self
      have isRead := legible.isRead (Token.plain_of_trivia trivia).1
      rw [List.cons_append, textOf_cons, List.head?_append_of_ne_nil _ isRead.text_ne_nil]
      by_cases isBlank : first.kind = .whitespace
      · exact not_isLabelPart_of_space ((isRead.spaces isBlank).begins isRead.text_ne_nil)
      · obtain ⟨character, others, text, isSlash | isHash, _⟩ := isRead.text_of_comment trivia isBlank
        · rw [text, isSlash]
          rfl
        · rw [text, isHash]
          rfl

/-- Code that does not begin with a blank, a comment or a tag. -/
theorem Legible.inked (legible : Legible source .code memberName (token :: rest))
    (code : token.isTrivia = false) (noTag : token.text.take 2 ≠ ['?', '>']) :
    Inked (textOf (token :: rest) ++ source) := by
  have nonempty := List.append_ne_nil_of_left_ne_nil
    (legible.textOf_ne_nil (List.cons_ne_nil _ _)) source
  rw [textOf_cons, List.append_assoc] at nonempty ⊢
  by_cases isStart : token.kind = .attributeStart
  · rw [legible.text_of_attributeStart isStart]
    exact ⟨List.cons_ne_nil _ _, rfl, by simp⟩
  · have isRead := legible.isRead isStart
    refine ⟨nonempty, ?_, fun isTag => noTag (isRead.text_of_tag isTag)⟩
    by_contra space
    have isBlank := isRead.whitespace (by simpa using space)
    rw [Token.isTrivia, isBlank] at code
    contradiction

end Places

/-- A mark and a closer behind it, with no tag between them. -/
structure TokenStream.Encased (stream : TokenStream) (opening closing : Nat) : Prop
    extends stream.Delimited opening closing where
  mark : ∃ opener, stream[opening]? = some opener ∧ opener.kind.sign?.isSome = true
  tagless : Tagless (stream.slice ⟨opening + 1, closing⟩)

section Edits

variable {stream : TokenStream} {opening closing : Nat} {read : List Token}

/-- Behind a mark, a stream is read as code. -/
theorem Legible.behind_mark {anchor : Nat} (legible : Legible [] .html false stream)
    (mark : ∃ token, stream[anchor]? = some token ∧ token.kind.sign?.isSome = true) :
    Legible [] .code false (stream.drop (anchor + 1)) := by
  obtain ⟨token, found, isMark⟩ := mark
  rw [← stream.drop_zero] at legible
  exact (legible.at_mark (Nat.zero_le _) found isMark).2.2.2

theorem TokenStream.Encased.isMark_closer (encased : stream.Encased opening closing) :
    ∃ closer, stream[closing]? = some closer ∧ closer.kind.sign?.isSome = true := by
  obtain ⟨closer, found, closes⟩ := encased.closer
  exact ⟨closer, found, TokenKind.isSome_sign?_of_isCloser closes⟩

/-- A name does not go on with the closer. -/
theorem TokenStream.Encased.stop (encased : stream.Encased opening closing)
    (legible : Legible [] .html false stream) :
    (ConstructorInjection.textOf (stream.drop closing)).head?.any isLabelPart = false := by
  obtain ⟨closer, atCloser, isMark⟩ := encased.isMark_closer
  have behindOpener := legible.behind_mark encased.mark
  rw [← stream.slice_append_drop (Nat.succ_le_of_lt encased.ordered)] at behindOpener
  obtain ⟨inside, behind⟩ := Legible.append_iff.mp behindOpener
  rw [inside.modeBehind_of_tagless encased.tagless] at behind
  rw [drop_eq_cons_iff.mpr ⟨atCloser, rfl⟩] at behind ⊢
  exact @Legible.not_isLabelPart _ _ [] _ _ behind (by simp [Blank]) isMark

/-- What stands between two delimiters: content, blanks behind it, and the closer. -/
structure EncasedParts (stream : TokenStream) (opening closing : Nat)
    (content blanks : List Token) (closer : Token) (rest : List Token) : Prop where
  cut : stream.drop (opening + 1) = content ++ (blanks ++ closer :: rest)
  atCloser : stream.drop closing = closer :: rest
  isMark : closer.kind.sign?.isSome = true
  white : ∀ blank ∈ blanks, blank.kind = .whitespace
  solid : ∀ last ∈ content.getLast?, last.kind ≠ .whitespace
  inside : stream.slice ⟨opening + 1, closing⟩ = content ++ blanks
  place : (stream.lastContent? opening closing).getD opening + 1 = opening + 1 + content.length

theorem TokenStream.Encased.exists_parts (encased : stream.Encased opening closing) :
    ∃ content blanks closer rest, EncasedParts stream opening closing content blanks closer rest := by
  obtain ⟨closer, atCloser, isMark⟩ := encased.isMark_closer
  have atEnd : stream.drop closing = closer :: stream.drop (closing + 1) :=
    drop_eq_cons_iff.mpr ⟨atCloser, rfl⟩
  have whole := stream.slice_append_drop (Nat.succ_le_of_lt encased.ordered)
  rcases lastIn?_cases stream ⟨opening + 1, closing⟩ (·.kind != .whitespace) with
    ⟨noContent, blank⟩ | ⟨before, last, blanks, cut, isSolid, blank, found⟩
  · refine ⟨[], stream.slice ⟨opening + 1, closing⟩, closer, _, ?_, atEnd, isMark,
      fun token member => by simpa using blank token member, by simp, rfl, ?_⟩
    · rw [← atEnd]
      exact whole.symm
    · rw [lastContent?, noContent]
      rfl
  · refine ⟨before ++ [last], blanks, closer, _, ?_, atEnd, isMark,
      fun token member => by simpa using blank token member, ?_, by rw [cut, List.append_cons], ?_⟩
    · rw [← whole, cut, atEnd]
      simp
    · simpa using isSolid
    · rw [lastContent?, found, List.length_append, List.length_singleton]
      rfl

namespace EncasedParts

variable {content blanks rest : List Token} {closer : Token}

theorem blank (parts : EncasedParts stream opening closing content blanks closer rest) : Blank blanks :=
  Blank.of_whitespace parts.white

theorem slice_content (parts : EncasedParts stream opening closing content blanks closer rest) :
    stream.slice ⟨opening + 1, (stream.lastContent? opening closing).getD opening + 1⟩ = content :=
  TokenStream.slice_of_drop_eq parts.cut parts.place

theorem drop_content (parts : EncasedParts stream opening closing content blanks closer rest) :
    stream.drop ((stream.lastContent? opening closing).getD opening + 1) = blanks ++ closer :: rest := by
  rw [parts.place]
  exact TokenStream.drop_of_drop_eq parts.cut

/-- A line comment at the end of the content has a line break behind it. -/
theorem breaks_line (parts : EncasedParts stream opening closing content blanks closer rest)
    {memberName : Bool} {front : List Token} {comment : Token} (isLast : content = front ++ [comment])
    (legible : Legible [] .code memberName (stream.drop (opening + 1)))
    (isComment : comment.kind = .lineComment) :
    (textOf (blanks ++ closer :: rest)).head? = some '\n' ∧
      stream.spansLines opening closing = true := by
  rw [parts.cut, isLast] at legible
  obtain ⟨ahead, behind⟩ := Legible.append_iff.mp legible
  have isRead := ahead.isRead_last (by rw [isComment]; exact TokenKind.noConfusion)
  have isCode := isRead.mode_of_isMarkup (by rw [isComment]; rfl)
  have stays : modeBehind .code (front ++ [comment]) = .code := by
    rw [modeBehind_concat, isCode, isComment]
    rfl
  rw [isCode, List.append_nil] at isRead
  rw [stays] at behind
  have ends := isRead.begins_comment isComment
  cases blanks with
  | nil =>
      obtain ⟨sign, isSign⟩ := Option.isSome_iff_exists.mp parts.isMark
      have isCloser := behind.isRead (TokenKind.plain_of_sign isSign).2.2.2.2.1
      rw [List.nil_append, textOf_cons, isCloser.text_of_sign isSign] at ends
      have noEnd : ¬ EndsComment ([sign] ++ textOf rest) := by
        cases isKind : closer.kind <;> rw [isKind] at isSign <;>
          first | contradiction | (cases isSign; simp [EndsComment])
      rcases ends with none | ends
      · contradiction
      · exact absurd ends noEnd
  | cons blank blanks =>
      have isBlank := parts.white blank List.mem_cons_self
      have isRead := behind.isRead (by rw [isBlank]; exact TokenKind.noConfusion)
      have spaces := isRead.spaces isBlank
      obtain ⟨first, others, text⟩ := List.exists_cons_of_ne_nil isRead.text_ne_nil
      have isSpace := spaces first (by simp [text])
      rw [List.cons_append, textOf_cons, text] at ends ⊢
      have feed : first = '\n' := by
        rcases ends with none | feed | tag
        · contradiction
        · exact Option.some.inj feed
        · rw [List.cons_append, List.take_succ_cons] at tag
          rw [(List.cons.inj tag).1] at isSpace
          contradiction
      subst feed
      refine ⟨rfl, List.any_eq_true.mpr ⟨blank, ?_, ?_⟩⟩
      · rw [parts.inside]
        simp
      · simp [Token.isLineBreak, isBlank, Token.hasNewline, text]

/-- Code that begins with blanks is read behind the content, if it begins with a line break there
where the content is on several lines. -/
theorem exists_read (parts : EncasedParts stream opening closing content blanks closer rest)
    (legible : Legible [] .code false (stream.drop (opening + 1))) (tagless : Tagless content)
    (again : Legible [] .code false read)
    (unnamed : ∀ pair ∈ (significant read).head?, pair.1.isWord = true → pair.1 = .qualifiedName)
    (space : (textOf read).head?.any isLineSpace = true)
    (breaks : stream.spansLines opening closing = true →
      (textOf read).head? = some '\n' ∨ ∃ rest, textOf read = '\r' :: '\n' :: rest) :
    ∃ other, Respaced (content ++ read) other ∧ Legible [] .code false other := by
  have whole := legible
  rw [parts.cut] at whole
  obtain ⟨ahead, _⟩ := Legible.append_iff.mp whole
  refine ahead.exists_respaced_front tagless (again.remember_of_significant unnamed _) space ?_
  intro last isLast
  refine ⟨parts.solid last isLast, fun isComment => ?_⟩
  obtain ⟨front, isLast⟩ := List.getLast?_eq_some_iff.mp isLast
  obtain ⟨feed, spans⟩ := parts.breaks_line isLast legible isComment
  rw [List.append_nil]
  exact ⟨feed, breaks spans⟩

end EncasedParts

/-- An edit that puts an addition behind a mark sits there, if what is in front of the addition can be
read with it. -/
theorem Edit.sits_of_addition {anchor : Nat} {edit : Edit} (behind : anchor < edit.range.start)
    (mark : ∃ token, stream[anchor]? = some token ∧ token.kind.sign?.isSome = true)
    (tagless : Tagless (stream.slice ⟨anchor + 1, edit.range.stop⟩))
    (memory : memberNameBehind false (stream.slice ⟨anchor + 1, edit.range.stop⟩) = false ∨
      ∀ pair ∈ (significant (stream.drop edit.range.stop)).head?, pair.1.isWord = false)
    (addition : ∀ rest, (textOf rest).head? = (textOf (stream.drop edit.range.stop)).head? →
      Addition edit.replacement (textOf rest))
    (front : ∀ read rest, Legible [] .code false read →
      textOf read = textOf edit.replacement ++ textOf rest →
      significant read = significant edit.replacement ++ significant rest →
        ∃ other, Respaced (stream.slice ⟨anchor + 1, edit.range.start⟩ ++ read) other ∧
          Legible [] .code false other) : edit.Sits stream anchor where
  nested := (addition _ rfl).nested
  behind := behind
  mark := mark
  tagless := tagless
  memory := memory
  reads rest legible head := by
    obtain ⟨read, respaced, again⟩ := (addition rest head).exists_read legible
    obtain ⟨other, respacedOther, legibleOther⟩ := front read rest again
      (by rw [respaced.text, textOf_append]) (by rw [respaced.code, significant_append])
    exact ⟨other, (respaced.behind _).trans respacedOther, legibleOther⟩

/-- An insertion directly behind a mark. -/
theorem Edit.sits_behind_mark {anchor : Nat} {tokens : List Token}
    (mark : ∃ token, stream[anchor]? = some token ∧ token.kind.sign?.isSome = true)
    (addition : ∀ copy, Addition tokens copy) : (insertion (anchor + 1) tokens).Sits stream anchor := by
  have none : stream.slice ⟨anchor + 1, anchor + 1⟩ = [] :=
    TokenStream.slice_eq_nil (.inl (Nat.le_refl _))
  refine sits_of_addition (Nat.lt_succ_self _) mark ?_ (.inl ?_) (fun rest _ => addition _) ?_
  · simp [insertion, none, Tagless]
  · simp [insertion, none, memberNameBehind]
  · intro read rest legible _ _
    exact ⟨read, by simp [insertion, none, Respaced.refl], legible⟩

end Edits

section Separators

variable {stream : TokenStream} {lineEnding text : Text}

theorem any_head?_append {property : Char → Bool} (begins : text.head?.any property = true)
    (rest : Text) : (text ++ rest).head?.any property = true := by
  cases text with
  | nil => contradiction
  | cons first others => exact begins

/-- A text that begins with a line break. -/
def Text.BreaksLine (text : Text) : Prop :=
  text.head? = some '\n' ∨ ∃ rest, text = '\r' :: '\n' :: rest

theorem Text.BreaksLine.append (breaks : Text.BreaksLine text) (rest : Text) :
    Text.BreaksLine (text ++ rest) := by
  rcases breaks with feed | ⟨others, rfl⟩
  · exact .inl (List.mem_head?_append_of_mem_head? feed)
  · exact .inr ⟨others ++ rest, rfl⟩

theorem Text.BreaksLine.begins (breaks : Text.BreaksLine text) :
    text.head?.any isLineSpace = true := by
  rcases breaks with feed | ⟨others, rfl⟩
  · rw [feed]
    rfl
  · rfl

theorem TokenStream.breaksLine_lineEnding (stream : TokenStream) :
    Text.BreaksLine stream.lineEnding := by
  rw [lineEnding]
  split
  · split
    · exact .inr ⟨[], rfl⟩
    · exact .inl rfl
  · exact .inl rfl

theorem TokenStream.inlineSeparatorOr_begins (wellSpaced : WellSpaced stream)
    (texts : ∀ token ∈ stream, token.text ≠ []) (opening last : Nat) :
    ((stream.inlineSeparator? opening last).getD " ").head?.any isLineSpace = true := by
  cases separated : stream.inlineSeparator? opening last with
  | none => rfl
  | some separator =>
      obtain ⟨blank, member, _, rfl⟩ := exists_blank_of_inlineSeparator? separated
      obtain ⟨_, _, _, found⟩ := mem_slice_iff.mp member
      exact (wellSpaced.inlineSeparator? separated).begins (texts blank (List.mem_of_getElem? found))

end Separators


/-- An edit behind the content between two delimiters, or in the place of the blanks at its end too,
whose code begins with a blank, and with a line break where the content is on several lines. -/
theorem Edit.sits_behind_content {stream : TokenStream} {opening closing : Nat} {edit : Edit}
    {pair : TokenKind × Text} (legible : Legible [] .html false stream)
    (encased : stream.Encased opening closing)
    (start : edit.range.start = (stream.lastContent? opening closing).getD opening + 1)
    (stop : edit.range.stop = edit.range.start ∨ edit.range.stop = closing)
    (addition : ∀ rest, (textOf rest).head? = (textOf (stream.drop edit.range.stop)).head? →
      Addition edit.replacement (textOf rest))
    (first : (significant edit.replacement).head? = some pair)
    (unnamed : pair.1.isWord = true → pair.1 = .qualifiedName)
    (begins : (textOf edit.replacement).head?.any isLineSpace = true)
    (breaks : stream.spansLines opening closing = true →
      Text.BreaksLine (textOf edit.replacement)) :
    edit.Sits stream opening := by
  obtain ⟨content, blanks, closer, rest, parts⟩ := encased.exists_parts
  have bounds := @TokenStream.lastContent?_bounds stream opening closing encased.ordered
  have inContent := parts.slice_content
  have behindContent := parts.drop_content
  rw [← start] at bounds inContent behindContent
  have within : edit.range.stop ≤ closing := by
    rcases stop with same | same <;> omega
  obtain ⟨sign, isSign⟩ := Option.isSome_iff_exists.mp parts.isMark
  have noWord {blanks : List Token} (blank : Blank blanks) :
      ∀ pair ∈ (significant (blanks ++ closer :: rest)).head?, pair.1.isWord = false := by
    rw [head?_significant blank (Token.isTrivia_of_sign parts.isMark)]
    rintro _ ⟨⟩
    exact (TokenKind.plain_of_sign isSign).2.2.1
  refine sits_of_addition (by omega) encased.mark (fun token member => ?_) (.inr ?_) addition
    fun read rest again sameText sameCode => ?_
  · obtain ⟨index, lower, upper, found⟩ := TokenStream.mem_slice_iff.mp member
    exact encased.tagless token (TokenStream.mem_slice_iff.mpr
      ⟨index, lower, Nat.lt_of_lt_of_le upper within, found⟩)
  · rcases stop with same | same
    · rw [same, behindContent]
      exact noWord parts.blank
    · rw [same, parts.atCloser]
      exact @noWord [] (by simp [Blank])
  · have tagless : Tagless content := fun token member =>
      encased.tagless token (by rw [parts.inside]; exact List.mem_append_left _ member)
    rw [inContent]
    refine parts.exists_read (legible.behind_mark encased.mark) tagless again (fun found isFirst => ?_) ?_
      fun spans => ?_
    · rw [sameCode, List.head?_append, first] at isFirst
      cases isFirst
      exact unnamed
    · rw [sameText]
      exact any_head?_append begins _
    · rw [sameText]
      exact (breaks spans).append _

/-- Where an item stands between two delimiters: behind a mark, the delimiter or a comma, and with
another mark behind it, both apart from it by blanks and comments only. -/
structure ItemParts (stream : TokenStream) (anchor : Nat) (range : IndexRange)
    (before core behind : List Token) (mark : Token) (rest : List Token) : Prop where
  seat : ∃ token, stream[anchor]? = some token ∧ token.kind.sign?.isSome = true
  cut : stream.drop (anchor + 1) = before ++ (core ++ (behind ++ mark :: rest))
  starts : range.start = anchor + 1 + before.length
  stops : range.stop = anchor + 1 + before.length + core.length
  blankBefore : Blank before
  blankBehind : Blank behind
  isMark : mark.kind.sign?.isSome = true
  nonempty : core ≠ []
  first : ∀ first ∈ core.head?, first.isTrivia = false
  last : ∀ last ∈ core.getLast?, last.isTrivia = false
  tagless : Tagless (before ++ core)

section Items

variable {stream : TokenStream} {opening closing anchor : Nat} {range : IndexRange}
  {before core behind rest tokens : List Token} {mark : Token}

theorem TokenStream.StartsSection.exists_seat {start : Nat}
    (starts : stream.StartsSection opening closing start) (encased : stream.Encased opening closing) :
    ∃ anchor, start = anchor + 1 ∧ opening ≤ anchor ∧
      ∃ token, stream[anchor]? = some token ∧ token.kind.sign?.isSome = true := by
  rcases starts with rfl | ⟨comma, separates, rfl⟩
  · exact ⟨opening, rfl, Nat.le_refl _, encased.mark⟩
  · obtain ⟨token, found, isComma⟩ := TokenStream.hasKind_iff.mp separates.comma
    exact ⟨comma, rfl, Nat.le_of_lt separates.enclosed.behind, token, found, by rw [isComma]; rfl⟩

theorem TokenStream.StopsSection.exists_mark {stop : Nat}
    (stops : stream.StopsSection opening closing stop) (encased : stream.Encased opening closing) :
    ∃ token, stream[stop]? = some token ∧ token.kind.sign?.isSome = true := by
  rcases stops with rfl | separates
  · exact encased.isMark_closer
  · obtain ⟨token, found, isComma⟩ := TokenStream.hasKind_iff.mp separates.comma
    exact ⟨token, found, by rw [isComma]; rfl⟩

theorem TokenStream.exists_itemParts (nested : Nested stream)
    (partners : stream.Partners opening closing) (encased : stream.Encased opening closing)
    {item : IndexRange} (member : item ∈ stream.splitTopLevel ⟨opening + 1, closing⟩) :
    ∃ anchor before core behind mark rest, opening ≤ anchor ∧
      ItemParts stream anchor (stream.trimTrivia item) before core behind mark rest := by
  obtain ⟨isSection, significant⟩ := (mem_splitTopLevel_iff nested partners).mp member
  obtain ⟨anchor, start, ordered, seat⟩ := isSection.starts.exists_seat encased
  obtain ⟨mark, atStop, isMark⟩ := isSection.stops.exists_mark encased
  have inside := encased.inside
  have behindOpener := isSection.starts.behind
  have within := isSection.stops.le
  have itemOrdered := isSection.ordered
  have whole := stream.slice_append_drop isSection.ordered
  have size : item.start + (stream.slice item).length = item.stop := by
    rw [length_slice]
    omega
  obtain ⟨before, core, behind, parts, blankBefore, blankBehind, trimmed, first, last⟩ :=
    trimTrivia_parts (by omega) whole.symm
  rw [size] at trimmed
  rw [drop_eq_cons_iff.mpr ⟨atStop, rfl⟩] at whole
  refine ⟨anchor, before, core, behind, mark, stream.drop (item.stop + 1), ordered, seat, ?_, ?_, ?_,
    blankBefore, blankBehind, isMark, ?_, first, last, ?_⟩
  · rw [← start, ← whole, parts]
    simp only [List.append_assoc]
  · rw [trimmed, start]
  · rw [trimmed, start]
  · rintro rfl
    obtain ⟨token, inItem, noTrivia⟩ := List.any_eq_true.mp significant
    rw [parts] at inItem
    rcases List.mem_append.mp inItem with isBefore | isBehind
    · simp [blankBefore token isBefore] at noTrivia
    · simp [blankBehind token isBehind] at noTrivia
  · intro token isToken
    have inItem : token ∈ stream.slice item := by
      rw [parts]
      simp only [List.mem_append] at isToken ⊢
      tauto
    obtain ⟨index, lower, upper, found⟩ := mem_slice_iff.mp inItem
    exact encased.tagless token (mem_slice_iff.mpr ⟨index, by simp only; omega, by simp only; omega,
      found⟩)

namespace ItemParts

variable (parts : ItemParts stream anchor range before core behind mark rest)
include parts

theorem slice_start : stream.slice ⟨anchor + 1, range.start⟩ = before :=
  TokenStream.slice_of_drop_eq parts.cut parts.starts

theorem cut_stop : stream.drop (anchor + 1) = (before ++ core) ++ (behind ++ mark :: rest) := by
  rw [parts.cut, List.append_assoc]

theorem stops_length : range.stop = anchor + 1 + (before ++ core).length := by
  rw [parts.stops, List.length_append, Nat.add_assoc]

theorem slice_stop : stream.slice ⟨anchor + 1, range.stop⟩ = before ++ core :=
  TokenStream.slice_of_drop_eq parts.cut_stop parts.stops_length

theorem drop_stop : stream.drop range.stop = behind ++ mark :: rest := by
  rw [parts.stops_length]
  exact TokenStream.drop_of_drop_eq parts.cut_stop

end ItemParts

/-- An insertion behind an item that begins with a comma. -/
theorem Edit.sits_behind_item (parts : ItemParts stream anchor range before core behind mark rest)
    (legible : Legible [] .html false stream)
    (addition : ∀ copy, copy.head?.any isLabelPart = false →
      Addition (⟨.comma, [','], 0⟩ :: tokens) copy) :
    (insertion range.stop (⟨.comma, [','], 0⟩ :: tokens)).Sits stream anchor := by
  have behindAnchor := legible.behind_mark parts.seat
  rw [parts.cut_stop] at behindAnchor
  obtain ⟨ahead, behindItem⟩ := Legible.append_iff.mp behindAnchor
  rw [ahead.modeBehind_of_tagless parts.tagless] at behindItem
  have stop := behindItem.not_isLabelPart parts.blankBehind parts.isMark
  obtain ⟨sign, isSign⟩ := Option.isSome_iff_exists.mp parts.isMark
  have starts := parts.stops_length
  refine sits_of_addition (by simp only [insertion]; omega) parts.seat ?_ (.inr ?_)
    (fun rest head => addition _ ?_) fun read rest again sameText sameCode => ?_
  · simp only [insertion]
    rw [parts.slice_stop]
    exact parts.tagless
  · simp only [insertion]
    rw [parts.drop_stop, head?_significant parts.blankBehind (Token.isTrivia_of_sign parts.isMark)]
    rintro _ ⟨⟩
    exact (TokenKind.plain_of_sign isSign).2.2.1
  · simp only [insertion] at head
    rwa [head, parts.drop_stop]
  · simp only [insertion] at sameText sameCode ⊢
    rw [parts.slice_stop]
    have fresh : Fresh (textOf read) := by
      rw [sameText, textOf_cons]
      rintro _ ⟨⟩
      rfl
    refine ⟨_, .refl _, Legible.append_iff.mpr ⟨?_, ?_⟩⟩
    · rw [List.append_nil]
      refine ahead.front (fun back isBack nonempty =>
        .of_fresh (ahead.textOf_suffix_ne_nil isBack nonempty) fresh) fun last isLast =>
          ahead.seam_of_tagless parts.tagless isLast (fun isComment => ?_) ?_
      · rw [List.getLast?_append_of_ne_nil _ parts.nonempty] at isLast
        have noTrivia := parts.last last isLast
        rw [Token.isTrivia, isComment] at noTrivia
        contradiction
      · rw [sameText, textOf_cons]
        rfl
    · rw [ahead.modeBehind_of_tagless parts.tagless]
      refine again.remember_of_significant (fun pair isFirst isWord => ?_) _
      rw [sameCode] at isFirst
      cases isFirst
      contradiction

/-- An insertion in front of an item, behind the blanks and comments there. -/
theorem Edit.sits_before_item (parts : ItemParts stream anchor range before core behind mark rest)
    (legible : Legible [] .html false stream) (addition : ∀ copy, Addition tokens copy)
    (solid : ∀ rest, (textOf tokens ++ rest).head?.any isLineSpace = false) :
    (insertion range.start tokens).Sits stream anchor := by
  have behindAnchor := legible.behind_mark parts.seat
  rw [parts.cut] at behindAnchor
  obtain ⟨ahead, item⟩ := Legible.append_iff.mp behindAnchor
  have starts := parts.starts
  have noLine : ∀ last ∈ before.getLast?, last.kind ≠ .lineComment := by
    intro last isLast isComment
    obtain ⟨front, rfl⟩ := List.getLast?_eq_some_iff.mp isLast
    obtain ⟨first, others, rfl⟩ := List.exists_cons_of_ne_nil parts.nonempty
    have isRead := ahead.isRead_last (by rw [isComment]; exact TokenKind.noConfusion)
    have blankFront : Blank front := fun token member => parts.blankBefore token (by simp [member])
    rw [modeBehind_of_blank parts.blankBefore] at item
    rw [modeBehind_of_blank blankFront, List.append_nil] at isRead
    have inked := item.inked (parts.first first rfl) (parts.tagless first (by simp))
    rw [List.append_nil] at inked
    rcases isRead.begins_comment isComment with none | ends
    · exact inked.nonempty none
    · exact inked.not_endsComment ends
  refine sits_of_addition (by simp only [insertion]; omega) parts.seat ?_ (.inl ?_)
    (fun rest _ => addition _) fun read rest again sameText _ => ?_
  · simp only [insertion]
    rw [parts.slice_start]
    exact fun token member => parts.tagless token (List.mem_append_left _ member)
  · simp only [insertion]
    rw [parts.slice_start, memberNameBehind_of_trivia parts.blankBefore]
  · simp only [insertion] at sameText ⊢
    rw [parts.slice_start]
    refine ⟨_, .refl _, Legible.append_iff.mpr ⟨?_, ?_⟩⟩
    · rw [List.append_nil]
      exact ahead.front_of_blank parts.blankBefore (by rw [sameText]; exact solid _) noLine
    · rwa [modeBehind_of_blank parts.blankBefore, memberNameBehind_of_trivia parts.blankBefore]

end Items

section Planned

variable {stream : TokenStream} {constructor : Constructor} {new : List Dependency} {indent : Text}
  {options : InjectionOptions} {edits : List Edit}

/-- Assignments go behind the content of the body, where they are read as they are spelled. -/
theorem assignmentEdit_sits {opening closing : Nat} (legible : Legible [] .html false stream)
    (atBody : constructor.bodyOpen = some opening) (atEnd : constructor.bodyClose = some closing)
    (encased : stream.Encased opening closing) (wellSpaced : WellSpaced stream)
    (writable : ∀ dependency ∈ new, dependency.Writable) (spacesIndent : Spaces indent)
    (spacesOption : Spaces options.indent)
    (result : assignmentEdit stream constructor new indent options stream.lineEnding = .ok edits) :
    edits = [] ∨ ∃ edit, edits = [edit] ∧ edit.Sits stream opening := by
  have spacesEnding := spaces_lineEnding stream
  have spacesStatement := spacesIndent.append spacesOption
  have noSpaces : Spaces [] := by simp [Spaces]
  unfold assignmentEdit at result
  cases new with
  | nil =>
      cases result
      exact .inl rfl
  | cons first others =>
  refine .inr ?_
  have sits {range : IndexRange} {separator ending : Text} {tokens : List Token}
      (start : range.start = (stream.lastContent? opening closing).getD opening + 1)
      (stop : range.stop = range.start ∨ range.stop = closing) (spaces : Spaces separator)
      (spacesEnding : Spaces ending) (begins : separator.head?.any isLineSpace = true)
      (breaks : stream.spansLines opening closing = true → Text.BreaksLine separator)
      (generated : generate (((first :: others).flatMap fun dependency =>
        separator ++ dependency.assignmentText) ++ ending) = .ok tokens) :
      Edit.Sits stream opening ⟨range, tokens⟩ := by
    have addition (copy : Text) := @addition_assignments tokens copy _ _ _ (by simp) writable
      spaces spacesEnding generated
    have text := textOf_of_generate generated
    rw [List.flatMap_cons, List.append_assoc, List.append_assoc] at text
    refine Edit.sits_behind_content legible encased start stop (fun rest _ => (addition _).1)
      (addition []).2 (fun isWord => ?_) ?_ fun spans => ?_
    · contradiction
    · rw [text]
      exact any_head?_append begins _
    · rw [text]
      exact (breaks spans).append _
  simp only [atBody, atEnd] at result
  cases found : stream.lastContent? opening closing with
  | none =>
      have breaks := stream.breaksLine_lineEnding.append (indent ++ options.indent)
      rw [found] at result sits
      simp only at result
      split at result
      next =>
        obtain ⟨tokens, generated, rest⟩ := exists_of_bind_eq_ok result
        cases rest
        rw [← List.append_nil (List.flatMap _ _)] at generated
        exact ⟨_, rfl, sits rfl (.inl rfl) (spacesEnding.append spacesStatement) noSpaces
          breaks.begins (fun _ => breaks) generated⟩
      next =>
        obtain ⟨tokens, generated, rest⟩ := exists_of_bind_eq_ok result
        cases rest
        rw [List.append_assoc] at generated
        exact ⟨_, rfl, sits rfl (.inr rfl) (spacesEnding.append spacesStatement)
          (spacesEnding.append spacesIndent) breaks.begins (fun _ => breaks) generated⟩
  | some last =>
      rw [found] at result sits
      obtain ⟨tokens, generated, rest⟩ := exists_of_bind_eq_ok result
      cases rest
      generalize isSeparator : (if stream.spansLines opening closing = true then _ else _) =
        separator at generated
      rw [← List.append_nil (List.flatMap _ _)] at generated
      have spaces : Spaces separator := by
        rw [← isSeparator]
        split
        · exact spacesEnding.append (wellSpaced.indentOr _ spacesStatement)
        · cases separated : stream.inlineSeparator? opening last with
          | none => exact spaces_blank
          | some separator => exact wellSpaced.inlineSeparator? separated
      have breaks (spans : stream.spansLines opening closing = true) :
          Text.BreaksLine separator := by
        rw [← isSeparator, if_pos spans]
        exact stream.breaksLine_lineEnding.append _
      refine ⟨_, rfl, sits rfl (.inl rfl) spaces noSpaces ?_ breaks generated⟩
      cases spans : stream.spansLines opening closing with
      | true => exact (breaks spans).begins
      | false =>
          rw [spans, if_neg Bool.false_ne_true] at isSeparator
          rw [← isSeparator]
          exact TokenStream.inlineSeparatorOr_begins wellSpaced legible.text_ne_nil opening last

theorem parametersText_begins {first : Dependency} (writable : first.Writable) (separator : Text)
    (others : List Dependency) (rest : Text) :
    (parametersText separator first others ++ rest).head?.any isLineSpace = false := by
  obtain ⟨name, isName⟩ := List.head?_eq_some_iff.mp writable.qualified
  rw [parametersText, Dependency.parameterText, isName]
  rfl

/-- Parameters go behind the content of an empty list, and behind or in front of a parameter
otherwise, where they are read as they are spelled. -/
theorem parameterEdit_sits {list : ParameterList} (legible : Legible [] .html false stream)
    (nested : Nested stream) (listed : constructor.parameterList = some list)
    (read : constructor.parameters = stream.parametersIn list)
    (partners : stream.Partners list.opening list.closing)
    (encased : stream.Encased list.opening list.closing) (wellSpaced : WellSpaced stream)
    (writable : ∀ dependency ∈ new, dependency.Writable) (spacesIndent : Spaces indent)
    (spacesOption : Spaces options.indent)
    (result : parameterEdit stream constructor new indent options stream.lineEnding = .ok edits) :
    edits = [] ∨ ∃ edit anchor, edits = [edit] ∧ list.opening ≤ anchor ∧ edit.Sits stream anchor := by
  have spacesEnding := spaces_lineEnding stream
  have spacesParameter := spacesIndent.append spacesOption
  unfold parameterEdit at result
  simp only [listed, read] at result
  cases new with
  | nil =>
      cases result
      exact .inl rfl
  | cons first others =>
  refine .inr ?_
  cases parameters : stream.parametersIn list with
  | nil =>
      rw [parameters] at result
      simp only at result
      obtain ⟨tokens, generated, rest⟩ := exists_of_bind_eq_ok result
      cases rest
      rw [flatMap_withCommas, List.append_assoc, List.append_assoc] at generated
      have text := textOf_of_generate generated
      have breaks : Text.BreaksLine (textOf tokens) := by
        rw [text, List.append_assoc, List.append_assoc]
        exact stream.breaksLine_lineEnding.append _
      have addition {copy : Text} (stop : copy.head?.any isLabelPart = false) :=
        addition_parametersAlone writable ((spacesEnding.append spacesIndent).append spacesOption)
          (spacesEnding.append spacesIndent) stop generated
      obtain ⟨name, isFirst⟩ := (@addition [] rfl).2
      exact ⟨_, list.opening, rfl, Nat.le_refl _, Edit.sits_behind_content legible encased rfl
        (.inr rfl) (fun rest head => (addition (by rw [head]; exact encased.stop legible)).1)
        isFirst (fun _ => rfl) breaks.begins fun _ => breaks⟩
  | cons parameter more =>
      rw [parameters] at result
      simp only at result
      have seat {parameter' : Parameter} (member : parameter' ∈ parameter :: more) :
          ∃ anchor before core behind mark rest, list.opening ≤ anchor ∧
            ItemParts stream anchor parameter'.range before core behind mark rest := by
        rw [← parameters] at member
        obtain ⟨item, isItem, found⟩ := List.mem_filterMap.mp member
        rw [TokenStream.range_of_parameterIn? found]
        exact TokenStream.exists_itemParts nested partners encased isItem
      obtain ⟨separator, spaces, isSeparator⟩ : ∃ separator, Spaces separator ∧
          (if stream.spansLines list.opening list.closing then
            ("," : Text) ++ stream.lineEnding ++ ((parameter :: more).reverse.findSome?
              fun parameter => stream.indentBefore? parameter.range.start).getD
                (indent ++ options.indent)
          else ", ") = ',' :: separator := by
        split
        · exact ⟨_, spacesEnding.append (wellSpaced.foundIndentOr (parameter :: more).reverse
            spacesParameter), rfl⟩
        · exact ⟨[' '], spaces_blank, rfl⟩
      rw [isSeparator, joinWith_parameterText] at result
      have before {found : Parameter} (member : found ∈ parameter :: more) {tokens : List Token}
          (generated : generate (parametersText separator first others ++ (',' :: separator)) =
            .ok tokens) :
          ∃ anchor, list.opening ≤ anchor ∧
            (Edit.insertion found.range.start tokens).Sits stream anchor := by
        obtain ⟨anchor, _, _, _, _, _, lower, parts⟩ := seat member
        have text := textOf_of_generate generated
        refine ⟨anchor, lower, Edit.sits_before_item parts legible
          (fun copy => addition_parametersBefore writable spaces generated) fun rest => ?_⟩
        rw [text, List.append_assoc]
        exact parametersText_begins (writable first List.mem_cons_self) separator others _
      split at result
      next last found =>
        obtain ⟨tokens, generated, rest⟩ := exists_of_bind_eq_ok result
        cases rest
        obtain ⟨front, back, split, _⟩ := lastMandatory?_eq_some found
        obtain ⟨anchor, _, _, _, _, _, lower, parts⟩ := @seat last (by rw [split]; simp)
        obtain ⟨series, rfl, _⟩ := scans_parametersBehind writable spaces generated
        exact ⟨_, anchor, rfl, lower, Edit.sits_behind_item parts legible fun copy stop =>
          addition_parametersBehind writable spaces stop generated⟩
      next last next found =>
        obtain ⟨tokens, generated, rest⟩ := exists_of_bind_eq_ok result
        cases rest
        obtain ⟨front, back, split, follows, _⟩ := lastMandatory?_eq_some found
        have inBack := List.mem_of_mem_head? follows
        obtain ⟨anchor, lower, sits⟩ := @before next (by rw [split]; simp [inBack]) _ generated
        exact ⟨_, anchor, rfl, lower, sits⟩
      next =>
        obtain ⟨tokens, generated, rest⟩ := exists_of_bind_eq_ok result
        cases rest
        obtain ⟨anchor, lower, sits⟩ := before List.mem_cons_self generated
        exact ⟨_, anchor, rfl, lower, sits⟩

variable {site : ConstructorSite} {plan : InjectionPlan}

theorem TokenStream.isMark_bodyOpen {declaration : ClassDeclaration}
    (found : stream.findClass? = some declaration) :
    ∃ token, stream[declaration.bodyOpen]? = some token ∧ token.kind.sign?.isSome = true := by
  simp only [findClass?, Option.bind_eq_bind, Option.bind_eq_some_iff, Option.pure_def,
    Option.some.injEq] at found
  obtain ⟨keyword, _, bodyOpen, first, _, _, rfl⟩ := found
  obtain ⟨⟨_, _, passes⟩, _⟩ := firstIn?_eq_some_iff.mp first
  obtain ⟨brace, atBrace, isBrace⟩ := (Option.any_eq_true _ _).mp passes
  exact ⟨brace, atBrace, by rw [beq_iff_eq.mp isBrace]; rfl⟩

/-- No tag stands in the parameter list or in the body of the constructor. -/
def ConstructorSite.Untagged (site : ConstructorSite) (stream : TokenStream) : Prop :=
  ∀ constructor, site.constructor? = some constructor → ∀ index token,
    constructor.Encloses index → stream[index]? = some token → token.text.take 2 ≠ ['?', '>']

/-- Where a class has a constructor, each edit of an injection has its own anchor. -/
theorem planEdits_seated_existing {constructor : Constructor} (legible : Legible [] .html false stream)
    (nested : Nested stream) (located : stream.locate? options.marker = some site)
    (existing : site.constructor? = some constructor) (untagged : site.Untagged stream)
    (wellSpaced : WellSpaced stream) (spacesOption : Spaces options.indent)
    (writableProperties : ∀ dependency ∈ plan.properties, dependency.Writable)
    (writableParameters : ∀ dependency ∈ plan.parameters, dependency.Writable)
    (writableAssignments : ∀ dependency ∈ plan.assignments, dependency.Writable)
    (result : planEdits stream site plan options = .ok edits) : Edit.Seated stream 0 edits := by
  obtain ⟨found, isConstructor, _⟩ := TokenStream.locate?_eq_some_iff.mp located
  obtain ⟨headEdits, listEdits, bodyEdits, rfl, headed, listResult, bodyResult⟩ :=
    planEdits_parts existing result
  have spacesIndent := wellSpaced.indentOr constructor.start spacesOption
  have encased {opening closing : Nat} (matched : stream.matchingClose? opening = some closing)
      (mark : ∃ opener, stream[opening]? = some opener ∧ opener.kind.sign?.isSome = true)
      (encloses : ∀ index, opening < index → index < closing → constructor.Encloses index) :
      stream.Encased opening closing := by
    refine ⟨TokenStream.delimited_of_matchingClose? matched, mark, fun token member => ?_⟩
    obtain ⟨index, behind, before, found⟩ := TokenStream.mem_slice_iff.mp member
    exact untagged constructor existing index token (encloses index behind before) found
  suffices rest : Edit.Seated stream (site.declaration.bodyOpen + 1) (listEdits ++ bodyEdits) by
    rcases headed with ⟨_, rfl⟩ | ⟨edit, rfl, nonempty, headResult⟩
    · exact rest.lower (Nat.zero_le _)
    · obtain ⟨tokens, generated, result⟩ := exists_of_bind_eq_ok headResult
      cases result
      exact .cons (Nat.zero_le _) (Edit.sits_behind_mark (TokenStream.isMark_bodyOpen found)
        fun copy => addition_properties writableProperties nonempty spacesIndent
          (spaces_lineEnding stream) generated) rest
  cases listed : constructor.parameterList with
  | none =>
      have noBody : constructor.bodyOpen = none := by
        rw [existing, Option.map_eq_some_iff] at isConstructor
        obtain ⟨⟨function, name⟩, _, rfl⟩ := isConstructor
        exact TokenStream.bodyOpen_eq_none_of_unlisted listed
      have noListEdits : listEdits = [] := by
        rw [parameterEdit] at listResult
        simp only [listed] at listResult
        cases listResult
        rfl
      rw [noListEdits, assignmentEdit_eq_nil (.inl noBody) bodyResult]
      exact .nil
  | some list =>
      obtain ⟨before, head, blanks, opener, inner, closer, tail, cut, _, _, _, _, isParen,
        levelInner, closes, opening, closing, parameters, atBody, atEnd⟩ :=
        TokenStream.locate?_parts located existing listed
      have behindHead := TokenStream.drop_of_drop_eq
        (TokenStream.drop_of_drop_eq (TokenStream.drop_of_drop_eq cut))
      rw [← opening] at behindHead
      obtain ⟨atOpener, behindOpener⟩ := TokenStream.drop_eq_cons_iff.mp behindHead
      have matched : stream.matchingClose? list.opening = some list.closing :=
        TokenStream.matchingClose?_eq_some_iff.mpr ⟨opener, inner, closer, tail, behindHead, closing,
          by rw [isParen]; rfl, closes, levelInner⟩
      have listSeats := parameterEdit_sits legible nested listed parameters
        ((TokenStream.matchingClose?_eq_some_iff_partners nested).mp matched)
        (encased matched ⟨opener, atOpener, by rw [isParen]; rfl⟩ fun index behind ahead =>
          .inl ⟨list, listed, behind, ahead⟩)
        wellSpaced writableParameters spacesIndent spacesOption listResult
      have listBefore : ∀ edit ∈ listEdits, edit.range.stop ≤ list.closing := fun edit member =>
        ((parameterEdit_trims listed parameters (List.getElem?_eq_some_iff.mp atOpener).1
          behindOpener closing levelInner listResult).within edit member).2
      have bodySeated : Edit.Seated stream list.closing bodyEdits := by
        cases opened : constructor.bodyOpen with
        | none =>
            rw [assignmentEdit_eq_nil (.inl opened) bodyResult]
            exact .nil
        | some bodyOpening =>
            cases closed : constructor.bodyClose with
            | none =>
                rw [assignmentEdit_eq_nil (.inr closed) bodyResult]
                exact .nil
            | some bodyClosing =>
                rw [opened] at atBody
                rw [opened, closed, Option.bind_some] at atEnd
                obtain ⟨between, brace, rest, behindList, behind, isBrace, _⟩ :=
                  TokenStream.bodyOpen?_eq_some_iff.mp atBody.symm
                have atBrace := TokenStream.getElem?_of_drop_eq behindList
                rw [← behind] at atBrace
                rcases assignmentEdit_sits legible opened closed
                  (encased atEnd.symm ⟨brace, atBrace, by rw [isBrace]; rfl⟩
                    fun index behind ahead =>
                      .inr ⟨bodyOpening, bodyClosing, opened, closed, behind, ahead⟩)
                  wellSpaced writableAssignments spacesIndent spacesOption bodyResult with
                  rfl | ⟨edit, rfl, sits⟩
                · exact .nil
                · exact .cons (by omega) sits .nil
      rcases listSeats with rfl | ⟨edit, anchor, rfl, lower, sits⟩
      · exact bodySeated.lower (by omega)
      · exact .cons (by omega) sits (bodySeated.lower (listBefore edit List.mem_cons_self))

/-- Each edit of an injection has its own anchor, from left to right. -/
theorem planEdits_seated (legible : Legible [] .html false stream) (nested : Nested stream)
    (located : stream.locate? options.marker = some site) (untagged : site.Untagged stream)
    (wellSpaced : WellSpaced stream) (spacesOption : Spaces options.indent)
    (marker : options.marker = defaultMarker)
    (nonempty : site.constructor? = none → plan.parameters ≠ [])
    (writableProperties : ∀ dependency ∈ plan.properties, dependency.Writable)
    (writableParameters : ∀ dependency ∈ plan.parameters, dependency.Writable)
    (writableAssignments : ∀ dependency ∈ plan.assignments, dependency.Writable)
    (result : planEdits stream site plan options = .ok edits) : Edit.Seated stream 0 edits := by
  cases existing : site.constructor? with
  | some constructor =>
      exact planEdits_seated_existing legible nested located existing untagged wellSpaced
        spacesOption writableProperties writableParameters writableAssignments result
  | none =>
      unfold planEdits at result
      simp only [existing] at result
      obtain ⟨edit, headResult, rest⟩ := exists_of_bind_eq_ok result
      cases rest
      obtain ⟨tokens, generated, rest⟩ := exists_of_bind_eq_ok headResult
      cases rest
      have found := (TokenStream.locate?_eq_some_iff.mp located).1
      have parts := constructorTokens_of_generate writableProperties writableParameters
        writableAssignments (nonempty existing) marker spacesOption (spaces_lineEnding stream)
        generated
      exact .cons (Nat.zero_le _) (Edit.sits_behind_mark (TokenStream.isMark_bodyOpen found)
        fun copy => parts.addition (scans_of_generate generated).legible) .nil

end Planned

end ConstructorInjection
