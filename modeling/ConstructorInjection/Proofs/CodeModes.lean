import Mathlib.Data.List.Basic
import Mathlib.Data.List.Chain
import Mathlib.Tactic.Common
import ConstructorInjection.Proofs.LongestTokens
import ConstructorInjection.Proofs.TokenTexts

/-!
Where a file is code and where it is HTML. HTML reaches from the start of the file or a closing tag
up to the first place at which an open tag stands.
-/

namespace ConstructorInjection

/-- An open tag stands at the start of the text: `<?=`, or `<?php` in any case before a blank, a line
break or the end. -/
def OpensTag (text : Text) : Prop :=
  ['<', '?', '='] <+: text ∨
    ∃ word rest, text = '<' :: '?' :: (word ++ rest) ∧ Text.equalIgnoringCase word "php" = true ∧
      rest.head?.all isLineSpace = true

/-- What an open tag may take along behind its name. -/
def tagBlanks : List Text :=
  [[], [' '], ['\t'], ['\r'], ['\n'], ['\r', '\n']]

/-- The kinds of the open tags and how they are spelled. -/
inductive IsOpenTag : TokenKind → Text → Prop where
  | echo : IsOpenTag .openTagWithEcho ['<', '?', '=']
  | php {word blank : Text} (isWord : word.equalIgnoringCase "php" = true)
      (isBlank : blank ∈ tagBlanks) : IsOpenTag .openTag ('<' :: '?' :: (word ++ blank))

theorem exists_word {word : Text} (isWord : word.equalIgnoringCase "php" = true) :
    ∃ p h q, word = [p, h, q] := by
  have size : word.length = 3 := by
    have same := congrArg List.length (beq_iff_eq.mp isWord)
    simpa using same
  exact List.length_eq_three.mp size

theorem isSome_openTagAt?_iff {text : Text} : (openTagAt? text).isSome = true ↔ OpensTag text := by
  constructor
  · intro isTag
    unfold openTagAt? at isTag
    split at isTag
    next rest => exact .inl (List.prefix_append ['<', '?', '='] rest)
    next p h q rest _ =>
      split at isTag
      next isWord =>
        refine .inr ⟨[p, h, q], rest, rfl, isWord, ?_⟩
        split at isTag
        · rfl
        · rfl
        · rfl
        · rfl
        · rfl
        · rfl
        · contradiction
      next => contradiction
    next => contradiction
  · rintro (⟨rest, rfl⟩ | ⟨word, rest, rfl, isWord, blank⟩)
    · rfl
    · obtain ⟨p, h, q, rfl⟩ := exists_word isWord
      unfold openTagAt?
      split
      next => rfl
      next isTag =>
        cases isTag
        rw [if_pos isWord]
        split
        next => rfl
        next => rfl
        next => rfl
        next => rfl
        next => rfl
        next => rfl
        next noEnd _ noSpace noTab noFeed noReturn =>
          exfalso
          cases rest with
          | nil => exact noEnd rfl
          | cons first rest =>
              simp only [List.head?_cons, Option.all_some, isLineSpace, isBlank, Bool.or_eq_true,
                beq_iff_eq] at blank
              rcases blank with ((rfl | rfl) | rfl) | rfl
              · exact noSpace rest rfl
              · exact noTab rest rfl
              · exact noReturn rest rfl
              · exact noFeed rest rfl
      next noWord => exact absurd rfl (noWord p h q rest)

theorem isOpenTag_of_openTagAt? {text : Text} {tag : OpenTag} (found : openTagAt? text = some tag) :
    IsOpenTag tag.kind (text.take tag.length) := by
  unfold openTagAt? at found
  split at found
  next =>
    cases found
    exact .echo
  next p h q rest _ =>
    split at found
    next isWord =>
      have taken {blank : Text} (isBlank : blank ∈ tagBlanks) :
          IsOpenTag .openTag ('<' :: '?' :: p :: h :: q :: blank) := .php isWord isBlank
      split at found
      next =>
        cases found
        exact taken (by decide : [] ∈ tagBlanks)
      next =>
        cases found
        exact taken (by decide : ['\r', '\n'] ∈ tagBlanks)
      next =>
        cases found
        exact taken (by decide : [' '] ∈ tagBlanks)
      next =>
        cases found
        exact taken (by decide : ['\t'] ∈ tagBlanks)
      next =>
        cases found
        exact taken (by decide : ['\n'] ∈ tagBlanks)
      next =>
        cases found
        exact taken (by decide : ['\r'] ∈ tagBlanks)
      next => contradiction
    next => contradiction
  next => contradiction

/-- No open tag stands in front of the end of HTML. -/
theorem not_opensTag_of_lt_htmlExtent {text : Text} {length : Nat} (inside : length < htmlExtent text) :
    ¬ OpensTag (text.drop length) := by
  induction text generalizing length with
  | nil => contradiction
  | cons first rest ih =>
      rw [htmlExtent] at inside
      split at inside
      next => contradiction
      next noTag =>
        cases length with
        | zero => rwa [List.drop_zero, ← isSome_openTagAt?_iff]
        | succ length => exact ih (Nat.lt_of_succ_lt_succ inside)

/-- Up to its end, HTML holds no open tag. -/
theorem Piece.not_opensTag_of_html {input : Text}
    (isHtml : (Piece.ofHtml input).kind = .inlineHtml) {length : Nat}
    (inside : length < (Piece.ofHtml input).length) : ¬ OpensTag (input.drop length) := by
  obtain ⟨noTag, extent⟩ := Piece.openTagAt?_of_html isHtml
  cases length with
  | zero =>
      rw [List.drop_zero, ← isSome_openTagAt?_iff, noTag]
      simp
  | succ length =>
      rw [Nat.add_comm, ← List.drop_drop]
      exact not_opensTag_of_lt_htmlExtent (by omega)

theorem LexicalRule.noOpenTag :
    ∀ rule ∈ lexicalRules, rule.lexeme.gives .openTag = false ∧
      rule.lexeme.gives .openTagWithEcho = false := by
  decide

theorem Piece.isOpenTag {mode : LexMode} {memberName : Bool} {input : Text} {piece : Piece}
    (next : Piece.next mode memberName input = .ok piece)
    (isTag : piece.kind = .openTag ∨ piece.kind = .openTagWithEcho) :
    IsOpenTag piece.kind (input.take piece.length) := by
  cases mode with
  | html =>
      cases next
      rcases Piece.ofHtml_cases input with ⟨tag, found, kind, length⟩ | ⟨_, isHtml, _⟩
      · rw [kind, length]
        exact isOpenTag_of_openTagAt? found
      · rw [isHtml] at isTag
        simp at isTag
  | code =>
      obtain ⟨rule, member, gives, -⟩ := Piece.exists_rule next
      obtain ⟨noTag, noEcho⟩ := LexicalRule.noOpenTag rule member
      rcases isTag with isTag | isTag
      · rw [isTag, noTag] at gives
        contradiction
      · rw [isTag, noEcho] at gives
        contradiction

/-- The start of a file, or a place behind a closing tag. -/
def EntersHtml (before : List Token) : Prop :=
  ∀ last ∈ before.getLast?, last.kind = .closeTag

theorem modeBehind_of_entersHtml {before : List Token} (enters : EntersHtml before) :
    modeBehind .html before = .html := by
  rcases before.eq_nil_or_concat with rfl | ⟨front, last, rfl⟩
  · rfl
  · have isTag : last.kind = .closeTag := enters last (by simp)
    rw [List.concat_eq_append, modeBehind, List.foldl_append, List.foldl_cons, List.foldl_nil,
      isTag]
    rfl

/-- The byte at an offset belongs to HTML. -/
def InHtml (tokens : List Token) (offset : Nat) : Prop :=
  ∃ before token after, tokens = before ++ token :: after ∧ token.kind = .inlineHtml ∧
    (textOf before).byteLength ≤ offset ∧
    offset < (textOf before).byteLength + token.text.byteLength

/-- The byte at an offset lies between the start of the file or a closing tag and the next place at
which an open tag stands. -/
def BetweenTags (tokens : List Token) (offset : Nat) : Prop :=
  ∃ before after, tokens = before ++ after ∧ EntersHtml before ∧
    (textOf before).byteLength ≤ offset ∧
    ∀ front back, textOf after = front ++ back →
      (textOf before).byteLength + front.byteLength ≤ offset → ¬ OpensTag back

namespace Lexes

variable {mode : LexMode} {memberName : Bool} {place : Place} {input : Text} {tokens : List Token}

theorem isOpenTag (lexes : Lexes mode memberName place input tokens) :
    ∀ token ∈ tokens, token.kind = .openTag ∨ token.kind = .openTagWithEcho →
      IsOpenTag token.kind token.text := by
  induction lexes with
  | done => simp
  | step _ next _ ih => exact List.forall_mem_cons.mpr ⟨Piece.isOpenTag next, ih⟩

theorem entersHtml {before after : List Token} {html : Token}
    (lexes : Lexes mode memberName place input (before ++ html :: after))
    (isHtml : html.kind = .inlineHtml) : EntersHtml before := by
  obtain ⟨-, -, meets⟩ := List.isChain_append.mp lexes.meets
  intro last isLast
  exact (meets last isLast html rfl).html isHtml

theorem head?_openTag {next : Token} {rest : List Token}
    (lexes : Lexes .html memberName place input (next :: rest)) (opens : OpensTag input) :
    next.kind = .openTag ∨ next.kind = .openTagWithEcho := by
  cases lexes with
  | step _ found _ =>
      cases found
      obtain ⟨tag, isTag⟩ := Option.isSome_iff_exists.mp (isSome_openTagAt?_iff.mpr opens)
      rcases Piece.ofHtml_cases input with ⟨other, also, kind, _⟩ | ⟨noTag, _, _⟩
      · simp only [kind]
        exact (openTagAt?_ends also).2.1
      · rw [isTag] at noTag
        contradiction

/-- HTML holds no open tag, and one comes next unless the file ends. -/
theorem html_bounds {html : Token} {after : List Token}
    (lexes : Lexes mode memberName place input (html :: after)) (isHtml : html.kind = .inlineHtml) :
    (∀ front back, input = front ++ back → front.length < html.text.length → ¬ OpensTag back) ∧
      (after ≠ [] → OpensTag (textOf after) ∧
        ∀ next ∈ after.head?, next.kind = .openTag ∨ next.kind = .openTagWithEcho) := by
  obtain ⟨rfl, -⟩ := lexes.mode_of_html isHtml
  cases lexes with
  | step nonempty next later =>
      cases next
      refine ⟨?_, fun more => ?_⟩
      · rintro front back rfl inside
        rw [List.length_take] at inside
        have before : front.length < (Piece.ofHtml (front ++ back)).length := by omega
        have noTag := Piece.not_opensTag_of_html isHtml before
        rwa [List.drop_left] at noTag
      · obtain ⟨first, rest, rfl⟩ := List.exists_cons_of_ne_nil more
        have filled : input.drop (Piece.ofHtml input).length ≠ [] := by
          rw [← later.textOf_eq, textOf_cons]
          exact List.append_ne_nil_of_left_ne_nil (later.text_ne_nil first (by simp)) _
        have opens := isSome_openTagAt?_iff.mp (Piece.behindHtml filled isHtml)
        rw [later.textOf_eq]
        refine ⟨opens, ?_⟩
        rintro _ ⟨⟩
        have inHtml : LexMode.after .html (Piece.ofHtml input).kind = .html :=
          congrArg (LexMode.after .html) isHtml
        rw [inHtml] at later
        exact later.head?_openTag opens

/-- What is lexed as HTML begins with a token of HTML, unless an open tag stands there. -/
theorem html_of_not_opensTag {next : Token} {rest : List Token}
    (lexes : Lexes .html memberName place input (next :: rest)) (noTag : ¬ OpensTag input) :
    next.kind = .inlineHtml := by
  cases lexes with
  | step _ found _ =>
      cases found
      rcases Piece.ofHtml_cases input with ⟨tag, isTag, _, _⟩ | ⟨_, isHtml, _⟩
      · exact absurd (isSome_openTagAt?_iff.mp (by rw [isTag]; rfl)) noTag
      · exact isHtml

/-- The bytes of HTML are those from the start of the file or a closing tag up to the next open
tag. -/
theorem inHtml_iff (lexes : Lexes .html false Place.start input tokens) {offset : Nat}
    (inside : offset < input.byteLength) : InHtml tokens offset ↔ BetweenTags tokens offset := by
  constructor
  · rintro ⟨before, html, after, rfl, isHtml, starts, ends⟩
    refine ⟨before, html :: after, rfl, lexes.entersHtml isHtml, starts, ?_⟩
    intro front back cut reached
    refine (lexes.behind.html_bounds isHtml).1 front back cut ?_
    by_contra further
    have covers : html.text <+: front :=
      List.prefix_of_prefix_length_le ⟨textOf after, (textOf_cons html after).symm⟩
        ⟨back, cut.symm⟩ (Nat.le_of_not_lt further)
    obtain ⟨more, rfl⟩ := covers
    rw [Text.byteLength_append] at reached
    omega
  · rintro ⟨before, after, rfl, enters, starts, noTag⟩
    have behind := lexes.behind
    rw [modeBehind_of_entersHtml enters] at behind
    have size : input.byteLength = (textOf before).byteLength + (textOf after).byteLength := by
      rw [← lexes.textOf_eq, textOf_append, Text.byteLength_append]
    cases after with
    | nil =>
        rw [size] at inside
        exact absurd (Nat.lt_of_le_of_lt starts inside) (Nat.lt_irrefl _)
    | cons html after =>
        have isHtml := behind.html_of_not_opensTag (noTag [] _ rfl starts)
        refine ⟨before, html, after, rfl, isHtml, starts, ?_⟩
        by_contra further
        have reached := Nat.le_of_not_lt further
        have more : after ≠ [] := by
          rintro rfl
          rw [textOf_cons, Text.byteLength_append] at size
          exact absurd inside (by rw [size]; exact Nat.not_lt.mpr reached)
        exact noTag html.text (textOf after) (textOf_cons html after) reached
          ((behind.html_bounds isHtml).2 more).1

end Lexes

/-- HTML reaches exactly from the start of a file or a closing tag up to the next open tag. No open
tag begins in HTML, no two tokens of HTML follow each other, and an open tag takes at most one blank
or line break along. -/
theorem tokenize_modes {source : Text} {tokens : List Token} (lexed : tokenize source = .ok tokens) :
    (∀ offset < source.byteLength, InHtml tokens offset ↔ BetweenTags tokens offset) ∧
      (∀ before html after, tokens = before ++ html :: after → html.kind = .inlineHtml →
        EntersHtml before ∧
          (∀ front back, html.text = front ++ back → back ≠ [] →
            ¬ OpensTag (back ++ textOf after)) ∧
          ∀ next ∈ after.head?, next.kind = .openTag ∨ next.kind = .openTagWithEcho) ∧
      tokens.IsChain (fun token next =>
        ¬ (token.kind = .inlineHtml ∧ next.kind = .inlineHtml)) ∧
      ∀ token ∈ tokens, token.kind = .openTag ∨ token.kind = .openTagWithEcho →
        IsOpenTag token.kind token.text := by
  have lexes := Lexes.of_lexFrom (tokenize_eq_ok_iff.mp lexed).1
  refine ⟨fun offset inside => lexes.inHtml_iff inside, ?_, ?_, lexes.isOpenTag⟩
  · rintro before html after rfl isHtml
    obtain ⟨noTag, next⟩ := lexes.behind.html_bounds isHtml
    refine ⟨lexes.entersHtml isHtml, ?_, ?_⟩
    · intro front back cut nonempty
      refine noTag front (back ++ textOf after) ?_ ?_
      · rw [textOf_cons, cut, List.append_assoc]
      · rw [cut, List.length_append]
        exact Nat.lt_add_of_pos_right (List.length_pos_iff.mpr nonempty)
    · intro first isFirst
      refine (next ?_).2 first isFirst
      rintro rfl
      contradiction
  · refine lexes.meets.imp fun token next meets => ?_
    rintro ⟨isHtml, nextHtml⟩
    have isTag := meets.html nextHtml
    rw [isHtml] at isTag
    contradiction

/-- False starts of open tags, a tag with a carriage return and its line feed, and a closing tag in
a line comment. -/
def mixedPage : Text :=
  "<?xml?><?phpx <?<?PHP\r\n//a?>é<?=1?>"

def mixedPageTokens : List Token :=
  [⟨.inlineHtml, "<?xml?><?phpx <?", 1⟩, ⟨.openTag, "<?PHP\r\n", 1⟩, ⟨.lineComment, "//a", 2⟩,
   ⟨.closeTag, "?>", 2⟩, ⟨.inlineHtml, "é", 2⟩, ⟨.openTagWithEcho, "<?=", 2⟩, ⟨.number, "1", 2⟩,
   ⟨.closeTag, "?>", 2⟩]

theorem tokenize_mixedPage : tokenize mixedPage = .ok mixedPageTokens :=
  eq_ok_of_toOption (by decide +kernel)

theorem tokenize_modes_mixedPage :
    tokenize mixedPage = .ok mixedPageTokens ∧ BetweenTags mixedPageTokens 15 ∧
      ¬ OpensTag (['<', '?'] ++ textOf (mixedPageTokens.drop 1)) ∧
      EntersHtml (mixedPageTokens.take 4) := by
  obtain ⟨bytes, parts, -⟩ := tokenize_modes tokenize_mixedPage
  refine ⟨tokenize_mixedPage, (bytes 15 (by decide)).mp ?_, ?_, ?_⟩
  · exact ⟨[], ⟨.inlineHtml, "<?xml?><?phpx <?", 1⟩, mixedPageTokens.drop 1, rfl, rfl, by decide,
      by decide⟩
  · exact (parts [] _ (mixedPageTokens.drop 1) rfl rfl).2.1 "<?xml?><?phpx ".toList ['<', '?'] rfl
      (by decide)
  · exact (parts (mixedPageTokens.take 4) ⟨.inlineHtml, "é", 2⟩ (mixedPageTokens.drop 5) rfl
      rfl).1

end ConstructorInjection
