import Mathlib.Data.List.Basic
import Mathlib.Tactic.Common
import ConstructorInjection.Injection.Plan

/-!
The names that the naming schemes give to variables, as the injection judges them. The schemes keep
what may stand in a name and move an ASCII digit off its start, while the injection takes no number
sign of any script in front; and neither of them knows that `$this` is taken.
-/

namespace ConstructorInjection

namespace Unicode

/-- A number sign beyond ASCII that is no letter, such as a superscript digit. -/
def isForeignNumeral (character : Char) : Bool :=
  !isAscii character && isNumeric character && !isAlphabetic character

theorem isForeignNumeral_eq_false_of_isAscii {character : Char} (ascii : isAscii character = true) :
    isForeignNumeral character = false := by
  rw [isForeignNumeral, ascii]
  rfl

theorem isForeignNumeral_eq_false_of_isAlphabetic {character : Char}
    (alphabetic : isAlphabetic character = true) : isForeignNumeral character = false := by
  rw [isForeignNumeral, alphabetic, Bool.not_true, Bool.and_false]

theorem isAscii_of_isDigit {character : Char} (digit : character.isDigit = true) :
    isAscii character = true := by
  simp only [Char.isDigit, ge_iff_le, Bool.and_eq_true, decide_eq_true_eq,
    UInt32.le_iff_toNat_le] at digit
  have bound : character.toNat ≤ 57 := digit.2
  rw [isAscii, decide_eq_true_eq]
  omega

/-- Beside the ASCII digits, only number signs of other scripts are alphanumeric and no letters. -/
theorem isAlphabetic_iff {character : Char} (alphanumeric : isAlphanumeric character = true)
    (noDigit : character.isDigit = false) :
    isAlphabetic character = true ↔ isForeignNumeral character = false := by
  refine ⟨isForeignNumeral_eq_false_of_isAlphabetic, ?_⟩
  intro noNumeral
  rw [isAlphanumeric, Bool.or_eq_true] at alphanumeric
  rcases alphanumeric with alphabetic | numeric
  · exact alphabetic
  · cases ascii : isAscii character with
    | true =>
        rw [isNumeric, if_pos ascii, noDigit] at numeric
        contradiction
    | false => simpa [isForeignNumeral, ascii, numeric] using noNumeral

theorem isAscii_toLower {character : Char} (ascii : isAscii character = true) :
    isAscii character.toLower = true := by
  have table : ∀ code < 0x80, isAscii (Char.ofNat code).toLower = true := by decide
  rw [isAscii, decide_eq_true_eq] at ascii
  simpa only [Char.ofNat_toNat] using table character.toNat ascii

theorem toNat_ofNat_or (code : Nat) :
    (Char.ofNat code).toNat = code ∨ Char.ofNat code = '\x00' := by
  by_cases valid : code.isValidChar
  · left
    rw [Char.ofNat, dif_pos valid]
    rfl
  · right
    rw [Char.ofNat, dif_neg valid]
    rfl

theorem isForeignNumeral_ofNat {code : Nat}
    (known : code < 0x80 ∨ inRanges alphabeticRanges code = true) :
    isForeignNumeral (Char.ofNat code) = false := by
  rcases toNat_ofNat_or code with same | missing
  · by_cases ascii : code < 0x80
    · apply isForeignNumeral_eq_false_of_isAscii
      rw [isAscii, same, decide_eq_true_eq]
      exact ascii
    · apply isForeignNumeral_eq_false_of_isAlphabetic
      rw [isAlphabetic, isAscii, same, if_neg (by simpa using ascii)]
      exact known.resolve_left ascii
  · rw [missing]
    rfl

/-- The images of a run lie together, among the letters or in ASCII. -/
theorem images_lowercaseRuns : ∀ run ∈ lowercaseRuns,
    run.image + (run.last - run.first) < 0x80 ∨
      ∃ range ∈ alphabeticRanges,
        range.1 ≤ run.image ∧ run.image + (run.last - run.first) ≤ range.2 := by
  have checked : lowercaseRuns.all (fun run =>
      Nat.blt (run.image + (run.last - run.first)) 0x80 || alphabeticRanges.any fun range =>
        Nat.ble range.1 run.image && Nat.ble (run.image + (run.last - run.first)) range.2) =
      true := by
    decide +kernel
  intro run member
  have inTable := List.all_eq_true.mp checked run member
  rw [Bool.or_eq_true, Nat.blt_eq, List.any_eq_true] at inTable
  simpa only [Bool.and_eq_true, Nat.ble_eq] using inTable

theorem images_lowercaseExpansions : ∀ expansion ∈ lowercaseExpansions, ∀ code ∈ expansion.2,
    isForeignNumeral (Char.ofNat code) = false := by
  decide +kernel

theorem isForeignNumeral_of_image? {run : CaseRun} {code image : Nat} (member : run ∈ lowercaseRuns)
    (found : run.image? code = some image) : isForeignNumeral (Char.ofNat image) = false := by
  rw [CaseRun.image?, Option.ite_none_right_eq_some, Option.some.injEq] at found
  obtain ⟨⟨lower, upper, _⟩, rfl⟩ := found
  apply isForeignNumeral_ofNat
  rcases images_lowercaseRuns run member with ascii | ⟨range, inTable, low, high⟩
  · exact .inl (by omega)
  · refine .inr (List.any_eq_true.mpr ⟨range, inTable, ?_⟩)
    simp only [Bool.and_eq_true, decide_eq_true_eq]
    omega

/-- No character has a number sign of another script in its lower case, unless it is one itself. -/
theorem eq_of_mem_toLowercase {character lower : Char} (member : lower ∈ toLowercase character)
    (foreign : isForeignNumeral lower = true) : lower = character := by
  rw [toLowercase] at member
  split at member
  next ascii =>
    rw [List.mem_singleton.mp member,
      isForeignNumeral_eq_false_of_isAscii (isAscii_toLower ascii)] at foreign
    contradiction
  next =>
    rw [mapCase] at member
    split at member
    next images found =>
      obtain ⟨before, after, table, _⟩ := List.lookup_eq_some_iff.mp found
      obtain ⟨code, inImages, rfl⟩ := List.mem_map.mp member
      have listed : (character.toNat, images) ∈ lowercaseExpansions := by simp [table]
      rw [images_lowercaseExpansions _ listed code inImages] at foreign
      contradiction
    next =>
      split at member
      next image found =>
        obtain ⟨run, inRuns, isImage⟩ := List.exists_of_findSome?_eq_some found
        rw [List.mem_singleton.mp member, isForeignNumeral_of_image? inRuns isImage] at foreign
        contradiction
      next => exact List.mem_singleton.mp member

end Unicode

open Unicode (isForeignNumeral)

/-- The number signs of other scripts in a text are those of a class. -/
def DrawnFrom (className text : Text) : Prop :=
  ∀ character ∈ text, isForeignNumeral character = true → character ∈ className

namespace DrawnFrom

variable {className left right text : Text}

theorem of_subset (subset : ∀ character ∈ text, character ∈ className) :
    DrawnFrom className text :=
  fun character member _ => subset character member

theorem of_plain (plain : text.all (!isForeignNumeral ·) = true) : DrawnFrom className text := by
  intro character member foreign
  have noNumeral := List.all_eq_true.mp plain character member
  rw [foreign] at noNumeral
  contradiction

theorem mono (subset : ∀ character ∈ left, character ∈ right) (drawn : DrawnFrom className right) :
    DrawnFrom className left :=
  fun character member => drawn character (subset character member)

theorem append (first : DrawnFrom className left) (second : DrawnFrom className right) :
    DrawnFrom className (left ++ right) :=
  List.forall_mem_append.mpr ⟨first, second⟩

theorem flatten {parts : List Text} (drawn : ∀ part ∈ parts, DrawnFrom className part) :
    DrawnFrom className parts.flatten := by
  intro character member
  obtain ⟨part, inParts, inPart⟩ := List.mem_flatten.mp member
  exact drawn part inParts character inPart

theorem uncapitalize (drawn : DrawnFrom className text) :
    DrawnFrom className (Unicode.uncapitalize text) := by
  cases text with
  | nil => exact drawn
  | cons first rest =>
      obtain ⟨atFirst, behind⟩ := List.forall_mem_cons.mp drawn
      refine append ?_ behind
      intro character member foreign
      obtain rfl := Unicode.eq_of_mem_toLowercase member foreign
      exact atFirst foreign

theorem dropFinish? {finish kept : Text} (drawn : DrawnFrom className text)
    (dropped : Text.dropFinish? finish text = some kept) : DrawnFrom className kept := by
  rw [Text.dropFinish?, Option.ite_none_right_eq_some, Option.some.injEq] at dropped
  obtain ⟨_, rfl⟩ := dropped
  exact drawn.mono fun _ => List.mem_of_mem_take

end DrawnFrom

theorem Text.mem_of_mem_splitAtEach {separator character : Char} {text part : Text}
    (isPart : part ∈ splitAtEach separator text) (member : character ∈ part) :
    character ∈ text := by
  induction text generalizing part with
  | nil =>
      rw [splitAtEach, List.mem_singleton] at isPart
      rwa [isPart] at member
  | cons first rest ih =>
      rw [splitAtEach] at isPart
      split at isPart
      next =>
        rcases List.mem_cons.mp isPart with rfl | later
        · contradiction
        · exact List.mem_cons_of_mem _ (ih later member)
      next =>
        cases parts : splitAtEach separator rest with
        | nil =>
            rw [parts] at isPart
            contradiction
        | cons head others =>
            rw [parts] at ih isPart
            rcases List.mem_cons.mp isPart with rfl | later
            · rcases List.mem_cons.mp member with rfl | inHead
              · exact List.mem_cons_self
              · exact List.mem_cons_of_mem _ (ih List.mem_cons_self inHead)
            · exact List.mem_cons_of_mem _ (ih (List.mem_cons_of_mem _ later) member)

namespace NamingScheme

/-- What a name consists of. -/
def isNamePart (character : Char) : Bool :=
  Unicode.isAlphanumeric character || character == '_'

/-- A name after the last segment, with the characters that no name has. -/
def trailingDraft (className : Text) : Text :=
  let last := (segments className).getLastD "dependency"
  Unicode.uncapitalize
    (match Text.dropFinish? "Interface" last with
    | some (first :: rest) => first :: rest
    | _ => last)

/-- The words of a name, before characters that no name has are dropped. -/
def draft : NamingScheme → Text → Text
  | trailingSegment, className => trailingDraft className
  | moduleQualified, className =>
    match segments className with
    | _ :: module :: layer :: first :: rest =>
      let name := Unicode.uncapitalize module ++ layerName layer (first :: rest)
      (Text.dropFinish? "Interface" name).getD name
    | _ => trailingDraft className

theorem variableName_eq (scheme : NamingScheme) (className : Text) :
    scheme.variableName className = sanitize (scheme.draft className) := by
  cases scheme with
  | trailingSegment => rfl
  | moduleQualified =>
      rw [variableName, draft, moduleName]
      generalize segments className = parts
      match parts with
      | [] | [_] | [_, _] | [_, _, _] => rfl
      | _ :: _ :: _ :: _ :: _ => rfl

section Drawn

variable {className : Text}

theorem drawnFrom_of_mem_segments {segment : Text} (member : segment ∈ segments className) :
    DrawnFrom className segment :=
  .of_subset fun _ => Text.mem_of_mem_splitAtEach (List.mem_filter.mp member).1

theorem drawnFrom_layerName {layer : Text} {rest : List Text}
    (drawnLayer : DrawnFrom className layer) (drawn : ∀ segment ∈ rest, DrawnFrom className segment) :
    DrawnFrom className (layerName layer rest) := by
  have flat {parts : List Text} (sublist : ∀ part ∈ parts, part ∈ rest) :
      DrawnFrom className parts.flatten :=
    .flatten fun part member => drawn part (sublist part member)
  unfold layerName
  split
  · refine .append (flat ?_) (.of_plain (by decide))
    split
    · exact fun _ => (List.dropLast_sublist rest).mem
    · exact fun _ => id
  · split
    · split
      next first second tail =>
        split
        · have behind : ∀ part ∈ second :: tail, part ∈ first :: second :: tail :=
            fun _ => List.mem_cons_of_mem first
          simp only
          split
          · exact flat behind
          · exact (flat behind).append (.of_plain (by decide))
        · exact flat fun _ => id
      next => exact flat fun _ => id
    · exact drawnLayer.append (flat fun _ => id)

theorem drawnFrom_trailingDraft (className : Text) :
    DrawnFrom className (trailingDraft className) := by
  have last : DrawnFrom className ((segments className).getLastD "dependency") := by
    rw [List.getLastD_eq_getLast?]
    cases found : (segments className).getLast? with
    | none => exact .of_plain (by decide)
    | some segment => exact drawnFrom_of_mem_segments (List.mem_of_getLast? found)
  apply DrawnFrom.uncapitalize
  split
  next dropped => exact last.dropFinish? dropped
  next => exact last

/-- A name has no number sign of another script that its class does not have. -/
theorem drawnFrom_draft (scheme : NamingScheme) (className : Text) :
    DrawnFrom className (scheme.draft className) := by
  cases scheme with
  | trailingSegment => exact drawnFrom_trailingDraft className
  | moduleQualified =>
      rw [draft]
      split
      next vendor module layer first rest found =>
        have drawn : ∀ segment ∈ vendor :: module :: layer :: first :: rest,
            DrawnFrom className segment := by
          intro segment member
          exact drawnFrom_of_mem_segments (found ▸ member)
        simp only [List.forall_mem_cons] at drawn
        obtain ⟨_, drawnModule, drawnLayer, drawnFirst, drawnRest⟩ := drawn
        have name := drawnModule.uncapitalize.append
          (drawnFrom_layerName drawnLayer (List.forall_mem_cons.mpr ⟨drawnFirst, drawnRest⟩))
        simp only
        cases dropped : Text.dropFinish? "Interface"
            (Unicode.uncapitalize module ++ layerName layer (first :: rest)) with
        | none => exact name
        | some kept => exact name.dropFinish? dropped
      next => exact drawnFrom_trailingDraft className

end Drawn

theorem sanitize_eq_of_filter_nil {name : Text} (kept : name.filter isNamePart = []) :
    sanitize name = "dependency" := by
  unfold sanitize
  split
  next => rfl
  next found => exact absurd (found.symm.trans kept) (List.cons_ne_nil _ _)

theorem sanitize_eq_of_filter_cons {name rest : Text} {first : Char}
    (kept : name.filter isNamePart = first :: rest) :
    sanitize name = if first.isDigit then '_' :: first :: rest else first :: rest := by
  unfold sanitize
  split
  next found => exact absurd (kept.symm.trans found) (List.cons_ne_nil _ _)
  next found =>
    obtain ⟨rfl, rfl⟩ := List.cons.inj (found.symm.trans kept)
    rfl

theorem isNamePart_of_mem_sanitize {name : Text} :
    ∀ character ∈ sanitize name, isNamePart character = true := by
  unfold sanitize
  split
  next => exact List.all_eq_true.mp (by decide)
  next first rest kept =>
    have parts : ∀ character ∈ first :: rest, isNamePart character = true := by
      intro character member
      exact (List.mem_filter.mp (kept ▸ member)).2
    split
    · exact List.forall_mem_cons.mpr ⟨rfl, parts⟩
    · exact parts

/-- The injection takes a name whose first kept character is no number sign of another script. -/
theorem hasValidVariable_sanitize_iff (className name : Text) :
    Dependency.hasValidVariable ⟨className, sanitize name⟩ = true ↔
      (name.filter isNamePart).head?.any isForeignNumeral = false := by
  have parts : (sanitize name).all (fun c => c == '_' || Unicode.isAlphanumeric c) = true := by
    rw [List.all_eq_true]
    intro character member
    rw [Bool.or_comm]
    exact isNamePart_of_mem_sanitize character member
  rw [Dependency.hasValidVariable, parts, Bool.and_true]
  simp only
  cases kept : name.filter isNamePart with
  | nil =>
      rw [sanitize_eq_of_filter_nil kept]
      decide
  | cons first rest =>
      have isPart : isNamePart first = true :=
        (List.mem_filter.mp (kept ▸ List.mem_cons_self)).2
      rw [isNamePart, Bool.or_eq_true, beq_iff_eq] at isPart
      rw [sanitize_eq_of_filter_cons kept, List.head?_cons, Option.any_some]
      split
      next digit =>
        have noNumeral := Unicode.isForeignNumeral_eq_false_of_isAscii
          (Unicode.isAscii_of_isDigit digit)
        simp [noNumeral]
      next noDigit =>
        rw [List.head?_cons, Option.any_some, Bool.or_eq_true, beq_iff_eq]
        rcases isPart with alphanumeric | rfl
        · rw [← Unicode.isAlphabetic_iff alphanumeric (Bool.eq_false_iff.mpr noDigit)]
          refine ⟨?_, .inr⟩
          rintro (rfl | alphabetic)
          · exact absurd alphanumeric (by decide)
          · exact alphabetic
        · decide

theorem exists_of_refused {className name : Text}
    (refused : Dependency.hasValidVariable ⟨className, sanitize name⟩ = false) :
    ∃ sign, (name.filter isNamePart).head? = some sign ∧ isForeignNumeral sign = true := by
  rw [← Bool.not_eq_true, hasValidVariable_sanitize_iff, Bool.not_eq_false,
    Option.any_eq_true] at refused
  exact refused

theorem head?_sanitize {name : Text} {sign : Char}
    (begins : (name.filter isNamePart).head? = some sign) (foreign : isForeignNumeral sign = true) :
    (sanitize name).head? = some sign := by
  obtain ⟨rest, kept⟩ := List.head?_eq_some_iff.mp begins
  rw [sanitize_eq_of_filter_cons kept, if_neg]
  · rfl
  · intro digit
    rw [Unicode.isForeignNumeral_eq_false_of_isAscii (Unicode.isAscii_of_isDigit digit)] at foreign
    contradiction

theorem sanitize_eq_this_iff (name : Text) :
    sanitize name = ("this" : Text) ↔ name.filter isNamePart = ("this" : Text) := by
  cases kept : name.filter isNamePart with
  | nil =>
      rw [sanitize_eq_of_filter_nil kept]
      decide
  | cons first rest =>
      rw [sanitize_eq_of_filter_cons kept]
      split
      next digit =>
        constructor
        · intro same
          exact absurd (List.cons.inj same).1 (by decide)
        · intro same
          rw [(List.cons.inj same).1] at digit
          exact absurd digit (by decide)
      next => rfl

end NamingScheme

/-- A variable that the injection takes for a parameter and a property, and that is not the object's
own. -/
def Dependency.IsInjectable (dependency : Dependency) : Prop :=
  dependency.hasValidVariable = true ∧ dependency.variableName ≠ ("this" : Text)

open NamingScheme (isNamePart) in
/-- Each character of a class's variable may stand in a name. The variable can be injected just if
what is kept of its words does not begin with a number sign of another script and is not `this`, and
one that the injection refuses begins with such a sign of the class. -/
theorem isInjectable_variableName_iff (scheme : NamingScheme) (className : Text) :
    let dependency : Dependency := ⟨className, scheme.variableName className⟩
    let kept := (scheme.draft className).filter isNamePart
    (∀ character ∈ dependency.variableName, isNamePart character = true) ∧
      (dependency.IsInjectable ↔
        kept.head?.any isForeignNumeral = false ∧ kept ≠ ("this" : Text)) ∧
      (dependency.hasValidVariable = false →
        ∃ sign ∈ className, isForeignNumeral sign = true ∧
          dependency.variableName.head? = some sign) := by
  simp only [Dependency.IsInjectable, NamingScheme.variableName_eq]
  refine ⟨NamingScheme.isNamePart_of_mem_sanitize, ?_, ?_⟩
  · rw [NamingScheme.hasValidVariable_sanitize_iff, ne_eq, NamingScheme.sanitize_eq_this_iff]
  · intro refused
    obtain ⟨sign, begins, foreign⟩ := NamingScheme.exists_of_refused refused
    have member := (List.mem_filter.mp (List.mem_of_head? begins)).1
    exact ⟨sign, NamingScheme.drawnFrom_draft scheme className sign member foreign, foreign,
      NamingScheme.head?_sanitize begins foreign⟩

example : NamingScheme.trailingSegment.variableName "\\Foo\\This" = "this" := by decide

/-- A class whose last segment begins with a superscript digit. -/
def superscriptClass : Text :=
  "\\Foo\\²x"

/-- The digit stays in front, where the injection takes none. -/
theorem not_isInjectable_superscriptClass :
    ¬ ∀ (scheme : NamingScheme) (className : Text),
      Dependency.IsInjectable ⟨className, scheme.variableName className⟩ := by
  intro injectable
  have refused : Dependency.hasValidVariable
      ⟨superscriptClass, NamingScheme.trailingSegment.variableName superscriptClass⟩ = false := by
    decide +kernel
  have valid := (injectable .trailingSegment superscriptClass).1
  exact Bool.false_ne_true (refused.symm.trans valid)

end ConstructorInjection
