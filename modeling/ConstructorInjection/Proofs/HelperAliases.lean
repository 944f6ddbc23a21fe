import Mathlib.Data.List.Basic
import Mathlib.Tactic.Common
import ConstructorInjection.Resolver

/-!
The aliases of a group's data helper: the group alone, the group with a slash, and the group with
`data`. The last two always name one class. The group alone names it too, unless the table of helper
aliases maps the group: then it names what is meant as the start of class names.
-/

namespace ConstructorInjection

namespace Unicode

theorem length_trim_le (text : Text) : (trim text).length ≤ (text.dropWhile isSpace).length := by
  have shorter : ((text.dropWhile isSpace).reverse.dropWhile isSpace).length ≤
      (text.dropWhile isSpace).reverse.length := (List.dropWhile_suffix isSpace).length_le
  rw [List.length_reverse] at shorter
  rwa [trim, List.length_reverse]

theorem isSpace_of_trim {first : Char} {rest : Text}
    (trimmed : trim (first :: rest) = first :: rest) : isSpace first = false := by
  rw [Bool.eq_false_iff]
  intro space
  have size := length_trim_le (first :: rest)
  have shorter : (rest.dropWhile isSpace).length ≤ rest.length :=
    (List.dropWhile_suffix isSpace).length_le
  rw [trimmed, List.dropWhile_cons_of_pos space, List.length_cons] at size
  omega

/-- What follows a trimmed text is trimmed with it, up to its last character. -/
theorem trim_append {text front : Text} {last : Char} (trimmed : trim text = text)
    (nonempty : text ≠ []) (visible : isSpace last = false) :
    trim (text ++ (front ++ [last])) = text ++ (front ++ [last]) := by
  obtain ⟨first, rest, rfl⟩ := List.exists_cons_of_ne_nil nonempty
  have starts : (first :: (rest ++ (front ++ [last]))).dropWhile isSpace =
      first :: (rest ++ (front ++ [last])) :=
    List.dropWhile_cons_of_neg (by simp [isSpace_of_trim trimmed])
  have ends : (first :: (rest ++ (front ++ [last]))).reverse =
      last :: (first :: (rest ++ front)).reverse := by
    simp
  rw [List.cons_append, trim, starts, ends, List.dropWhile_cons_of_neg (by simp [visible]), ← ends,
    List.reverse_reverse]

end Unicode

theorem Text.splitAtFirst?_append {group : Text} {separator : Char} (rest : Text)
    (whole : separator ∉ group) :
    splitAtFirst? separator (group ++ separator :: rest) = some (group, rest) := by
  have plain : ∀ c ∈ group, decide (c ≠ separator) = true := by
    intro c member
    rw [decide_eq_true_eq]
    rintro rfl
    exact whole member
  rw [splitAtFirst?, if_pos (by simp), List.takeWhile_append_of_pos plain,
    List.dropWhile_append_of_pos plain, List.takeWhile_cons_of_neg (by simp),
    List.dropWhile_cons_of_neg (by simp), List.append_nil]
  rfl

/-- The name of a group of classes: part of an alias, and no class name itself. -/
structure IsGroup (group : Text) : Prop where
  nonempty : group ≠ []
  trimmed : Unicode.trim group = group
  whole : '/' ∉ group
  noClass : isClassLike group = false

namespace Resolver

/-- What the names of a group's helper classes start with. -/
def helperStart (resolver : Resolver) (group : Text) : Text :=
  (resolver.tables.aliases.helper.find? group).getD
    ("Mage_" ++ capitalizeWords group ++ "_" ++ AliasKind.layer .helper)

variable {resolver : Resolver} {group : Text}

theorem append_data (start : Text) :
    start ++ ("_" : Text) ++ capitalizeWords ("data" : Text) = start ++ "_Data" := by
  rw [List.append_assoc]
  rfl

/-- A group with a slash, or with `data` behind it. -/
theorem legacyClass?_dataAlias (isGroup : IsGroup group) {rest : Text}
    (isData : rest = [] ∨ rest = ("data" : Text))
    (unlisted : resolver.tables.aliases.helper.find? (group ++ '/' :: rest) = none) :
    resolver.legacyClass? .helper (group ++ '/' :: rest) =
      some (resolver.helperStart group ++ "_Data") := by
  have trimmed : Unicode.trim (group ++ '/' :: rest) = group ++ '/' :: rest := by
    rcases isData with rfl | rfl
    · exact @Unicode.trim_append group [] '/' isGroup.trimmed isGroup.nonempty (by decide)
    · exact @Unicode.trim_append group ['/', 'd', 'a', 't'] 'a' isGroup.trimmed isGroup.nonempty
        (by decide)
  have parts : groupAndRest? .helper (group ++ '/' :: rest) =
      some (group, ("data" : String).toList) := by
    obtain ⟨first, others, rfl⟩ := List.exists_cons_of_ne_nil isGroup.nonempty
    rw [groupAndRest?, Text.splitAtFirst?_append rest isGroup.whole]
    rcases isData with rfl | rfl <;> rfl
  have slashed : (group ++ '/' :: rest).contains '/' = true := by simp
  rw [legacyClass?, trimmed]
  simp only
  rw [if_neg (by simp), AliasKind.table, unlisted]
  simp only
  rw [slashed, parts, Bool.not_true, Bool.false_and, if_neg Bool.false_ne_true, Option.map_some]
  simp only
  rw [append_data]
  rfl

/-- A group alone, in the table or not. -/
theorem legacyClass?_group (isGroup : IsGroup group) :
    resolver.legacyClass? .helper group =
      some ((resolver.tables.aliases.helper.find? group).getD
        (resolver.helperStart group ++ "_Data")) := by
  rw [legacyClass?, isGroup.trimmed]
  simp only
  rw [if_neg isGroup.nonempty, AliasKind.table]
  cases listed : resolver.tables.aliases.helper.find? group with
  | some mapped => rfl
  | none =>
      simp only
      rw [isGroup.noClass, Bool.and_false, if_neg Bool.false_ne_true, groupAndRest?,
        Text.splitAtFirst?, if_neg isGroup.whole, helperStart, listed]
      simp only [↓reduceIte, Option.map_some]
      rw [append_data, listed, Option.getD_none, Option.getD_none]

end Resolver

/-- Replacing parts by others with as many of a character keeps the number of that character. -/
theorem Text.count_replaceAll {part replacement : Text} {character : Char}
    (same : replacement.count character = part.count character) (text : Text) :
    (replaceAll part replacement text).count character = text.count character := by
  fun_induction replaceAll part replacement text with
  | case1 => rfl
  | case2 first rest found ih =>
      obtain ⟨behind, whole⟩ := List.isPrefixOf_iff_prefix.mp found.2
      obtain ⟨head, tail, rfl⟩ := List.exists_cons_of_ne_nil found.1
      have dropped : rest.drop ((head :: tail).length - 1) = behind := by
        rw [List.cons_append, List.cons.injEq] at whole
        rw [← whole.2, List.length_cons, Nat.add_sub_cancel, List.drop_left]
      rw [List.count_append, ih, dropped, same, ← List.count_append, whole]
  | case3 first rest _ ih => rw [List.count_cons, List.count_cons, ih]

/-- Each separator of a legacy class name is one of its successor, and one stands in front. -/
theorem count_conventionalClass (legacy : Text) :
    (conventionalClass legacy).count '\\' = legacy.countP (fun c => c = '_' ∨ c = '\\') + 1 := by
  have apart (name : Text) : (name.map fun c => if c = '_' then '\\' else c).count '\\' =
      name.countP fun c => c = '_' ∨ c = '\\' := by
    rw [List.count, List.countP_map]
    refine List.countP_congr fun c _ => ?_
    by_cases underscore : c = '_' <;> simp [underscore]
  rw [conventionalClass, Text.count_replaceAll (by decide), Text.count_replaceAll (by decide)]
  cases start : Text.dropStart? "Mage_" legacy with
  | none =>
      simp only
      rw [List.count_cons_self, apart]
  | some rest =>
      rw [Text.dropStart?] at start
      split at start
      next isPrefix =>
        cases start
        obtain ⟨rest, rfl⟩ := List.isPrefixOf_iff_prefix.mp isPrefix
        simp only
        rw [List.drop_left, List.count_append, apart, List.countP_append]
        have front : ("Mage_" : Text).countP (fun c => c = '_' ∨ c = '\\') = 1 := by decide
        have inFront : ("\\Magento\\" : Text).count '\\' = 2 := by decide
        omega
      next => contradiction

namespace Resolver

/-- Without an entry of the class table, a class and the one with `_Data` behind it have different
successors. -/
theorem targetClass_ne {resolver : Resolver} {legacy : Text}
    (unmapped : resolver.tables.classes.find? legacy = none)
    (unmappedData : resolver.tables.classes.find? (legacy ++ "_Data") = none) :
    resolver.targetClass legacy ≠ resolver.targetClass (legacy ++ "_Data") := by
  have sameForm : (legacy ++ ("_Data" : Text)).contains '\\' = legacy.contains '\\' := by
    simp
  rw [targetClass, targetClass, unmapped, unmappedData]
  simp only
  rw [sameForm]
  intro same
  -- Both names are qualified and differ in length, or both are conventional and `_Data` makes one
  -- more separator.
  split at same
  next qualified =>
    obtain ⟨first, rest, rfl⟩ := List.exists_cons_of_ne_nil (show legacy ≠ [] by
      rintro rfl
      contradiction)
    have size := congrArg List.length same
    rw [qualify, qualify, List.cons_append, List.head?_cons, List.head?_cons] at size
    split at size <;> simp at size
  next =>
    have marks := congrArg (List.count '\\') same
    rw [count_conventionalClass, count_conventionalClass, List.countP_append] at marks
    have added : ("_Data" : Text).countP (fun c => c = '_' ∨ c = '\\') = 1 := by decide
    omega

/-- With a slash and with `data`, a helper's group resolves to one class. Alone, it does so just if
the table of helper aliases does not map it, or if the class table leads from what it maps the group
to where it leads from that with `_Data` behind it. -/
theorem resolve?_helperGroup (resolver : Resolver) (group : Text) (isGroup : IsGroup group)
    (noSlash : resolver.tables.aliases.helper.find? (group ++ "/") = none)
    (noData : resolver.tables.aliases.helper.find? (group ++ "/data") = none) :
    ∃ short full, resolver.resolve? .helper group = some short ∧
      resolver.resolve? .helper (group ++ "/") = some full ∧
      resolver.resolve? .helper (group ++ "/data") = some full ∧
      (short = full ↔ ∀ mapped, resolver.tables.aliases.helper.find? group = some mapped →
        resolver.targetClass mapped = resolver.targetClass (mapped ++ "_Data")) ∧
      ∀ mapped, resolver.tables.aliases.helper.find? group = some mapped →
        resolver.tables.classes.find? mapped = none →
          resolver.tables.classes.find? (mapped ++ "_Data") = none →
            short.className ≠ full.className := by
  have slashed := legacyClass?_dataAlias isGroup (.inl rfl) noSlash
  have withData := legacyClass?_dataAlias isGroup (.inr rfl) noData
  have alone := @legacyClass?_group resolver group isGroup
  let named (legacy : Text) : Dependency :=
    ⟨resolver.targetClass legacy, resolver.variableName (resolver.targetClass legacy)⟩
  refine ⟨_, named (resolver.helperStart group ++ "_Data"), congrArg (Option.map named) alone,
    congrArg (Option.map named) slashed, congrArg (Option.map named) withData, ?_, ?_⟩
  · constructor
    · intro same mapped listed
      have classes := congrArg Dependency.className same
      rw [listed, helperStart, listed] at classes
      exact classes
    · intro agree
      cases listed : resolver.tables.aliases.helper.find? group with
      | none => rfl
      | some mapped =>
          rw [helperStart, listed]
          simp only [Option.getD_some, named, agree mapped listed]
  · intro mapped listed unmapped unmappedData
    rw [listed, helperStart, listed]
    exact targetClass_ne unmapped unmappedData

/-- The table of the tax module's helpers says what their class names start with. -/
def taxHelpers : Resolver :=
  ⟨⟨Table.empty, ⟨⟨[("tax", "Mage_Tax_Helper")]⟩, Table.empty, Table.empty⟩⟩, .moduleQualified⟩

theorem isGroup_tax : IsGroup "tax" :=
  ⟨by decide, by decide, by decide, by decide⟩

theorem isGroup_catalog : IsGroup "catalog" :=
  ⟨by decide, by decide, by decide, by decide⟩

theorem resolve?_helperGroup_taxHelpers :
    IsGroup "tax" ∧ taxHelpers.tables.aliases.helper.find? ("tax" ++ "/") = none ∧
      taxHelpers.tables.aliases.helper.find? ("tax" ++ "/data") = none ∧
      taxHelpers.tables.aliases.helper.find? "tax" = some ("Mage_Tax_Helper" : Text) ∧
      (∃ short full, taxHelpers.resolve? .helper "tax" = some short ∧
        taxHelpers.resolve? .helper ("tax" ++ "/") = some full ∧
        taxHelpers.resolve? .helper ("tax" ++ "/data") = some full ∧
        short.className ≠ full.className) ∧
      IsGroup "catalog" ∧ taxHelpers.tables.aliases.helper.find? ("catalog" ++ "/") = none ∧
      taxHelpers.tables.aliases.helper.find? ("catalog" ++ "/data") = none ∧
      ∃ full, taxHelpers.resolve? .helper "catalog" = some full ∧
        taxHelpers.resolve? .helper ("catalog" ++ "/") = some full ∧
        taxHelpers.resolve? .helper ("catalog" ++ "/data") = some full := by
  have listed : taxHelpers.tables.aliases.helper.find? "tax" = some ("Mage_Tax_Helper" : Text) := by
    decide
  obtain ⟨short, full, alone, slashed, withData, _, apart⟩ :=
    resolve?_helperGroup taxHelpers "tax" isGroup_tax (by decide) (by decide)
  obtain ⟨other, whole, otherAlone, otherSlashed, otherData, agree, _⟩ :=
    resolve?_helperGroup taxHelpers "catalog" isGroup_catalog (by decide) (by decide)
  have same : other = whole := agree.mpr fun mapped found => by
    have unlisted : taxHelpers.tables.aliases.helper.find? "catalog" = none := by decide
    rw [unlisted] at found
    contradiction
  rw [same] at otherAlone
  exact ⟨isGroup_tax, by decide, by decide, listed,
    ⟨short, full, alone, slashed, withData, apart _ listed rfl rfl⟩, isGroup_catalog, by decide,
    by decide, whole, otherAlone, otherSlashed, otherData⟩

/-- A group that the table maps does not resolve like its full aliases. -/
theorem not_resolve?_helperGroup_taxHelpers :
    ¬ ∀ (resolver : Resolver) (group : Text), IsGroup group →
      resolver.tables.aliases.helper.find? (group ++ "/") = none →
        resolver.tables.aliases.helper.find? (group ++ "/data") = none →
          resolver.resolve? .helper group = resolver.resolve? .helper (group ++ "/") ∧
            resolver.resolve? .helper (group ++ "/") =
              resolver.resolve? .helper (group ++ "/data") := by
  intro agree
  have same := (agree taxHelpers "tax" isGroup_tax (by decide) (by decide)).1
  have apart : taxHelpers.resolve? .helper "tax" ≠ taxHelpers.resolve? .helper ("tax" ++ "/") := by
    decide +kernel
  exact apart same

end Resolver

end ConstructorInjection
