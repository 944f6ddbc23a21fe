import ConstructorInjection.Text

/-!
The tables that say which classes and aliases have names of their own. Whatever no table holds
follows the naming conventions.
-/

namespace ConstructorInjection

/-- A finite map between texts, in the order in which its keys came. -/
structure Table where
  entries : List (Text × Text)
  deriving DecidableEq

namespace Table

def empty : Table :=
  ⟨[]⟩

def isEmpty (table : Table) : Bool :=
  table.entries.isEmpty

def find? (table : Table) (key : Text) : Option Text :=
  table.entries.lookup key

/-- The last value for a key stands. -/
def insert (table : Table) (key value : Text) : Table :=
  ⟨table.entries.filter (fun entry => entry.1 ≠ key) ++ [(key, value)]⟩

def sorted (table : Table) : List (Text × Text) :=
  table.entries.mergeSort fun left right => Text.compare left.1 right.1 != .gt

theorem find?_insert (table : Table) (key value other : Text) :
    (table.insert key value).find? other =
      if other = key then some value else table.find? other := by
  have absent (entries : List (Text × Text)) : other ≠ key →
      (entries.filter (fun entry => entry.1 ≠ key) ++ [(key, value)]).lookup other =
        entries.lookup other := by
    intro different
    induction entries with
    | nil => simp [different]
    | cons entry entries ih =>
        obtain ⟨first, image⟩ := entry
        by_cases same : first = key
        · subst same
          have unequal : (other == first) = false := by simpa using different
          simpa [List.lookup_cons, unequal] using ih
        · by_cases hit : other = first
          · subst hit
            simp [same]
          · have unequal : (other == first) = false := by simpa using hit
            simpa [List.lookup_cons, unequal, same] using ih
  have present (entries : List (Text × Text)) :
      (entries.filter (fun entry => entry.1 ≠ key) ++ [(key, value)]).lookup key = some value := by
    induction entries with
    | nil => simp
    | cons entry entries ih =>
        obtain ⟨first, image⟩ := entry
        by_cases same : first = key
        · simpa [same] using ih
        · have unequal : (key == first) = false := by simpa using fun eq => same eq.symm
          simpa [same, List.lookup_cons, unequal] using ih
  by_cases same : other = key
  · subst same
    simpa [find?, insert] using present table.entries
  · simpa [find?, insert, same] using absent table.entries same

end Table

/-- The aliases of each kind: a group and its class prefix, or a whole alias and its class. -/
structure AliasTables where
  helper : Table
  model : Table
  resourceModel : Table
  deriving DecidableEq

structure MappingTables where
  /-- New names of legacy classes. -/
  classes : Table
  aliases : AliasTables
  deriving DecidableEq

def AliasTables.empty : AliasTables :=
  ⟨Table.empty, Table.empty, Table.empty⟩

def MappingTables.empty : MappingTables :=
  ⟨Table.empty, AliasTables.empty⟩

def MappingTables.isEmpty (tables : MappingTables) : Bool :=
  tables.classes.isEmpty && tables.aliases.helper.isEmpty && tables.aliases.model.isEmpty &&
    tables.aliases.resourceModel.isEmpty

end ConstructorInjection
