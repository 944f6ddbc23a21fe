import ConstructorInjection.Dependency
import ConstructorInjection.MappingTables

/-!
From the alias of a legacy factory call to the class that replaces it. An alias names a legacy
class, and a legacy class has a namespaced successor; tables come before conventions in both steps.
-/

namespace ConstructorInjection

/-- The factory that an alias is given to. -/
inductive AliasKind where
  | helper
  | model
  | resourceModel
  deriving DecidableEq

namespace AliasKind

def table (kind : AliasKind) (tables : MappingTables) : Table :=
  match kind with
  | helper => tables.aliases.helper
  | model => tables.aliases.model
  | resourceModel => tables.aliases.resourceModel

/-- The part of a conventional class name between the module and the rest. -/
def layer : AliasKind → Text
  | helper => "Helper"
  | model => "Model"
  | resourceModel => "Model_Resource"

end AliasKind

/-- A whole class name, as opposed to a group. -/
def isClassLike (aliasText : Text) : Bool :=
  aliasText.head? == some '\\' ||
    ((aliasText.contains '_' || aliasText.contains '\\') && aliasText.head?.any Char.isUpper)

/-- Every word between underscores with a capital. -/
def capitalizeWords (text : Text) : Text :=
  Text.joinWith "_" ((Text.splitAtEach '_' text).map Unicode.capitalize)

/-- A class name with a backslash in front. -/
def qualify (className : Text) : Text :=
  if className.head? = some '\\' then className else '\\' :: className

/-- The successor of a legacy class by convention: the vendor is renamed, underscores separate
namespaces, and resource models have a namespace of their own. -/
def conventionalClass (legacy : Text) : Text :=
  let underscoresApart (name : Text) : Text := name.map fun c => if c = '_' then '\\' else c
  let namespaced :=
    match Text.dropStart? "Mage_" legacy with
    | some rest => "\\Magento\\" ++ underscoresApart rest
    | none => '\\' :: underscoresApart legacy
  Text.replaceAll "\\Model\\Mysql4\\" "\\Model\\ResourceModel\\"
    (Text.replaceAll "\\Model\\Resource\\" "\\Model\\ResourceModel\\" namespaced)

structure Resolver where
  tables : MappingTables
  naming : NamingScheme
  deriving DecidableEq

namespace Resolver

/-- Splits an alias into its group and the rest. A helper's rest may be left out. -/
def groupAndRest? (kind : AliasKind) (aliasText : Text) : Option (Text × Text) :=
  match Text.splitAtFirst? '/' aliasText with
  | some ([], _) => none
  | some (group, []) => if kind = .helper then some (group, "data") else none
  | some (group, rest) => some (group, rest)
  | none => if kind = .helper then some (aliasText, "data") else none

/-- The legacy class of an alias; none when the alias cannot name one. -/
def legacyClass? (resolver : Resolver) (kind : AliasKind) (aliasText : Text) : Option Text :=
  let name := Unicode.trim aliasText
  let table := kind.table resolver.tables
  if name = [] then none
  else
    match table.find? name with
    | some className => some className
    | none =>
      if !name.contains '/' && isClassLike name then some name
      else
        (groupAndRest? kind name).map fun (group, rest) =>
          let start :=
            (table.find? group).getD ("Mage_" ++ capitalizeWords group ++ "_" ++ kind.layer)
          start ++ "_" ++ capitalizeWords rest

/-- The successor of a legacy class, with a backslash in front. -/
def targetClass (resolver : Resolver) (legacy : Text) : Text :=
  match resolver.tables.classes.find? legacy with
  | some mapped => qualify mapped
  | none => if legacy.contains '\\' then qualify legacy else conventionalClass legacy

def variableName (resolver : Resolver) (className : Text) : Text :=
  resolver.naming.variableName className

def resolve? (resolver : Resolver) (kind : AliasKind) (aliasText : Text) : Option Dependency :=
  (resolver.legacyClass? kind aliasText).map fun legacy =>
    let className := resolver.targetClass legacy
    ⟨className, resolver.variableName className⟩

end Resolver

end ConstructorInjection
