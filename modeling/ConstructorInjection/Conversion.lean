import ConstructorInjection.Balance
import ConstructorInjection.Dispatch
import ConstructorInjection.Injection
import ConstructorInjection.StaticContext

/-!
Conversion of a file. The legacy calls in the first class, outside of its static parts, give way to
accesses to dependencies, and then these are injected into the constructor.
-/

namespace ConstructorInjection

inductive ConversionError where
  | lexical (error : LexError)
  | injection (error : InjectionError)
  /-- Converted calls that overlap. -/
  | overlap (conflict : EditConflict)
  deriving DecidableEq

namespace ConversionError

def message : ConversionError → Text
  | lexical error => error.message
  | injection error => error.message
  | overlap conflict => "internal error: " ++ conflict.message

/-- The line that is to blame, if one is. -/
def line? : ConversionError → Option Nat
  | lexical error => some error.line
  | _ => none

end ConversionError

structure Converter where
  resolver : Resolver
  options : InjectionOptions
  deriving DecidableEq

structure Conversion where
  stream : TokenStream
  /-- What the converted calls use, each dependency once, in the order of its first use. -/
  dependencies : List Dependency
  added : List Dependency
  /-- The converted calls that lie in no other one. -/
  sites : List CallSite
  /-- Further constructors of the class, which stay as they are. -/
  duplicates : Nat

/-- How many calls have been converted, with those inside of others. -/
def Conversion.convertedCalls (conversion : Conversion) : Nat :=
  (CallSite.dependenciesOfAll conversion.sites).length

/-- Each dependency once, where it comes first. -/
def distinct (dependencies : List Dependency) : List Dependency :=
  dependencies.foldl (fun found next => if found.contains next then found else found ++ [next]) []

namespace Converter

/-- The calls from `index` to before `stop` that are converted, none of them in a skipped range.
The skipped ranges are sorted by their start. -/
def sitesFrom (converter : Converter) (stream : TokenStream) (stop : Nat)
    (skipped : List IndexRange) (index : Nat) : List CallSite :=
  if index < stop then
    match _first : skipped.head?.filter (·.start ≤ index) with
    | some range => converter.sitesFrom stream stop skipped.tail (max index range.stop)
    | none =>
      match (dispatch? converter.resolver stream index).filter (·.stop ≤ stop) with
      | some site => site :: converter.sitesFrom stream stop skipped (max (index + 1) site.stop)
      | none => converter.sitesFrom stream stop skipped (index + 1)
  else []
termination_by (stop - index) + skipped.length
decreasing_by
  · cases skipped with
    | nil => simp at _first
    | cons range later => simp only [List.tail_cons, List.length_cons]; omega
  · omega
  · omega

def sites (converter : Converter) (stream : TokenStream) (declaration : ClassDeclaration) :
    List CallSite :=
  converter.sitesFrom stream declaration.bodyClose (stream.staticRanges declaration)
    (declaration.bodyOpen + 1)

/-- Injects dependencies into the first class of a stream, if there is one. -/
def injectInto (converter : Converter) (stream : TokenStream) (site? : Option ConstructorSite)
    (dependencies : List Dependency) : Except InjectionError Injected :=
  match site? with
  | none => .ok ⟨stream, []⟩
  | some site => inject stream site dependencies converter.options

def duplicatesOf (site? : Option ConstructorSite) : Nat :=
  match site? with
  | none => 0
  | some site => site.duplicates

/-- Converts a stream. A stream without a class, or without calls to convert, stays as it is. -/
def process (converter : Converter) (stream : TokenStream) :
    Except ConversionError Conversion :=
  match stream.findClass? with
  | none => .ok ⟨stream, [], [], [], 0⟩
  | some declaration =>
    match converter.sites stream declaration with
    | [] => .ok ⟨stream, [], [], [], duplicatesOf (stream.locate? converter.options.marker)⟩
    | first :: others => do
      let sites := first :: others
      let dependencies := distinct (CallSite.dependenciesOfAll sites)
      let edits := sites.map fun site => Edit.mk site.range site.replacement
      let edited ← (Edit.applyAll edits stream).mapError .overlap
      let site? := edited.locate? converter.options.marker
      let injected ← (converter.injectInto edited site? dependencies).mapError .injection
      return ⟨injected.stream, dependencies, injected.added, sites, duplicatesOf site?⟩

end Converter

structure ConvertedSource where
  output : Text
  changed : Bool
  dependencies : List Dependency
  added : List Dependency
  convertedCalls : Nat
  duplicates : Nat
  deriving DecidableEq

/-- Converts a source as a whole, or not at all. -/
def Converter.convertSource (converter : Converter) (source : Text) :
    Except ConversionError ConvertedSource := do
  let stream ← (tokenize source).mapError .lexical
  let conversion ← converter.process stream
  let output := textOf conversion.stream
  return {
    output
    changed := output != source
    dependencies := conversion.dependencies
    added := conversion.added
    convertedCalls := conversion.convertedCalls
    duplicates := conversion.duplicates }

end ConstructorInjection
