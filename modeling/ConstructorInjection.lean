import ConstructorInjection.Main
import ConstructorInjection.Proofs.AnonymousClasses
import ConstructorInjection.Proofs.ArgumentCalls
import ConstructorInjection.Proofs.ArgumentForms
import ConstructorInjection.Proofs.AttributeLines
import ConstructorInjection.Proofs.AwaitedClosers
import ConstructorInjection.Proofs.BalancedReplacements
import ConstructorInjection.Proofs.ClassExpressions
import ConstructorInjection.Proofs.CodeModes
import ConstructorInjection.Proofs.ConversionFailures
import ConstructorInjection.Proofs.ConversionRuns
import ConstructorInjection.Proofs.ConversionTasks
import ConstructorInjection.Proofs.CopiedPieces
import ConstructorInjection.Proofs.CopiedSpans
import ConstructorInjection.Proofs.CopiedTokens
import ConstructorInjection.Proofs.DiscoveredPaths
import ConstructorInjection.Proofs.DiscoveredSources
import ConstructorInjection.Proofs.EditWalk
import ConstructorInjection.Proofs.Fragments
import ConstructorInjection.Proofs.HelperAliases
import ConstructorInjection.Proofs.Idempotence
import ConstructorInjection.Proofs.LocatedPlaces
import ConstructorInjection.Proofs.LongestTokens
import ConstructorInjection.Proofs.Lossless
import ConstructorInjection.Proofs.NestingFaults
import ConstructorInjection.Proofs.OwnConstructors
import ConstructorInjection.Proofs.PairedInjections
import ConstructorInjection.Proofs.Patches
import ConstructorInjection.Proofs.Postconditions
import ConstructorInjection.Proofs.ReadingBack
import ConstructorInjection.Proofs.ReplacementTexts
import ConstructorInjection.Proofs.SeparatedItems
import ConstructorInjection.Proofs.Soundness
import ConstructorInjection.Proofs.SpanEdits
import ConstructorInjection.Proofs.Stability
import ConstructorInjection.Proofs.VariableNames
import ConstructorInjection.Proofs.WrittenParameters
