import XdrCompiler.Main
import XdrCompiler.Proofs.Search
import XdrCompiler.Proofs.CyclicComponents
import XdrCompiler.Proofs.LeastClosure
import XdrCompiler.Proofs.MarkedText
import XdrCompiler.Proofs.FileLayout
import XdrCompiler.Proofs.Compiled
import XdrCompiler.Proofs.FeatureOff
import XdrCompiler.Proofs.NameCharacters
import XdrCompiler.Proofs.SwitchLiterals
import XdrCompiler.Proofs.UnionCodec
import XdrCompiler.Proofs.CachedSets
import XdrCompiler.Proofs.SwitchCoverage
import XdrCompiler.Proofs.Building
import XdrCompiler.Proofs.RegistrationOrder
import XdrCompiler.Proofs.RepeatedBuilds
import XdrCompiler.Proofs.BuiltTable
import XdrCompiler.Proofs.ReplacedDiscriminants
import XdrCompiler.Proofs.RenderedAlike
import XdrCompiler.Proofs.RepeatedIdentifiers
import XdrCompiler.Proofs.FileWriting
import XdrCompiler.Proofs.OutputFile
import XdrCompiler.Proofs.FailedCalls
import XdrCompiler.Proofs.ReportAgreement
import XdrCompiler.Proofs.MoreBoxing
import XdrCompiler.Proofs.FailureKinds
import XdrCompiler.Proofs.ReportedFailures
import XdrCompiler.Proofs.AliasChains
import XdrCompiler.Proofs.UnionChecks
import XdrCompiler.Proofs.StructCodec
import XdrCompiler.Proofs.IntegerLiterals
import XdrCompiler.Proofs.ReferenceForms
import XdrCompiler.Proofs.RecoverableTypes
import XdrCompiler.Proofs.Replacement
import XdrCompiler.Proofs.StringLiterals
import XdrCompiler.Proofs.AssembledFile
import XdrCompiler.Proofs.CheckedOptions
import XdrCompiler.Proofs.RepeatedWrites
import XdrCompiler.Proofs.VariantNames
import XdrCompiler.Proofs.WordBoundaries
import XdrCompiler.Proofs.SnakeCase
