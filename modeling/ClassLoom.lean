import ClassLoom.Config.Reading
import ClassLoom.Script
import ClassLoom.Source.Directory
import ClassLoom.Proofs.NameForms
import ClassLoom.Proofs.ExactClassFile
import ClassLoom.Proofs.LocalHints
import ClassLoom.Proofs.ClassFileRoundTrip
import ClassLoom.Proofs.DescriptorGrammar
import ClassLoom.Proofs.StructuralRules
import ClassLoom.Proofs.LocalsCoverage
import ClassLoom.Proofs.ChainRun
import ClassLoom.Proofs.ArchiveRun
import ClassLoom.Proofs.ChainBlame
import ClassLoom.Proofs.ExclusionHistory
import ClassLoom.Proofs.ChainInMemory
import ClassLoom.Proofs.ChainComposition
import ClassLoom.Proofs.ArchiveOutcomes
import ClassLoom.Proofs.PassRun
import ClassLoom.Proofs.ServiceHistory
import ClassLoom.Proofs.DelegationCache
import ClassLoom.Proofs.PassDepth
import ClassLoom.Proofs.PassDemotion
import ClassLoom.Proofs.DemotionLasts
import ClassLoom.Proofs.InStep
import ClassLoom.Proofs.ServiceInStep
import ClassLoom.Proofs.KeepingNotes
import ClassLoom.Proofs.Spelling
import ClassLoom.Proofs.ClassFilePrefix
import ClassLoom.Proofs.ArchiveInPlace
import ClassLoom.Proofs.PassCalls
import ClassLoom.Proofs.PassAsChain
import ClassLoom.Proofs.ArchiveBypass
import ClassLoom.Proofs.GuardHistory
import ClassLoom.Proofs.ReaderHistory
import ClassLoom.Proofs.WriterHistory
import ClassLoom.Proofs.EncodingLimits
import ClassLoom.Proofs.RawLookup
import ClassLoom.Proofs.LoadAtCapacity
import ClassLoom.Proofs.WithinRoot
