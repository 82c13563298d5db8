import HackStack.Main
import HackStack.Session
import HackStack.File.Tree
import HackStack.Proofs.Simulation
import HackStack.Proofs.CallReturn
import HackStack.Proofs.LabelCapture
import HackStack.Proofs.Batches
import HackStack.Proofs.ProgramOutcome
import HackStack.Proofs.Spelling
import HackStack.Proofs.LegalAssembly
import HackStack.Proofs.Layout
import HackStack.Proofs.Refusals
import HackStack.Proofs.Contexts
import HackStack.Proofs.Comments
import HackStack.Proofs.StaticNames
import HackStack.Proofs.FileSystems
import HackStack.Proofs.SignedOrder
import HackStack.Proofs.JobOutcome
import HackStack.Proofs.Invocations
import HackStack.Proofs.Rebuild
import HackStack.Proofs.Grammar
import HackStack.Proofs.Combinators
import HackStack.Proofs.Planning
import HackStack.Proofs.OutputLines
