import Mips64.Assembly
import Mips64.CommandLine.Run
import Mips64.Include
import Mips64.Main
import Mips64.Proofs.BinaryLog
import Mips64.Proofs.Branch
import Mips64.Proofs.Comments
import Mips64.Proofs.CountCheck
import Mips64.Proofs.Decoding
import Mips64.Proofs.DefinitionOrder
import Mips64.Proofs.DepthFirst
import Mips64.Proofs.Directives
import Mips64.Proofs.Emission
import Mips64.Proofs.Expansion
import Mips64.Proofs.Failures
import Mips64.Proofs.FirstWord
import Mips64.Proofs.Guards
import Mips64.Proofs.IncludeChain
import Mips64.Proofs.IncludePath
import Mips64.Proofs.Inclusion
import Mips64.Proofs.Jumps
import Mips64.Proofs.Labels
import Mips64.Proofs.Layout
import Mips64.Proofs.Literals
import Mips64.Proofs.Machine
import Mips64.Proofs.MacroUse
import Mips64.Proofs.Mistakes
import Mips64.Proofs.Nesting
import Mips64.Proofs.Numerals
import Mips64.Proofs.OperandLists
import Mips64.Proofs.Operands
import Mips64.Proofs.OutputFiles
import Mips64.Proofs.PassAgreement
import Mips64.Proofs.Passes
import Mips64.Proofs.Placeholders
import Mips64.Proofs.Readback
import Mips64.Proofs.Relocation
import Mips64.Proofs.Rendering
import Mips64.Proofs.Rewriting
import Mips64.Proofs.Scope
import Mips64.Proofs.Sessions
import Mips64.Proofs.SingleLevel
import Mips64.Proofs.Stops
import Mips64.Proofs.Substitution
import Mips64.Proofs.WordRange
import Mips64.Session
