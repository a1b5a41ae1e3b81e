import MiniPascal.Main
import MiniPascal.Tree.Equality
import MiniPascal.Proofs.Compile.Code
import MiniPascal.Proofs.Compile.Emission
import MiniPascal.Proofs.Compile.Labels
import MiniPascal.Proofs.Compile.Rejection
import MiniPascal.Proofs.Run.Basic
import MiniPascal.Proofs.Machine.Basic
import MiniPascal.Proofs.Simulation.Agreement
import MiniPascal.Proofs.Simulation.Expr
import MiniPascal.Proofs.Simulation.Stmt
import MiniPascal.Proofs.Simulation.Procedure
import MiniPascal.Proofs.Simulation.Program
import MiniPascal.Proofs.Machine.Loader
import MiniPascal.Proofs.Compile.Plain
import MiniPascal.Proofs.Compile.Linking
import MiniPascal.Proofs.Parser.Grammar
import MiniPascal.Proofs.Parser.Steps
import MiniPascal.Proofs.Parser.Phrases
import MiniPascal.Proofs.Parser.Viability
import MiniPascal.Proofs.Parser.Completeness
import MiniPascal.Proofs.Parser.Correctness
import MiniPascal.Proofs.Printer.Printable
import MiniPascal.Proofs.Printer.Reparse
import MiniPascal.Proofs.Printer.Roundtrip
import MiniPascal.Proofs.Compile.Depth
import MiniPascal.Proofs.Compile.Discipline
import MiniPascal.Proofs.Compile.Size
import MiniPascal.Proofs.Run.Change
import MiniPascal.Proofs.Run.Moments
import MiniPascal.Proofs.Run.Regular
import MiniPascal.Proofs.Run.Placement
import MiniPascal.Proofs.Run.Relation
import MiniPascal.Proofs.Run.Mirror
import MiniPascal.Proofs.Run.Isolation
import MiniPascal.Proofs.Run.Truncation
import MiniPascal.Proofs.Run.Exhaustion
import MiniPascal.Proofs.Token.Tokenisation
import MiniPascal.Proofs.Token.Settling
import MiniPascal.Proofs.Parser.FirstError
import MiniPascal.Proofs.Run.Globals
import MiniPascal.Proofs.CommandLine.Directory
import MiniPascal.Proofs.CommandLine.Outcome
import MiniPascal.Proofs.CommandLine.Correctness
import MiniPascal.Proofs.Compile.Slots
import MiniPascal.Proofs.Run.Arithmetic
import MiniPascal.Proofs.Run.Lines
