import Brainfuck.CommandLine.Host
import Brainfuck.CommandLine.Session
import Brainfuck.Compilation
import Brainfuck.Main
import Brainfuck.Proofs.Emission.Meaning
import Brainfuck.Proofs.RunLength.Meaning
import Brainfuck.Proofs.Tape.Ideal
import Brainfuck.Proofs.Loops.Culprit
import Brainfuck.Proofs.Rejection
import Brainfuck.Proofs.Source.Marks
import Brainfuck.Proofs.Pass.Selection
import Brainfuck.Proofs.Text.Blank
import Brainfuck.Proofs.Compilation.Comments
import Brainfuck.Proofs.RunLength.Runs
import Brainfuck.Proofs.Source.Partition
import Brainfuck.Proofs.Compilation.Verdict
import Brainfuck.Proofs.Machine.Capacity
import Brainfuck.Proofs.FileSystem.Writing
import Brainfuck.Proofs.CommandLine.Compiling
import Brainfuck.Proofs.CommandLine.Executing
import Brainfuck.Proofs.CommandLine.Footprint
import Brainfuck.Proofs.CommandLine.Sparing
import Brainfuck.Proofs.Path.FileName
import Brainfuck.Proofs.CommandLine.Status
import Brainfuck.Proofs.Machine.Interruptions
import Brainfuck.Proofs.Machine.FailingOutput
import Brainfuck.Proofs.Emission.Indentation
import Brainfuck.Proofs.Machine.Mirror
import Brainfuck.Proofs.Compilation.Uniqueness
import Brainfuck.Proofs.RunLength.Form
import Brainfuck.Proofs.RunLength.Overflow
import Brainfuck.Proofs.RunLength.Parts
import Brainfuck.Proofs.Loops.Matching
import Brainfuck.Proofs.Tape.Growth
import Brainfuck.Proofs.Tape.Extent
import Brainfuck.Proofs.Emission.Calls
import Brainfuck.Proofs.Machine.Sequence
import Brainfuck.Proofs.Machine.IdleStreams
import Brainfuck.Proofs.Emission.Nesting
import Brainfuck.Proofs.Source.Encoding
import Brainfuck.Proofs.Pass.Grammar
import Brainfuck.Proofs.CommandLine.Flags
import Brainfuck.Proofs.CommandLine.Modes
