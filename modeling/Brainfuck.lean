import Brainfuck.Evaluation
import Brainfuck.Machine.Lemmas
import Brainfuck.Machine.Trace
import Brainfuck.Main
import Brainfuck.Tape.Lemmas
import Brainfuck.Proofs.Composition
import Brainfuck.Proofs.Safety
import Brainfuck.Proofs.Interruption
import Brainfuck.Proofs.Operations
import Brainfuck.Proofs.Completion
import Brainfuck.Proofs.OptionWords
import Brainfuck.Proofs.Working
import Brainfuck.Proofs.CommandRun
import Brainfuck.Proofs.OptionValues
import Brainfuck.Proofs.FileCommand
import Brainfuck.Proofs.CommandSource
import Brainfuck.Proofs.CommandEnd
import Brainfuck.Proofs.OneSource
import Brainfuck.Proofs.PaddedInput
import Brainfuck.Proofs.Cancelling
import Brainfuck.Proofs.DeadLoop
import Brainfuck.Proofs.Homogeneity
import Brainfuck.Proofs.WholeBlock
import Brainfuck.Proofs.Caret
import Brainfuck.Proofs.LinearLoop
import Brainfuck.Proofs.Verdict
import Brainfuck.Proofs.BackwardJumps
import Brainfuck.Proofs.Growth
import Brainfuck.Proofs.Copying
import Brainfuck.Proofs.LineEnds
import Brainfuck.Proofs.WordGroups
import Brainfuck.Proofs.Places
import Brainfuck.Proofs.RunLengths
