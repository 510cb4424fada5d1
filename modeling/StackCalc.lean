import StackCalc.Text.Bytes
import StackCalc.Text.Unquoted
import StackCalc.Width
import StackCalc.Operator
import StackCalc.Numeral
import StackCalc.Lookahead.Command
import StackCalc.Journal
import StackCalc.Layout
import StackCalc.Tree
import StackCalc.Lookahead.Cursor
import StackCalc.Word.Register
import StackCalc.Proofs.Lookahead.Simulation
import StackCalc.Proofs.Token.Alphabet
import StackCalc.Proofs.Token.Front
import StackCalc.Proofs.Layout.Tokens
import StackCalc.Proofs.Layout.Offsets
import StackCalc.Proofs.Program.Acceptance
import StackCalc.Proofs.Machine.Depth
import StackCalc.Proofs.Machine.Exact
import StackCalc.Proofs.Machine.Narrow
import StackCalc.Proofs.Machine.Visits
import StackCalc.Proofs.Program.Outcome
import StackCalc.Proofs.Layout.Slices
import StackCalc.Proofs.Program.Cover
import StackCalc.Proofs.Tree.Value
import StackCalc.Proofs.Tree.Run
import StackCalc.Proofs.Tree.Evaluation
import StackCalc.Proofs.Tree.Reading
import StackCalc.Proofs.Program.Line
import StackCalc.Proofs.Program.Journal
import StackCalc.Proofs.Program.Narrow
import StackCalc.Proofs.Lookahead.Conservation
import StackCalc.Proofs.Layout.Seam
import StackCalc.Proofs.Machine.Context
import StackCalc.Proofs.Program.Context
import StackCalc.Proofs.Program.Substitution
import StackCalc.Proofs.Program.Spacing
import StackCalc.Proofs.Word.Window
import StackCalc.Proofs.Word.Writes
import StackCalc.Proofs.Word.Mask
import StackCalc.Proofs.Word.LowestBit
import StackCalc.Proofs.Word.Count
import StackCalc.Proofs.Word.Enumeration
import StackCalc.Proofs.Word.WindowCount
import StackCalc.Proofs.Lookahead.Attempts
import StackCalc.Proofs.Lookahead.Refinement
import StackCalc.Proofs.Lookahead.LongestMatch
import StackCalc.Proofs.Word.Span
import StackCalc.Proofs.Text.Ranges
import StackCalc.Proofs.Numeral.Value
import StackCalc.Proofs.Program.Operand
import StackCalc.Proofs.Fault.Message
import StackCalc.Proofs.Lookahead.Reach
import StackCalc.Proofs.Token.Reach
import StackCalc.Proofs.Text.Quotation
import StackCalc.Proofs.Program.Refusal
