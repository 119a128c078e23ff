import GridCalc.Text.Bounds
import GridCalc.Text.Blank
import GridCalc.Text.Digit
import GridCalc.Text.Letter
import GridCalc.Text.Printable
import GridCalc.Text.Casing
import GridCalc.Decimal.Binary
import GridCalc.Decimal.Shortest
import GridCalc.Decimal.Layout
import GridCalc.Decimal.Reading
import GridCalc.Text.Lines
import GridCalc.Text.Quoted
import GridCalc.Text.Numeral
import GridCalc.Position
import GridCalc.Formula.Token
import GridCalc.Fault
import GridCalc.Stop
import GridCalc.Position.Name
import GridCalc.Formula.Scan
import GridCalc.Formula.Node
import GridCalc.Formula.Written
import GridCalc.Formula.Parse
import GridCalc.Function.Likeness
import GridCalc.Function
import GridCalc.Settings
import GridCalc.Cell
import GridCalc.Cell.Reading
import GridCalc.Grid
import GridCalc.Event
import GridCalc.Evaluation.Progress
import GridCalc.Evaluation.Value
import GridCalc.Evaluation.Settle
import GridCalc.Grid.Reading
import GridCalc.Output.Rendering
import GridCalc.Output.Frame
import GridCalc.Output.Sheet
import GridCalc.Session
import GridCalc.Text.Utf8
import GridCalc.Command.Arguments
import GridCalc.Command.Disk
import GridCalc.Command.Run
import GridCalc.Main
import GridCalc.Proofs.Inquiry
import GridCalc.Proofs.Meaning
import GridCalc.Proofs.Dependence
import GridCalc.Proofs.Advance
import GridCalc.Proofs.Run
import GridCalc.Proofs.Settling
import GridCalc.Proofs.Faithful
import GridCalc.Proofs.Pursuit
import GridCalc.Proofs.Restart
import GridCalc.Proofs.Placing
import GridCalc.Proofs.Reading
import GridCalc.Proofs.Resting
import GridCalc.Proofs.Derivation
import GridCalc.Proofs.Agreement
import GridCalc.Proofs.Outcome
import GridCalc.Proofs.Ending
import GridCalc.Proofs.Arena
import GridCalc.Proofs.Passage
import GridCalc.Proofs.Grammar
import GridCalc.Proofs.Parsing
import GridCalc.Proofs.Numerals
import GridCalc.Proofs.Scanning
import GridCalc.Proofs.Loading
import GridCalc.Proofs.Change
import GridCalc.Proofs.Roots
import GridCalc.Proofs.Returning
import GridCalc.Proofs.Rounding
import GridCalc.Proofs.Shortest
import GridCalc.Proofs.Digits
import GridCalc.Proofs.Naming
import GridCalc.Proofs.Accepting
import GridCalc.Proofs.Spelling
import GridCalc.Proofs.Writing
import GridCalc.Proofs.Cutting
import GridCalc.Proofs.Chains
import GridCalc.Proofs.Regrouping
import GridCalc.Proofs.Rereading
import GridCalc.Proofs.Calls
import GridCalc.Proofs.Finality
import GridCalc.Proofs.Laziness
import GridCalc.Proofs.Displacement
import GridCalc.Proofs.Nesting
import GridCalc.Proofs.Filling
import GridCalc.Proofs.Failing
import GridCalc.Proofs.Handing
import GridCalc.Proofs.Productions
import GridCalc.Proofs.Copies
import GridCalc.Proofs.Unrolling
import GridCalc.Proofs.Unwinding
import GridCalc.Proofs.Shadowing
import GridCalc.Proofs.Folding
import GridCalc.Proofs.Sizing
import GridCalc.Proofs.Retyping
import GridCalc.Proofs.Correspondence
import GridCalc.Proofs.Respacing
import GridCalc.Proofs.Watching
import GridCalc.Proofs.Inline
import GridCalc.Proofs.Fields
import GridCalc.Proofs.Columns
import GridCalc.Proofs.Rectangle
import GridCalc.Proofs.Members
