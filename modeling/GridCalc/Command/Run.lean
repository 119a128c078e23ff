import GridCalc.Command.Arguments
import GridCalc.Command.Disk
import GridCalc.Evaluation.Settle
import GridCalc.Grid.Reading
import GridCalc.Output.Rendering
import GridCalc.Output.Sheet
import GridCalc.Text.Utf8

/-!
# The command

Reads a table from a file, evaluates it and shows it: on the standard output, in a file of text or
in a workbook. Settings out of bounds and files that cannot be read end the command with a message
and the code 1; events are reported before that, warnings always and all others on request.
-/

set_option autoImplicit false

namespace GridCalc.Command
open GridCalc

inductive Document where
  | text (s : String)
  | sheet (s : Sheet)

structure Report where
  code : Nat
  standardOutput : String := ""
  diagnostics : String := ""
  file : Option (String × Document) := none
  settings : Settings

def programName : String := "table-interpreter"

def usageMessage (fault : UsageFault) : String :=
  let message := fault.message
  s!"{programName}: error: {message}"

def helpText : String :=
  s!"usage: {programName} [-h] [--precision N] [--max-depth N] [--verbose] input [output]\n\n" ++
  "Evaluate a plain text table of numbers and formulas\n\n" ++
  "  input          the table to evaluate\n" ++
  "  output         where to write the result, a workbook if it ends in .xlsx\n" ++
  "  --precision N  significant digits of printed numbers\n" ++
  "  --max-depth N  nested evaluations before a chain of references is resumed\n" ++
  "  --verbose      log evaluation details"

def failure (settings : Settings) (message : String) : Report :=
  { code := 1, diagnostics := s!"Error: {message}\n", settings }

def ofBreakdown {α : Type} : Except Breakdown α → Except Stop α
  | .ok a => .ok a
  | .error b => .error (.breakdown b)

def numberOf : OptionValue → Except Stop Int
  | .number n => .ok n
  | .nothing => .error (.breakdown (.listCompared "<"))

/-- The settings that the arguments ask for, the precision first, or the message about the first
that is out of bounds with the settings up to there. -/
def settingsOf (a : Arguments) : Except Stop (Except Report Settings) := do
  let start : Settings := {}
  let precision ← a.precision.mapM numberOf
  match start.setPrecision precision with
  | .error b => return .error (failure start b.message)
  | .ok next =>
    let limit ← numberOf a.maxDepth
    match next.setLimit limit with
    | .error b => return .error (failure next b.message)
    | .ok settings => return .ok settings

def eventLine (e : Event) : String :=
  let level := if e.isWarning then "WARNING" else "DEBUG"
  let message := e.message
  s!"{level}: {message}\n"

def eventText (verbose : Bool) (log : Array Event) : String :=
  String.join ((log.toList.filter fun e => verbose || e.isWarning).map eventLine)

/-- The table in a file, or the message about why there is none. A breakdown that the text causes
ends the command itself. -/
def readTable (disk : Disk) (path : String) : Except Stop (Except String (Grid × Array Event)) :=
  match disk.read path with
  | .error (.missingFile _) => .ok (.error s!"File '{path}' not found")
  | .error .brokenPath => .error (.breakdown .brokenPath)
  | .error b => .ok (.error b.message)
  | .ok bytes =>
    match Text.ofUtf8 bytes with
    | .error fault => .ok (.error fault.message)
    | .ok text =>
      match Grid.ofText text with
      | .ok table => .ok (.ok table)
      | .error (.fault f) => .ok (.error f.message)
      | .error e => .error e

def sheetTitle : String := "Table"

def isWorkbookPath (path : String) : Bool := (Text.lower path).endsWith ".xlsx"

/-- What is written to the path, which has to be open before text is made for it. -/
def documentFor (disk : Disk) (settings : Settings) (path : String) (g : Grid) :
    Except Breakdown Document :=
  if isWorkbookPath path then do
    let sheet ← Sheet.titled sheetTitle g
    disk.create path
    return .sheet sheet
  else do
    disk.create path
    let text ← g.render settings
    return .text text

def showTable (disk : Disk) (a : Arguments) (settings : Settings) (g : Grid)
    (log : Array Event) : Except Stop Report := do
  let (result, progress) :=
    Evaluation.evaluate ⟨settings.limit, .builtin⟩ { grid := g, log }
  let _ ← result
  let diagnostics := eventText a.verbose progress.log
  match a.output with
  | none =>
    let standardOutput ← ofBreakdown (progress.grid.render settings)
    return { code := 0, standardOutput, diagnostics, settings }
  | some path =>
    let document ← ofBreakdown (documentFor disk settings path progress.grid)
    return { code := 0, diagnostics, file := some (path, document), settings }

def run (disk : Disk) (a : Arguments) : Except Stop Report := do
  match ← settingsOf a with
  | .error report => return report
  | .ok settings =>
    match ← readTable disk (a.input.getD "") with
    | .error message => return failure settings message
    | .ok (g, log) => showTable disk a settings g log

end GridCalc.Command
