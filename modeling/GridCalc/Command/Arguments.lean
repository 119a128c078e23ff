import GridCalc.Text.Numeral
import GridCalc.Text.Quoted

/-!
# Command line arguments

The words of a command line are first sorted into options, plain words and the divider after which
all words are plain. A long option may be shortened as long as it stays the only one. Options are
then taken from left to right. The first run of plain words gives the input and, if it goes on,
the output; plain words anywhere else are not understood.
-/

set_option autoImplicit false

namespace GridCalc.Command
open GridCalc GridCalc.Text

inductive Flag where
  | help
  | precision
  | maxDepth
  | verbose
  deriving DecidableEq, Repr

namespace Flag

def spellings : List (String × Flag) :=
  [("-h", help), ("--help", help), ("--precision", precision), ("--max-depth", maxDepth),
   ("--verbose", verbose)]

def takesValue : Flag → Bool
  | precision | maxDepth => true
  | help | verbose => false

def label : Flag → String
  | help => "-h/--help"
  | precision => "--precision"
  | maxDepth => "--max-depth"
  | verbose => "--verbose"

end Flag

inductive UsageFault where
  | ambiguous (word : String) (candidates : List String)
  | missingValue (flag : Flag)
  | unwantedValue (flag : Flag) (value : String)
  | notInteger (flag : Flag) (value : String)
  | missingInput
  | unrecognized (words : List String)
  deriving DecidableEq, Repr

def UsageFault.message : UsageFault → String
  | ambiguous word candidates =>
    let listed := ", ".intercalate candidates
    s!"ambiguous option: {word} could match {listed}"
  | missingValue flag => s!"argument {flag.label}: expected one argument"
  | unwantedValue flag value =>
    let shown := quoted value
    s!"argument {flag.label}: ignored explicit argument {shown}"
  | notInteger flag value =>
    let shown := quoted value
    s!"argument {flag.label}: invalid int value: {shown}"
  | missingInput => "the following arguments are required: input"
  | unrecognized words =>
    let listed := " ".intercalate words
    s!"unrecognized arguments: {listed}"

inductive Word where
  | plain (text : String)
  | divider
  /-- A word in the form of an option, the option if it is known, and a value attached to it. -/
  | option (text : String) (flag : Option Flag) (value : Option String)
  deriving DecidableEq, Repr

namespace Word

def text : Word → String
  | plain text => text
  | divider => "--"
  | option text _ _ => text

def isOption : Word → Bool
  | option .. => true
  | _ => false

def cutAtEquals (cs : List Char) : List Char × Option (List Char) :=
  match cs.dropWhile (· != '=') with
  | [] => (cs, none)
  | _ :: value => (cs.takeWhile (· != '='), some value)

/-- The text attached to an option of one letter, or to one spelled out. The letter may be repeated
at the start of the text, which asks for nothing more. -/
def attached (spelling text : List Char) : Option String :=
  match spelling, text with
  | ['-', c], first :: rest =>
    match (first :: rest).dropWhile (· == c) with
    | [] => none
    | text => some (String.ofList text)
  | _, text => some (String.ofList text)

/-- The options that a word may be short for, with the value attached to each. -/
def candidates (word : List Char) : List (String × Flag × Option String) :=
  match word with
  | '-' :: '-' :: _ =>
    let (front, value) := cutAtEquals word
    Flag.spellings.filterMap fun (spelling, flag) =>
      if front.isPrefixOf spelling.toList then
        some (spelling, flag, value.map String.ofList)
      else none
  | '-' :: c :: rest =>
    Flag.spellings.filterMap fun (spelling, flag) =>
      if spelling.toList = ['-', c] then some (spelling, flag, attached ['-', c] rest)
      else if word.isPrefixOf spelling.toList then some (spelling, flag, none)
      else none
  | _ => []

def withoutLineFeed (cs : List Char) : List Char :=
  if cs.getLast? = some '\n' then cs.dropLast else cs

def isNegativeNumber (word : List Char) : Bool :=
  match withoutLineFeed word with
  | '-' :: cs =>
    match cs.dropWhile isDecimal with
    | [] => !cs.isEmpty
    | '.' :: rest => !rest.isEmpty && rest.all isDecimal
    | _ => false
  | _ => false

def spelled? (word : String) : Option Word :=
  let (front, value) := cutAtEquals word.toList
  match Flag.spellings.lookup word with
  | some flag => some (option word (some flag) none)
  | none =>
    match Flag.spellings.lookup (String.ofList front), value with
    | some flag, some value => some (option word (some flag) (attached front value))
    | _, _ => none

def ofText (word : String) : Except UsageFault Word :=
  if word.toList.head? ≠ some '-' ∨ word = "-" then .ok (plain word)
  else if word = "--" then .ok divider
  else match spelled? word with
    | some w => .ok w
    | none =>
      match candidates word.toList with
      | [(_, flag, value)] => .ok (option word (some flag) value)
      | [] =>
        if isNegativeNumber word.toList || word.toList.contains ' ' then .ok (plain word)
        else .ok (option word none none)
      | several => .error (.ambiguous word (several.map (·.1)))

def ofTexts : List String → Except UsageFault (List Word)
  | [] => .ok []
  | t :: ts => do
    match ← ofText t with
    | .divider => return .divider :: ts.map plain
    | w => return w :: (← ofTexts ts)

end Word

/-- The value of an option. A divider attached to an option is dropped like any other first divider
among values, which leaves the option without one. -/
inductive OptionValue where
  | number (n : Int)
  | nothing
  deriving DecidableEq, Repr

structure Arguments where
  input : Option String := none
  output : Option String := none
  precision : Option OptionValue := none
  maxDepth : OptionValue := .number 100
  verbose : Bool := false
  /-- Whether only the description of the command is asked for. -/
  help : Bool := false
  extra : List String := []
  deriving DecidableEq, Repr

namespace Arguments

def setValue (a : Arguments) (flag : Flag) (value : OptionValue) : Arguments :=
  match flag with
  | .precision => { a with precision := some value }
  | .maxDepth => { a with maxDepth := value }
  | _ => a

def readValue (flag : Flag) (text : String) : Except UsageFault OptionValue :=
  if text = "--" then .ok .nothing
  else match integer text.toList with
    | .ok n => .ok (.number n)
    | .error _ => .error (.notInteger flag text)

def setSwitch (a : Arguments) : Flag → Arguments
  | .verbose => { a with verbose := true }
  | .help => { a with help := true }
  | _ => a

/-- Takes a run of words that are no options: an input and perhaps an output, if there is no input
yet and a plain word among them. The divider is no output, even after another one. -/
def takeRun (a : Arguments) (run : List Word) : Arguments :=
  let plainFrom (ws : List Word) := ws.dropWhile (· == .divider)
  match a.input, plainFrom run with
  | none, first :: rest =>
    match plainFrom rest with
    | second :: rest =>
      { a with
        input := some first.text
        output := if second.text = "--" then none else some second.text
        extra := a.extra ++ (plainFrom rest).map (·.text) }
    | [] => { a with input := some first.text }
  | _, _ => { a with extra := a.extra ++ run.map (·.text) }

def takeWords (a : Arguments) : List Word → Except UsageFault Arguments
  | [] => .ok a
  | .option text none _ :: ws => takeWords { a with extra := a.extra ++ [text] } ws
  | .option _ (some flag) value :: ws =>
    if flag.takesValue then
      match value, ws with
      | some text, ws => do takeWords (a.setValue flag (← readValue flag text)) ws
      | none, .plain text :: ws => do takeWords (a.setValue flag (← readValue flag text)) ws
      | none, _ => .error (.missingValue flag)
    else match value with
      | some value => .error (.unwantedValue flag value)
      | none => if flag = .help then .ok (a.setSwitch flag) else takeWords (a.setSwitch flag) ws
  | w :: ws =>
    let run := ws.takeWhile (!·.isOption)
    takeWords (a.takeRun (w :: run)) (ws.drop run.length)
termination_by ws => ws.length
decreasing_by all_goals (simp_all; try omega)

def check (a : Arguments) : Except UsageFault Arguments :=
  if a.help then .ok a
  else if a.input = none then .error .missingInput
  else if a.extra ≠ [] then .error (.unrecognized a.extra)
  else .ok a

def ofTexts (words : List String) : Except UsageFault Arguments := do
  let words ← Word.ofTexts words
  let a ← takeWords {} words
  a.check

end Arguments

end GridCalc.Command
