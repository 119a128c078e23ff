import GridCalc.Command.Run

/-!
# The program

Reads the input file, runs the command and carries out what it reports. The packing of a sheet
into the file of a workbook is not part of this library, so the program refuses to write one.
-/

set_option autoImplicit false

namespace GridCalc.Command
open GridCalc

def readFile (path : String) : IO (Except Breakdown ByteArray) := do
  try
    let bytes ← IO.FS.readBinFile path
    return .ok bytes
  catch e =>
    match e with
    | .inappropriateType .. => return .error (.directoryFile path)
    | _ => return .error (.missingFile path)

def diskWith (bytes : Except Breakdown ByteArray) : Disk := ⟨fun _ => bytes, fun _ => .ok ()⟩

def fail (message : String) : IO UInt32 := do
  IO.eprintln s!"Error: {message}"
  return 1

def carryOut (r : Report) : IO UInt32 := do
  IO.eprint r.diagnostics
  IO.print r.standardOutput
  match r.file with
  | some (path, .text s) =>
    try
      IO.FS.writeFile path s
      return UInt32.ofNat r.code
    catch _ => fail s!"File '{path}' cannot be written"
  | some (path, .sheet _) => fail s!"No workbook can be written to '{path}'"
  | none => return UInt32.ofNat r.code

def program (words : List String) : IO UInt32 := do
  match Arguments.ofTexts words with
  | .error fault =>
    IO.eprintln (usageMessage fault)
    return 2
  | .ok a =>
    if a.help then
      IO.println helpText
      return 0
    else
      let bytes ← readFile (a.input.getD "")
      match run (diskWith bytes) a with
      | .ok r => carryOut r
      | .error e => fail e.message

end GridCalc.Command

def main (words : List String) : IO UInt32 := GridCalc.Command.program words
