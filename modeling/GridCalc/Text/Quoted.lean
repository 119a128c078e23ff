import GridCalc.Text.Printable

/-!
# Quoted text

The form in which a message shows a text it could not read: in single quotes, or in double ones
if the text holds single quotes only, with the characters that cannot be shown written by their
code points.
-/

set_option autoImplicit false

namespace GridCalc.Text

def hexFilled (width n : Nat) : List Char :=
  let ds := Nat.toDigits 16 n
  List.replicate (width - ds.length) '0' ++ ds

def escaped (n : Nat) : List Char :=
  if n < 256 then '\\' :: 'x' :: hexFilled 2 n
  else if n < 65536 then '\\' :: 'u' :: hexFilled 4 n
  else '\\' :: 'U' :: hexFilled 8 n

def quotedChar (quote c : Char) : List Char :=
  if c = quote ∨ c = '\\' then ['\\', c]
  else if c = '\n' then ['\\', 'n']
  else if c = '\r' then ['\\', 'r']
  else if c = '\t' then ['\\', 't']
  else if isPrintable c then [c]
  else escaped c.toNat

def quoteFor (cs : List Char) : Char :=
  if cs.contains '\'' && !cs.contains '"' then '"' else '\''

def quoted (s : String) : String :=
  let quote := quoteFor s.toList
  String.ofList (quote :: s.toList.flatMap (quotedChar quote) ++ [quote])

end GridCalc.Text
