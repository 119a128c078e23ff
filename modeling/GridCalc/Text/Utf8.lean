/-!
# Bytes as text

Text is stored as UTF-8. Bytes that are not well-formed UTF-8 are refused, with the first sequence
that is none: a byte that cannot begin a sequence, a sequence that is broken off by a byte that
cannot continue it, or one that the end of the bytes cuts short.
-/

set_option autoImplicit false

namespace GridCalc.Text

inductive Utf8Reason where
  | badStart
  | badContinuation
  | cutShort
  deriving DecidableEq, Repr

structure Utf8Fault where
  reason : Utf8Reason
  byte : Nat
  place : Nat
  length : Nat
  deriving DecidableEq, Repr

/-- How a sequence begins: the bytes that follow the first one, the bits of the first one, and
the bounds of the second one, which exclude longer forms than necessary and surrogates. -/
structure Utf8Head where
  following : Nat
  bits : Nat
  least : Nat
  most : Nat

def utf8Head? (b : Nat) : Option Utf8Head :=
  if b < 0x80 then some ⟨0, b, 0x80, 0xBF⟩
  else if b < 0xC2 then none
  else if b < 0xE0 then some ⟨1, b - 0xC0, 0x80, 0xBF⟩
  else if b < 0xF0 then
    some ⟨2, b - 0xE0, if b = 0xE0 then 0xA0 else 0x80, if b = 0xED then 0x9F else 0xBF⟩
  else if b < 0xF5 then
    some ⟨3, b - 0xF0, if b = 0xF0 then 0x90 else 0x80, if b = 0xF4 then 0x8F else 0xBF⟩
  else none

/-- The code point completed by `n` more bytes, the first of them within the bounds; `read` bytes
have gone before. Otherwise the reason and the length of what is no sequence. -/
def utf8Rest (least most : Nat) : Nat → Nat → Nat → List Nat → Except (Utf8Reason × Nat) Nat
  | 0, _, code, _ => .ok code
  | _ + 1, read, _, [] => .error (.cutShort, read)
  | n + 1, read, code, b :: bs =>
    if least ≤ b ∧ b ≤ most then utf8Rest 0x80 0xBF n (read + 1) (code * 64 + (b - 0x80)) bs
    else .error (.badContinuation, read)

def utf8From (place : Nat) : List Nat → Except Utf8Fault (List Char)
  | [] => .ok []
  | b :: bs =>
    match utf8Head? b with
    | none => .error ⟨.badStart, b, place, 1⟩
    | some head =>
      match utf8Rest head.least head.most head.following 1 head.bits bs with
      | .error (reason, length) => .error ⟨reason, b, place, length⟩
      | .ok code =>
        (utf8From (place + 1 + head.following) (bs.drop head.following)).map (Char.ofNat code :: ·)
termination_by bs => bs.length
decreasing_by simp only [List.length_drop, List.length_cons]; omega

def ofUtf8 (bytes : ByteArray) : Except Utf8Fault String :=
  (utf8From 0 (bytes.toList.map UInt8.toNat)).map String.ofList

def Utf8Reason.message : Utf8Reason → String
  | badStart => "invalid start byte"
  | badContinuation => "invalid continuation byte"
  | cutShort => "unexpected end of data"

def byteText (b : Nat) : String :=
  let ds := Nat.toDigits 16 b
  String.ofList (List.replicate (2 - ds.length) '0' ++ ds)

def Utf8Fault.message (f : Utf8Fault) : String :=
  let reason := f.reason.message
  let shown := byteText f.byte
  let last := f.place + f.length - 1
  if f.length = 1 then
    s!"'utf-8' codec can't decode byte 0x{shown} in position {f.place}: {reason}"
  else s!"'utf-8' codec can't decode bytes in position {f.place}-{last}: {reason}"

end GridCalc.Text
