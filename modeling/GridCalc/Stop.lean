import GridCalc.Fault
import GridCalc.Position
import GridCalc.Text.Numeral
import GridCalc.Text.Quoted

/-!
# How a computation stops

A computation ends with a value or stops early, for one of three reasons: a fault of the table,
which some cell will show; a chain of references longer than the limit, which is taken up again
from its far end; or a breakdown, which no cell can hold and which ends the whole computation.
An action works on a state, and the state it leaves behind remains when it stops.
-/

set_option autoImplicit false

namespace GridCalc

inductive Breakdown where
  | columnIndex (n : Int)
  | columnName (text : String)
  | integerText (text : String)
  /-- A text begins with more digits than a whole number may have. -/
  | digitsRead (count : Nat)
  /-- A whole number has too many digits to be written. -/
  | digitsWritten
  | decimalText (text : String)
  | unknownDirection (text : String)
  | emptyReference
  | unknownOperator (symbol : String)
  | unknownNode (place : Nat)
  | endlessFormula
  | emptyMinimum
  | emptyMaximum
  | emptyAverage
  | numberAsList
  | listMagnitude
  /-- A rule with one argument is given another number of them. -/
  | argumentsGiven (rule parameter : String) (count : Nat)
  | limitNotPositive (n : Int)
  | precisionNotPositive (n : Int)
  /-- A list where a number is to be compared. -/
  | listCompared (relation : String)
  | precisionTooBig
  | precisionTooLong
  | cellCount (rows columns : Int) (count : Nat)
  | outsideGrid (name : String) (rows columns : Int)
  | unwritableText (text : String)
  | emptyTitle
  | unwritableTitle (c : Char)
  | sheetCorner
  | sheetRow (n : Int)
  | missingFile (path : String)
  | directoryFile (path : String)
  | directoryExpected (path : String)
  | longPath (path : String)
  | brokenPath
  deriving DecidableEq, Repr

/-- Messages show at most this many characters of a text that is not a whole number. -/
def shownDigits : Nat := 200

/-- A place that is not below this bound cannot even be looked up. -/
def placeBound : Nat := 9223372036854775808

def Breakdown.message : Breakdown → String
  | columnIndex n => s!"Invalid column index {n}"
  | columnName text => s!"'{text}' is not a valid column name. Column names are from A to ZZZ"
  | integerText text =>
    let shown := String.ofList ((Text.quoted text).toList.take shownDigits)
    s!"invalid literal for int() with base 10: {shown}"
  | digitsRead count =>
    let bound := Text.digitBound
    s!"Exceeds the limit ({bound} digits) for integer string conversion: " ++
      s!"value has {count} digits; use sys.set_int_max_str_digits() to increase the limit"
  | digitsWritten =>
    let bound := Text.digitBound
    s!"Exceeds the limit ({bound} digits) for integer string conversion; " ++
      "use sys.set_int_max_str_digits() to increase the limit"
  | decimalText text =>
    let shown := Text.quoted text
    s!"could not convert string to float: {shown}"
  | unknownDirection text => s!"Invalid direction in relative reference: {text}"
  | emptyReference => "string index out of range"
  | unknownOperator symbol => s!"Unknown operator: {symbol}"
  | unknownNode place =>
    if place < placeBound then "list index out of range"
    else "cannot fit 'int' into an index-sized integer"
  | endlessFormula => "maximum recursion depth exceeded"
  | emptyMinimum => "min() arg is an empty sequence"
  | emptyMaximum => "max() arg is an empty sequence"
  | emptyAverage => "division by zero"
  | numberAsList => "'float' object is not iterable"
  | listMagnitude => "bad operand type for abs(): 'list'"
  | argumentsGiven rule parameter 0 =>
    s!"TableFunctions.{rule}() missing 1 required positional argument: '{parameter}'"
  | argumentsGiven rule _ count =>
    s!"TableFunctions.{rule}() takes 1 positional argument but {count} were given"
  | limitNotPositive n => s!"Evaluation depth must be positive, got {n}"
  | precisionNotPositive n => s!"Precision must be positive, got {n}"
  | listCompared relation =>
    s!"'{relation}' not supported between instances of 'list' and 'int'"
  | precisionTooBig => "precision too big"
  | precisionTooLong => "Too many decimal digits in format string"
  | cellCount rows columns count =>
    let size := rows * columns
    s!"Expected {size} cells for a {rows}x{columns} table, got {count}"
  | outsideGrid name rows columns => s!"{name} is outside a {rows}x{columns} table"
  | unwritableText text => s!"{text} cannot be used in worksheets."
  | emptyTitle => "Title must have at least one character"
  | unwritableTitle c => s!"Invalid character {c} found in sheet title"
  | sheetCorner => "Row or column values must be at least 1"
  | sheetRow n => s!"Row numbers must be between 1 and 1048576. Row number supplied was {n}"
  | missingFile path =>
    let shown := Text.quoted path
    s!"[Errno 2] No such file or directory: {shown}"
  | directoryFile path =>
    let shown := Text.quoted path
    s!"[Errno 21] Is a directory: {shown}"
  | directoryExpected path =>
    let shown := Text.quoted path
    s!"[Errno 20] Not a directory: {shown}"
  | longPath path =>
    let shown := Text.quoted path
    s!"[Errno 36] File name too long: {shown}"
  | brokenPath => "embedded null byte"

def Breakdown.ofMisreading (text : List Char) : Text.Misreading → Breakdown
  | .malformed => .integerText (String.ofList text)
  | .tooLong digits => .digitsRead digits

/-- A breakdown whose message has numbers in it, all of which have to be written. -/
def Breakdown.quoting (numbers : List Int) (b : Breakdown) : Breakdown :=
  if numbers.all Text.fits then b else .digitsWritten

def integerName (n : Int) : Except Breakdown String :=
  if Text.fits n then .ok (toString n) else .error .digitsWritten

theorem integerName_ok {n : Int} {s : String} :
    integerName n = .ok s ↔ Text.fits n ∧ toString n = s := by
  unfold integerName
  split <;> simp_all

inductive Stop where
  | fault (f : Fault)
  /-- The cell at a position, with its name, lies too many references away. -/
  | tooDeep (p : Position) (name : String)
  | breakdown (b : Breakdown)
  deriving DecidableEq, Repr

def Stop.message : Stop → String
  | fault f => f.message
  | tooDeep _ name => s!"Evaluation depth exceeded at {name}"
  | breakdown b => b.message

instance decidableEqExcept {ε α : Type} [DecidableEq ε] [DecidableEq α] :
    DecidableEq (Except ε α)
  | .ok a, .ok b => decidable_of_iff (a = b) ⟨congrArg Except.ok, Except.ok.inj⟩
  | .error e, .error f => decidable_of_iff (e = f) ⟨congrArg Except.error, Except.error.inj⟩
  | .ok _, .error _ => .isFalse nofun
  | .error _, .ok _ => .isFalse nofun

theorem ok_of_toOption {ε α : Type} {x : Except ε α} {a : α} (h : x.toOption = some a) :
    x = .ok a := by
  cases x with
  | ok b => exact congrArg Except.ok (Option.some.inj h)
  | error e => cases h

theorem ok_of_bind {ε α β : Type} {x : Except ε α} {f : α → Except ε β} {b : β}
    (h : (x >>= f) = .ok b) : ∃ a, x = .ok a ∧ f a = .ok b := by
  cases x with
  | ok a => exact ⟨a, rfl, h⟩
  | error e => cases h

theorem map_ok {ε α β : Type} {x : Except ε α} {f : α → β} {b : β} (h : x.map f = .ok b) :
    ∃ a, x = .ok a ∧ f a = b := by
  cases x with
  | error e => cases h
  | ok a => exact ⟨a, rfl, Except.ok.inj h⟩

theorem map_error {ε α β : Type} {x : Except ε α} {f : α → β} {e : ε} (h : x.map f = .error e) :
    x = .error e := by
  cases x with
  | error d =>
    cases h
    rfl
  | ok a => cases h

def Action (σ α : Type) : Type := σ → Except Stop α × σ

namespace Action

variable {σ α β : Type}

def pure (a : α) : Action σ α := fun s => (.ok a, s)

def bind (x : Action σ α) (f : α → Action σ β) : Action σ β := fun s =>
  match x s with
  | (.ok a, t) => f a t
  | (.error e, t) => (.error e, t)

instance : Monad (Action σ) where
  pure := Action.pure
  bind := Action.bind

def stop (e : Stop) : Action σ α := fun s => (.error e, s)

def fault (f : Fault) : Action σ α := stop (.fault f)

def breakdown (b : Breakdown) : Action σ α := stop (.breakdown b)

def get : Action σ σ := fun s => (.ok s, s)

def modify (f : σ → σ) : Action σ Unit := fun s => (.ok (), f s)

def ofExcept (x : Except Stop α) : Action σ α := fun s => (x, s)

theorem eq_ok {x : Action σ α} {s : σ} {a : α} (h : (x s).1.toOption = some a) :
    x s = (.ok a, (x s).2) := Prod.ext (ok_of_toOption h) rfl

theorem bind_ok {x : Action σ α} {f : α → Action σ β} {s t : σ} {a : α}
    (h : x s = (.ok a, t)) : (x >>= f) s = f a t := by
  show bind x f s = _
  rw [bind, h]

theorem bind_error {x : Action σ α} {f : α → Action σ β} {s t : σ} {e : Stop}
    (h : x s = (.error e, t)) : (x >>= f) s = (.error e, t) := by
  show bind x f s = _
  rw [bind, h]

theorem ok_of_bind {x : Action σ α} {f : α → Action σ β} {s t : σ} {b : β}
    (h : (x >>= f) s = (.ok b, t)) : ∃ a u, x s = (.ok a, u) ∧ f a u = (.ok b, t) := by
  rcases hx : x s with ⟨r, u⟩
  cases r with
  | ok a => exact ⟨a, u, rfl, (bind_ok hx).symm.trans h⟩
  | error e =>
    rw [bind_error hx] at h
    cases h

theorem error_of_bind {x : Action σ α} {f : α → Action σ β} {s t : σ} {e : Stop}
    (h : (x >>= f) s = (.error e, t)) :
    x s = (.error e, t) ∨ ∃ a u, x s = (.ok a, u) ∧ f a u = (.error e, t) := by
  rcases hx : x s with ⟨r, u⟩
  cases r with
  | ok a => exact .inr ⟨a, u, rfl, (bind_ok hx).symm.trans h⟩
  | error e' =>
    rw [bind_error hx] at h
    cases h
    exact .inl rfl

theorem bind_congr {x y : Action σ α} {f g : α → Action σ β} {s : σ} (hxy : x s = y s)
    (h : ∀ a t, y s = (.ok a, t) → f a t = g a t) : (x >>= f) s = (y >>= g) s := by
  rcases hy : y s with ⟨r, t⟩
  have hx := hxy.trans hy
  cases r with
  | ok a =>
    rw [bind_ok hx, bind_ok hy]
    exact h a t hy
  | error e => rw [bind_error hx, bind_error hy]

instance : LawfulMonad (Action σ) := by
  refine .mk' (Action σ) (fun x => ?_) (fun _ _ => rfl) (fun x f g => ?_)
  · funext s
    rcases hx : x s with ⟨r, t⟩
    cases r with
    | ok a => exact bind_ok hx
    | error e => exact bind_error hx
  · funext s
    rcases hx : x s with ⟨r, t⟩
    cases r with
    | ok a =>
      rw [bind_ok hx]
      show bind (x >>= f) g s = (f a >>= g) t
      rw [bind, bind_ok hx]
      rfl
    | error e => rw [bind_error hx, bind_error (bind_error hx)]

end Action

end GridCalc
