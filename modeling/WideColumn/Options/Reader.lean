import WideColumn.Arg
import WideColumn.Error

/-!
# Reading options

Readers for one key of an option dictionary. An absent key and the value `nil` both count as not
given; a value of the wrong kind fails with the key, what it has to be, and what it is.
-/

namespace WideColumn.Options

/-- The value given for a key, unless it is `nil`. -/
def given? (options : Dictionary) (key : String) : Option Arg :=
  (options.get? key).filter fun arg => !arg.isNil

/-- Reads the value given for a key. -/
def readGiven {α : Type} (options : Dictionary) (key : String) (read : Arg → Except Error α) :
    Except Error (Option α) :=
  match given? options key with
  | none => .ok none
  | some arg => (read arg).map some

/-- A whole number of at least `least`. -/
def natOption (options : Dictionary) (key : String) (least : Nat) : Except Error (Option Nat) :=
  readGiven options key fun arg =>
    match arg.int? with
    | some value =>
      if (least : Int) ≤ value.toInt then .ok value.toInt.toNat
      else .error (.invalidArgumentType key ("an integer >= " ++ toString least) arg.display)
    | none => .error (.invalidArgumentType key ("an integer >= " ++ toString least) arg.display)

/-- A whole number of at least `least` that fits 32 bits. -/
def nat32Option (options : Dictionary) (key : String) (least : Nat) :
    Except Error (Option Nat) := do
  let value ← natOption options key least
  match value with
  | some n =>
    if n < Nat.pow 2 32 then .ok (some n)
    else .error (.invalidArgumentType key "a 32-bit integer" (toString n))
  | none => .ok none

/-- A truth value. -/
def boolOption (options : Dictionary) (key : String) : Except Error (Option Bool) :=
  readGiven options key fun arg =>
    match arg.bool? with
    | some value => .ok value
    | none => .error (.invalidArgumentType key "true or false" arg.display)

/-- A byte string. -/
def bytesOption (options : Dictionary) (key : String) : Except Error (Option Bytes) :=
  readGiven options key fun arg =>
    match arg.bytes? with
    | some value => .ok value
    | none => .error (.invalidArgumentType key "String" arg.typeName)

/-- A text. -/
def textOption (options : Dictionary) (key : String) : Except Error (Option String) :=
  readGiven options key fun arg =>
    match arg.text? with
    | some value => .ok value
    | none => .error (.invalidArgumentType key "String" arg.typeName)

end WideColumn.Options
