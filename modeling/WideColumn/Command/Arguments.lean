import WideColumn.Arg
import WideColumn.ColumnSpec

/-!
# Positional arguments

The arguments of one invocation with the name of its command. Their number is checked first; then
each is asked for by its place. An absent place and the value `nil` count as not given.
-/

namespace WideColumn

/-- The arguments of an invocation. -/
structure Arguments where
  command : String
  args : List Arg

namespace Arguments

/-- The number of arguments expected, in words. -/
def expectedCount (least : Nat) : Option Nat → String
  | some most =>
    if most = least then toString least else toString least ++ " to " ++ toString most
  | none => "at least " ++ toString least

/-- Takes the arguments of a command when their number is within the limits. -/
def check (command : String) (args : List Arg) (least : Nat) (most : Option Nat) :
    Except Error Arguments :=
  if least ≤ args.length && most.all (args.length ≤ ·) then .ok ⟨command, args⟩
  else .error (.wrongArgumentCount command (expectedCount least most) args.length)

/-- The argument given at a place. -/
def given? (arguments : Arguments) (place : Nat) : Option Arg :=
  arguments.args[place]?.filter fun arg => !arg.isNil

/-- The failure of an argument that is not given. -/
def missing (arguments : Arguments) (what : String) : Error :=
  .wrongArgumentCount arguments.command ("a " ++ what) arguments.args.length

/-- The argument at a place, which has to be given. -/
def required (arguments : Arguments) (place : Nat) (what : String) : Except Error Arg :=
  match arguments.given? place with
  | some arg => .ok arg
  | none => .error (arguments.missing what)

/-- Reads the argument at a place, if it is given. -/
def optional {α : Type} (arguments : Arguments) (place : Nat) (read : Arg → Except Error α) :
    Except Error (Option α) :=
  match arguments.given? place with
  | some arg => (read arg).map some
  | none => .ok none

/-- Reads a text. -/
def readText (what : String) (arg : Arg) : Except Error String :=
  match arg.text? with
  | some text => .ok text
  | none => .error (.invalidArgumentType what "String" arg.typeName)

/-- Reads a byte string. -/
def readBytes (what : String) (arg : Arg) : Except Error Bytes :=
  match arg.bytes? with
  | some bytes => .ok bytes
  | none => .error (.invalidArgumentType what "String" arg.typeName)

/-- Reads an integer. -/
def readInt (what : String) (arg : Arg) : Except Error Int64 :=
  match arg.int? with
  | some value => .ok value
  | none => .error (.invalidArgumentType what "Int" arg.typeName)

/-- Reads a dictionary of options. -/
def readDictionary (arg : Arg) : Except Error Dictionary :=
  match arg.dict? with
  | some options => .ok options
  | none => .error (.invalidArgumentType "options" "Dictionary" arg.typeName)

/-- Reads a column specifier. -/
def readColumn (arg : Arg) : Except Error ColumnSpec := do
  let spec ← readBytes "column" arg
  ColumnSpec.parse spec

/-- The text at a place. -/
def text (arguments : Arguments) (place : Nat) (what : String) : Except Error String := do
  let arg ← arguments.required place what
  readText what arg

/-- The text at a place, if it is given. -/
def text? (arguments : Arguments) (place : Nat) (what : String) : Except Error (Option String) :=
  arguments.optional place (readText what)

/-- The byte string at a place. -/
def bytes (arguments : Arguments) (place : Nat) (what : String) : Except Error Bytes := do
  let arg ← arguments.required place what
  readBytes what arg

/-- The cell value at a place: a byte string, or the decimal text of an integer. -/
def value (arguments : Arguments) (place : Nat) : Except Error Bytes :=
  match arguments.given? place with
  | some (.int n) => .ok (Text.utf8 (toString n.toInt))
  | _ => arguments.bytes place "value"

/-- The column specifier at a place. -/
def column (arguments : Arguments) (place : Nat) : Except Error ColumnSpec := do
  let arg ← arguments.required place "column"
  readColumn arg

/-- The column specifier at a place, if it is given. -/
def column? (arguments : Arguments) (place : Nat) : Except Error (Option ColumnSpec) :=
  arguments.optional place readColumn

/-- The integer at a place, if it is given. -/
def int? (arguments : Arguments) (place : Nat) (what : String) : Except Error (Option Int64) :=
  arguments.optional place (readInt what)

/-- The timestamp at a place, if it is given; it must not be negative. -/
def timestamp? (arguments : Arguments) (place : Nat) : Except Error (Option Nat) :=
  arguments.optional place fun arg => do
    let stamp ← readInt "timestamp" arg
    if stamp.toInt < 0 then
      .error (.invalidArgumentType "timestamp" "a non-negative Int" (toString stamp.toInt))
    else .ok stamp.toInt.toNat

/-- The dictionary at a place, if it is given. -/
def dictionary? (arguments : Arguments) (place : Nat) : Except Error (Option Dictionary) :=
  arguments.optional place readDictionary

/-- The arguments from a place on. -/
def rest (arguments : Arguments) (place : Nat) : List Arg :=
  arguments.args.drop place

end Arguments

end WideColumn
