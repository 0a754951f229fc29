import WideColumn.Number.Decimal

/-!
# Flags of the program

The flags choose the form of the output, its width, the configuration file and a script to run
first. An option takes its value after an equals sign or as the next word; a word that begins with a
hyphen is never such a value. Single-letter flags may share one hyphen. After `--` every word is an
operand, and there is at most one operand, the script. A value given as a word of its own is checked
only when the word after it has been understood.
-/

namespace WideColumn

/-- The form of the output. -/
inductive OutputMode where
  | console
  | json
  deriving DecidableEq, Inhabited

namespace OutputMode

/-- The name of a form. -/
def name : OutputMode → String
  | .console => "console"
  | .json => "json"

/-- The form of a name. -/
def ofName? (text : String) : Option OutputMode :=
  [console, json].find? fun mode => mode.name == text

end OutputMode

/-- What the flags say. -/
structure Flags where
  mode : OutputMode := .console
  formatWidth : Option Nat := none
  debug : Bool := false
  config : Option String := none
  /-- The script to run first. -/
  script : Option String := none
  deriving DecidableEq, Inhabited

/-- Why the flags start no shell. -/
inductive FlagStop where
  /-- A value is missing, empty or not one of those possible. -/
  | invalidValue
  /-- A word that is no flag, or one operand too many. -/
  | unknownArgument
  | repeatedFlag
  | badNumber
  /-- A flag without a value is given one. -/
  | unexpectedValue
  | help
  | version
  deriving DecidableEq, Inhabited

namespace Flags

/-- What a value can be given for. -/
inductive Slot where
  | format
  | formatWidth
  | config
  | script
  deriving DecidableEq, Inhabited

/-- What a flag name stands for. -/
inductive Named where
  | valued (slot : Slot)
  | debug
  | help
  | version
  deriving DecidableEq, Inhabited

/-- The words read so far. -/
structure Parsing where
  mode : Option OutputMode := none
  formatWidth : Option Nat := none
  debug : Bool := false
  config : Option String := none
  script : Option String := none
  /-- The option or operand that was met last, and its value once that has been met too. -/
  pending : Option (Slot × Option String) := none
  hasOperand : Bool := false
  /-- Whether only operands follow. -/
  trailing : Bool := false

/-- The flag of a long name. -/
def ofLongName? (name : List Char) : Option Named :=
  match String.ofList name with
  | "format" => some (.valued .format)
  | "format-width" => some (.valued .formatWidth)
  | "config" => some (.valued .config)
  | "debug" => some .debug
  | "help" => some .help
  | "version" => some .version
  | _ => none

/-- The flag of a letter. -/
def ofLetter? : Char → Option Named
  | 'd' => some .debug
  | 'h' => some .help
  | 'V' => some .version
  | _ => none

/-- A path, which must not be empty. -/
def readPath (value : String) : Except FlagStop String :=
  if value.isEmpty then .error .invalidValue else .ok value

namespace Parsing

/-- Whether a value has been taken for a slot. -/
def isTaken (parsing : Parsing) : Slot → Bool
  | .format => parsing.mode.isSome
  | .formatWidth => parsing.formatWidth.isSome
  | .config => parsing.config.isSome
  | .script => parsing.script.isSome

/-- Takes a value. -/
def assign (slot : Slot) (value : String) (parsing : Parsing) : Except FlagStop Parsing :=
  if parsing.isTaken slot then .error .repeatedFlag
  else
    match slot with
    | .format =>
      match OutputMode.ofName? value with
      | some mode => .ok { parsing with mode := some mode }
      | none => .error .invalidValue
    | .formatWidth =>
      match Number.nat? (Nat.pow 2 64 - 1) value.toList with
      | some width => .ok { parsing with formatWidth := some width }
      | none => .error .badNumber
    | .config => (readPath value).map fun path => { parsing with config := some path }
    | .script => (readPath value).map fun path => { parsing with script := some path }

/-- Takes the value that is pending, if there is one; an option without its value is refused. -/
def settle (parsing : Parsing) : Except FlagStop Parsing :=
  let settled := { parsing with pending := none }
  match parsing.pending with
  | none => .ok settled
  | some (_, none) => .error .invalidValue
  | some (slot, some value) => settled.assign slot value

/-- Takes a flag without a value. -/
def takeFlag (flag : Named) (parsing : Parsing) : Except FlagStop Parsing := do
  let settled ← parsing.settle
  match flag with
  | .valued slot => .ok { settled with pending := some (slot, none) }
  | .debug => if settled.debug then .error .repeatedFlag else .ok { settled with debug := true }
  | .help => .error .help
  | .version => .error .version

/-- Takes a flag with a value after an equals sign. -/
def takeValued (flag : Named) (value : String) (parsing : Parsing) : Except FlagStop Parsing :=
  match flag with
  | .valued slot => do
    let settled ← parsing.settle
    settled.assign slot value
  | _ => .error .unexpectedValue

/-- Takes a word that begins with two hyphens, given without them. -/
def takeLong (word : List Char) (parsing : Parsing) : Except FlagStop Parsing :=
  match ofLongName? (word.takeWhile (· != '=')) with
  | none => .error .unknownArgument
  | some flag =>
    match word.dropWhile (· != '=') with
    | [] => parsing.takeFlag flag
    | _ :: value => parsing.takeValued flag (String.ofList value)

/-- Takes flags of one letter. -/
def takeLetters : List Char → Parsing → Except FlagStop Parsing
  | [], parsing => .ok parsing
  | letter :: rest, parsing =>
    match ofLetter? letter with
    | none => .error .unknownArgument
    | some flag => do
      let taken ← parsing.takeFlag flag
      takeLetters rest taken

/-- Takes an operand. -/
def takeOperand (word : String) (parsing : Parsing) : Except FlagStop Parsing :=
  if parsing.hasOperand then .error .unknownArgument
  else do
    let settled ← parsing.settle
    .ok { settled with pending := some (.script, some word), hasOperand := true }

/-- Takes a word that is no flag: the value of the option before it, or an operand. -/
def takePlain (word : String) (parsing : Parsing) : Except FlagStop Parsing :=
  match parsing.pending with
  | some (slot, none) => .ok { parsing with pending := some (slot, some word) }
  | _ => parsing.takeOperand word

/-- Takes a word. -/
def take (parsing : Parsing) (word : String) : Except FlagStop Parsing :=
  if parsing.trailing then parsing.takeOperand word
  else
    match word.toList with
    | ['-', '-'] => .ok { parsing with trailing := true }
    | '-' :: '-' :: rest => parsing.takeLong rest
    | '-' :: letter :: rest => parsing.takeLetters (letter :: rest)
    | _ => parsing.takePlain word

/-- The flags of all words taken. -/
def flags (parsing : Parsing) : Flags where
  mode := parsing.mode.getD .console
  formatWidth := parsing.formatWidth
  debug := parsing.debug
  config := parsing.config
  script := parsing.script

end Parsing

/-- Reads the words after the name of the program. -/
def parse (words : List String) : Except FlagStop Flags := do
  let parsing ← words.foldlM Parsing.take {}
  let settled ← parsing.settle
  return settled.flags

end Flags

end WideColumn
