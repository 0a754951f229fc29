import WideColumn.Error
import WideColumn.Text.Utf8
import WideColumn.Toml.Document

/-!
# Configuration

The settings of the shell and of its connection to the store. They are read from a TOML file, named
explicitly or in the home directory; keys that are not given keep their usual values, and unknown
keys are passed over.
-/

namespace WideColumn

/-- The settings of the connection to the store. -/
structure ClientSettings where
  retries : Nat := 7
  connectRetries : Nat := 3
  deriving DecidableEq, Inhabited

/-- The settings of the shell. -/
structure Configuration where
  formatWidth : Nat := 110
  /-- Whether details of internal failures are shown. -/
  debug : Bool := false
  historyFile : Option String := none
  client : ClientSettings := {}
  deriving DecidableEq, Inhabited

namespace Configuration

/-- The name of the configuration file in the home directory. -/
def fileName : String := ".colshell.toml"

/-- The name of the usual history file in the home directory. -/
def historyFileName : String := ".colshell_history"

/-- The configuration file that is written when there is none. -/
def defaultText : String :=
  String.intercalate "\n"
    ["# colshell configuration",
      "#",
      "# Width of table output in characters (default: 110)",
      "format_width = 110",
      "",
      "# Log at DEBUG level and print error details (default: false)",
      "debug = false",
      "",
      "# REPL history file (default: $HOME/.colshell_history)",
      "# history_file = \"/home/me/.colshell_history\"",
      "",
      "[client]",
      "# Retries per client operation. Kept low so the prompt does not hang.",
      "retries = 7",
      "# Connection attempts to the RPC layer.",
      "ipc_connect_max_retries = 3",
      ""]

/-- Reads the value of a key, or takes the usual one when the key is absent. -/
def field {α : Type} (members : List (String × Toml.Value)) (key : String) (usual : α)
    (read : Toml.Value → Option α) : Option α :=
  match Toml.Value.member? members key with
  | some value => read value
  | none => some usual

/-- A whole number below a limit. -/
def natBelow (limit : Nat) : Toml.Value → Option Nat
  | .integer n => if 0 ≤ n && n < limit then some n.toNat else none
  | _ => none

/-- A truth value. -/
def truth : Toml.Value → Option Bool
  | .boolean value => some value
  | _ => none

/-- A text. -/
def text : Toml.Value → Option String
  | .text value => some value
  | _ => none

/-- The setting at a place of a list of settings. -/
def setting (items : List Toml.Value) (place usual : Nat) : Option Nat :=
  match items[place]? with
  | some value => natBelow (Nat.pow 2 32) value
  | none => some usual

/-- The settings of the connection: a table, or a list of the settings in their order. A date has
none of the keys, and so leaves all settings as usual. -/
def clientSettings : Toml.Value → Option ClientSettings
  | .table members => do
    let retries ← field members "retries" 7 (natBelow (Nat.pow 2 32))
    let connectRetries ← field members "ipc_connect_max_retries" 3 (natBelow (Nat.pow 2 32))
    return { retries, connectRetries }
  | .array items => do
    let retries ← setting items 0 7
    let connectRetries ← setting items 1 3
    return { retries, connectRetries }
  | .dateTime => some {}
  | _ => none

/-- Reads the members of a configuration. -/
def ofMembers? (members : List (String × Toml.Value)) : Option Configuration := do
  let formatWidth ← field members "format_width" 110 (natBelow (Nat.pow 2 63))
  let debug ← field members "debug" false truth
  let historyFile ← field members "history_file" none fun value => (text value).map some
  let client ← field members "client" {} clientSettings
  return { formatWidth, debug, historyFile, client }

/-- Reads a configuration file. The width of the output must not be zero. -/
def ofText (path text : String) : Except Error Configuration :=
  match Toml.read text >>= ofMembers? with
  | none =>
    .error (.invalidArgumentType ("config file '" ++ path ++ "'") "valid colshell TOML"
      "a malformed document")
  | some configuration =>
    if configuration.formatWidth = 0 then
      .error (.invalidArgumentType "format_width" "a positive integer" "0")
    else .ok configuration

/-- Reads a file of the given content, if there is one. -/
def ofFile (path : String) (content : Option Bytes) : Except Error Configuration :=
  match content.bind Text.ofUtf8? with
  | some text => ofText path text
  | none => .error (.inputOutput ("Failed to read config file '" ++ path ++ "'"))

/-- A path in the home directory. -/
def inHome (home name : String) : String :=
  home ++ "/" ++ name

/-- Reads the configuration: the file named explicitly, or else the one in the home directory if it
is there. -/
def load (explicit home : Option String) (content : String → Option Bytes) :
    Except Error Configuration :=
  match explicit with
  | some path => ofFile path (content path)
  | none =>
    match home.map (inHome · fileName) with
    | none => .ok {}
    | some path =>
      match content path with
      | some bytes => ofFile path (some bytes)
      | none => .ok {}

/-- The content of a configuration file after it was written where it was missing. Writing fails
where the directory does not exist. -/
def writeIfMissing (path : String) (directoryExists : Bool) (content : Option Bytes) :
    Except Error Bytes :=
  match content with
  | some bytes => .ok bytes
  | none =>
    if directoryExists then .ok (Text.utf8 defaultText)
    else .error (.inputOutput ("Failed to write default config file '" ++ path ++ "'"))

/-- The history file. -/
def historyPath (home : Option String) (configuration : Configuration) : Option String :=
  match configuration.historyFile with
  | some path => some path
  | none => home.map (inHome · historyFileName)

end Configuration

end WideColumn
