import WideColumn.Text.Quoted

/-!
# Failures

Every failure of a command is one of the causes listed here. A cause is either a mistake of the user
(its input, or the state of the table it names) or a failure of the store or the shell;
`Error.isUserError` separates the two, and the shell reports them differently. `Error.message` is
the wording, `Error.kind` the name of the cause, and `Error.details` lists the cause with all that
is known about it.
-/

namespace WideColumn

/-- Why a command or a client call failed. -/
inductive Error where
  /-- A column specifier without a family; the specifier is in printable form. -/
  | malformedColumnSpecifier (spec : String)
  | invalidArgumentType (argument expected actual : String)
  /-- Options that do not say what to read. -/
  | ambiguousArguments (reason : String)
  | wrongArgumentCount (command expected : String) (actual : Nat)
  | missingColumnFamily (table : String)
  | familyNotFound (table family : String)
  | unknownCommand (name : String)
  | tableNotFound (table : String)
  | tableExists (table : String)
  | tableStillEnabled (table : String)
  | tableDisabled (table : String)
  | regionNotFound (region : String)
  /-- A call the store refused or could not answer. -/
  | client (reason : String)
  | inputOutput (reason : String)
  /-- A broken invariant. -/
  | internal (reason : String)
  deriving DecidableEq, Inhabited

namespace Error

/-- Whether the user can mend the cause by another input or by changing the state of a table. -/
def isUserError : Error → Bool
  | .client _ | .inputOutput _ | .internal _ => false
  | _ => true

/-- The name of the cause. -/
def kind : Error → String
  | .malformedColumnSpecifier _ => "MalformedColumnSpecifier"
  | .invalidArgumentType _ _ _ => "InvalidArgumentType"
  | .ambiguousArguments _ => "AmbiguousArguments"
  | .wrongArgumentCount _ _ _ => "WrongArgumentCount"
  | .missingColumnFamily _ => "MissingColumnFamily"
  | .familyNotFound _ _ => "FamilyNotFound"
  | .unknownCommand _ => "UnknownCommand"
  | .tableNotFound _ => "TableNotFound"
  | .tableExists _ => "TableExists"
  | .tableStillEnabled _ => "TableStillEnabled"
  | .tableDisabled _ => "TableDisabled"
  | .regionNotFound _ => "RegionNotFound"
  | .client _ => "Client"
  | .inputOutput _ => "Io"
  | .internal _ => "Internal"

/-- The wording of a failure. -/
def message : Error → String
  | .malformedColumnSpecifier spec =>
    "malformed column specifier '" ++ spec ++ "': family must not be empty"
  | .invalidArgumentType argument expected actual =>
    argument ++ " must be " ++ expected ++ ", got " ++ actual
  | .ambiguousArguments reason => "ambiguous arguments: " ++ reason
  | .wrongArgumentCount command expected actual =>
    "wrong number of arguments for '" ++ command ++ "': expected " ++ expected ++ ", got " ++
      toString actual
  | .missingColumnFamily table => "table '" ++ table ++ "' must have at least one column family"
  | .familyNotFound table family =>
    "column family '" ++ family ++ "' not found in table '" ++ table ++ "'"
  | .unknownCommand name => "unknown command '" ++ name ++ "'"
  | .tableNotFound table => "table '" ++ table ++ "' not found"
  | .tableExists table => "table '" ++ table ++ "' already exists"
  | .tableStillEnabled table => "table '" ++ table ++ "' is enabled, disable it first"
  | .tableDisabled table => "table '" ++ table ++ "' is disabled"
  | .regionNotFound region => "region '" ++ region ++ "' not found"
  | .client reason => "client error: " ++ reason
  | .inputOutput reason => "I/O error: " ++ reason
  | .internal reason => "internal error: " ++ reason

/-- What is known about a cause: names, and values as they are shown. -/
def fields : Error → List (String × String)
  | .malformedColumnSpecifier spec => [("spec", Text.quoted spec)]
  | .invalidArgumentType argument expected actual =>
    [("argument", Text.quoted argument), ("expected", Text.quoted expected),
      ("actual", Text.quoted actual)]
  | .ambiguousArguments reason => [("reason", Text.quoted reason)]
  | .wrongArgumentCount command expected actual =>
    [("command", Text.quoted command), ("expected", Text.quoted expected),
      ("actual", toString actual)]
  | .missingColumnFamily table => [("table", Text.quoted table)]
  | .familyNotFound table family =>
    [("table", Text.quoted table), ("family", Text.quoted family)]
  | .unknownCommand name => [("name", Text.quoted name)]
  | .tableNotFound table => [("table", Text.quoted table)]
  | .tableExists table => [("table", Text.quoted table)]
  | .tableStillEnabled table => [("table", Text.quoted table)]
  | .tableDisabled table => [("table", Text.quoted table)]
  | .regionNotFound region => [("region", Text.quoted region)]
  | .client reason => [("reason", Text.quoted reason)]
  | .inputOutput reason => [("reason", Text.quoted reason)]
  | .internal reason => [("reason", Text.quoted reason)]

/-- The cause with all that is known about it, one item on a line. -/
def details (error : Error) : String :=
  error.kind ++ " \x7b\n" ++
    String.join (error.fields.map fun field => "    " ++ field.1 ++ ": " ++ field.2 ++ ",\n") ++
    "\x7d"

end Error

end WideColumn
