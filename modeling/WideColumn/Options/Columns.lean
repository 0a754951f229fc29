import WideColumn.Options.Reader
import WideColumn.Store.Request

/-!
# The columns of a read

Columns are given under `COLUMNS` or `COLUMN`, as one specifier or a list of them; when both keys
are present `COLUMNS` counts.
-/

namespace WideColumn.Options

/-- Reads one element of a list of specifiers. -/
def columnElement (key : String) (item : Arg) : Except Error ColumnSpec :=
  match item.bytes? with
  | some spec => ColumnSpec.parse spec
  | none => .error (.invalidArgumentType (key ++ " element") "String" item.typeName)

/-- Reads the value of `COLUMNS` or `COLUMN`. -/
def columnsOf (key : String) (arg : Arg) : Except Error (List ColumnSpec) :=
  match arg with
  | .str _ | .bytes _ => do
    let spec ← ColumnSpec.parse (arg.bytes?.getD [])
    .ok [spec]
  | .list items => items.mapM (columnElement key)
  | other => .error (.invalidArgumentType key "a String or an Array of Strings" other.typeName)

/-- The columns given; absent when neither key is present. -/
def columnList (options : Dictionary) : Except Error (Option (List ColumnSpec)) :=
  match options.get? "COLUMNS", options.get? "COLUMN" with
  | some columns, _ => (columnsOf "COLUMNS" columns).map some
  | none, some column => (columnsOf "COLUMN" column).map some
  | none, none => .ok none

end WideColumn.Options
