import WideColumn.Error
import WideColumn.Text.Printable

/-!
# Column specifiers

A column is addressed as `family:qualifier`. The specifier is split at its first colon, so a
qualifier may hold colons itself. A family alone, with or without the colon, addresses the whole
family; a specifier without a family is refused.
-/

namespace WideColumn

/-- A family, and the qualifier of one of its columns unless the whole family is meant. -/
structure ColumnSpec where
  /-- The family; never empty in a specifier that was read. -/
  family : Bytes
  /-- The qualifier; never empty in a specifier that was read. -/
  qualifier : Option Bytes
  deriving DecidableEq, Inhabited

namespace ColumnSpec

/-- The colon as a byte. -/
def colon : UInt8 := 58

/-- The family and the qualifier text of a specifier: what stands before and after its first
colon. -/
def split (spec : Bytes) : Bytes × Bytes :=
  (spec.takeWhile (· != colon), (spec.dropWhile (· != colon)).drop 1)

/-- Reads a specifier. -/
def parse (spec : Bytes) : Except Error ColumnSpec :=
  let parts := split spec
  if parts.1.isEmpty then .error (.malformedColumnSpecifier (Text.printable spec))
  else .ok ⟨parts.1, if parts.2.isEmpty then none else some parts.2⟩

/-- The specifier of a whole family. -/
def ofFamily (family : Bytes) : Except Error ColumnSpec :=
  if family.isEmpty then .error (.malformedColumnSpecifier "") else .ok ⟨family, none⟩

/-- Whether the whole family is addressed. -/
def isFamilyOnly (spec : ColumnSpec) : Bool :=
  spec.qualifier.isNone

/-- The qualifier a write through this specifier addresses: the empty one for a whole family. -/
def cellQualifier (spec : ColumnSpec) : Bytes :=
  spec.qualifier.getD []

/-- Whether a read through this specifier returns a column. -/
def selects (spec : ColumnSpec) (family qualifier : Bytes) : Bool :=
  spec.family == family && spec.qualifier.all (· == qualifier)

/-- The specifier in printable form. -/
def display (spec : ColumnSpec) : String :=
  Text.printable spec.family ++ ":" ++ Text.printable spec.cellQualifier

end ColumnSpec

end WideColumn
