/-!
# Values of a TOML document

A TOML document is a table, given by its members. While it is read, a table also remembers how it
came about, because that decides which later definitions may add to it: a table that only stands
between others is `implicit`, and one made by the dots of a key is `dotted`. `Item` is a value with
that memory, and `Item.toValue` drops it.

The payload of floating-point numbers and of dates is checked when they are read, but not kept.
-/

namespace WideColumn.Toml

/-- A value. -/
inductive Value where
  | text (value : String)
  | integer (value : Int)
  | float
  | boolean (value : Bool)
  | dateTime
  | array (items : List Value)
  | table (members : List (String × Value))
  deriving Inhabited

/-- The value of a key in a table. -/
def Value.member? (members : List (String × Value)) (key : String) : Option Value :=
  members.lookup key

/-- A value in a document that is still being read. -/
inductive Item where
  | closed (value : Value)
  | table (implicit dotted : Bool) (members : List (String × Item))
  /-- Tables of an array, the last one first. -/
  | tables (last : List (String × Item)) (earlier : List Value)
  deriving Inhabited

/-- The members of a table that is still being read. -/
abbrev Members := List (String × Item)

mutual

/-- The value of an item. -/
def Item.toValue : Item → Value
  | .closed value => value
  | .table _ _ members => .table (membersToValues members)
  | .tables last earlier => .array (earlier.reverse ++ [.table (membersToValues last)])

/-- The members with their values. -/
def membersToValues : List (String × Item) → List (String × Value)
  | [] => []
  | (key, item) :: rest => (key, item.toValue) :: membersToValues rest

end

namespace Members

/-- Binds a key, which keeps its place if it is already bound. -/
def set (members : Members) (key : String) (item : Item) : Members :=
  match members with
  | [] => [(key, item)]
  | (k, old) :: rest => if k = key then (k, item) :: rest else (k, old) :: set rest key item

/-- Changes the members of the table under a path. Missing tables are made on the way. Only the last
table of an array can be reached, and a value that is complete cannot be entered. A path made by the
dots of a key makes dotted tables and enters implicit tables only. -/
def descend (dotted : Bool) (change : Members → Option Members) :
    List String → Members → Option Members
  | [], members => change members
  | key :: rest, members =>
    match members.lookup key with
    | none => do
      let inner ← descend dotted change rest []
      return set members key (.table true dotted inner)
    | some (.closed _) => none
    | some (.tables last earlier) => do
      let inner ← descend dotted change rest last
      return set members key (.tables inner earlier)
    | some (.table isImplicit isDotted old) =>
      if dotted && !isImplicit then none
      else do
        let inner ← descend dotted change rest old
        return set members key (.table isImplicit isDotted inner)

/-- Whether every table under a path, where there is one, is dotted. -/
def endsDotted : List String → Members → Bool
  | [], _ => true
  | key :: rest, members =>
    match members.lookup key with
    | some (.table _ isDotted inner) => if rest.isEmpty then isDotted else endsDotted rest inner
    | some (.tables last _) => if rest.isEmpty then false else endsDotted rest last
    | _ => true

/-- Binds the key at the end of a dotted path to a value. The key must be new, and the table that
gets it must have been made by dots. -/
def define (path : List String) (key : String) (value : Value) (members : Members) :
    Option Members :=
  if endsDotted path members then
    descend true
      (fun inner =>
        if (inner.lookup key).isSome then none else some (set inner key (.closed value)))
      path members
  else none

/-- Defines several keys in order. -/
def defineAll : List (List String × String × Value) → Members → Option Members
  | [], members => some members
  | (path, key, value) :: rest, members => do
    let defined ← define path key value members
    defineAll rest defined

/-- Adds the table of a header with its definitions. A table that only stood between others so far
keeps its members; any other table of that name is refused. -/
def addTable (path : List String) (key : String)
    (definitions : List (List String × String × Value)) (members : Members) : Option Members :=
  descend false
    (fun parent => do
      let start ← match parent.lookup key with
        | none => some []
        | some (.table true false old) => some old
        | some _ => none
      let inner ← defineAll definitions start
      return set parent key (.table false false inner))
    path members

/-- Adds a table with its definitions to the array of a header. -/
def addToArray (path : List String) (key : String)
    (definitions : List (List String × String × Value)) (members : Members) : Option Members :=
  descend false
    (fun parent => do
      let inner ← defineAll definitions []
      match parent.lookup key with
      | none => return set parent key (.tables inner [])
      | some (.tables last earlier) =>
        return set parent key (.tables inner (.table (membersToValues last) :: earlier))
      | some _ => none)
    path members

end Members

end WideColumn.Toml
