import WideColumn.Text.Blank

/-!
# The history of entered lines

The lines entered at the prompt, the earliest first. A line equal to the one before it, a line that
begins with a blank and the empty line are not added, and only the last hundred are kept. In the
history file every backslash and line feed of an entry is escaped by a backslash.
-/

namespace WideColumn

/-- The lines entered at the prompt. -/
structure History where
  /-- The entries, earliest first. -/
  entries : List String := []
  /-- Whether there are entries that are not in the history file. -/
  grown : Bool := false
  deriving DecidableEq, Inhabited

namespace History

/-- The number of entries kept. -/
def capacity : Nat := 100

/-- Whether a line is not added after the given entries. -/
def isIgnored (entries : List String) (line : String) : Bool :=
  line.toList.head?.all Text.isBlank || entries.getLast? == some line

/-- Adds a line. -/
def add (line : String) (history : History) : History :=
  if isIgnored history.entries line then history
  else
    let entries := history.entries ++ [line]
    { entries := entries.drop (entries.length - capacity), grown := true }

/-- The characters of an entry as they are stored. -/
def escape (entry : List Char) : List Char :=
  entry.flatMap fun c =>
    if c = '\\' then ['\\', '\\'] else if c = '\n' then ['\\', 'n'] else [c]

/-- The characters of a stored entry; absent when it holds any other escape. -/
def unescape? : List Char → Option (List Char)
  | [] => some []
  | '\\' :: '\\' :: rest => (unescape? rest).map ('\\' :: ·)
  | '\\' :: 'n' :: rest => (unescape? rest).map ('\n' :: ·)
  | c :: rest => if c = '\\' then none else (unescape? rest).map (c :: ·)

/-- The entries as they are stored. -/
def stored (history : History) : List String :=
  history.entries.map fun entry => String.ofList (escape entry.toList)

/-- The entry behind a stored line; a line with an unknown escape is taken as it is. -/
def ofStoredLine (line : String) : String :=
  match unescape? line.toList with
  | some entry => String.ofList entry
  | none => line

/-- The history of the lines in a history file. -/
def ofStored (lines : List String) : History :=
  let loaded : History := lines.foldl (fun history line => add (ofStoredLine line) history) {}
  { loaded with grown := false }

/-- The first line of a history file, which says how its entries are stored. -/
def fileMark : String := "#V2"

/-- The history of a history file. A file without the mark holds entries as they were entered. -/
def ofFileLines : List String → History
  | [] => {}
  | first :: rest =>
    if first = fileMark then ofStored rest
    else { (first :: rest).foldl (fun history line => add line history) {} with grown := false }

/-- The lines of the history file after a session: the file is written only when there is something
new, and stays as it was otherwise. -/
def fileAfter (before : Option (List String)) (history : History) : Option (List String) :=
  if history.grown then some history.stored else before

end History

end WideColumn
