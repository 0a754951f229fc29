import WideColumn.Toml.Scalar
import WideColumn.Toml.Text

/-!
# TOML documents

`Toml.read` reads a whole document: definitions of keys, one on a line, under headers of tables and
of arrays of tables. It is first read into statements, one for each header and definition, and the
tables are then built from these. A document with any fault is refused as a whole.
-/

namespace WideColumn.Toml

/-- A key with the path before it and the value bound to it. -/
abbrev Definition := List String × String × Value

/-- What a line of a document says. -/
inductive Statement where
  /-- The header of a table, or of a table in an array. -/
  | header (inArray : Bool) (path : List String) (key : String)
  | definition (definition : Definition)

/-- A header with the definitions under it. -/
structure Section where
  /-- Whether the table belongs to an array. -/
  inArray : Bool
  /-- The path of the table that holds it. -/
  path : List String
  key : String
  definitions : List Definition

/-- A step of reading: it may fail, and leaves the rest of the characters. -/
abbrev Reader := StateT (List Char) Option

namespace Reader

/-- The next character. -/
def peek : Reader (Option Char) := do
  let chars ← get
  return chars.head?

/-- Takes a given character. -/
def take (c : Char) : Reader Unit := do
  set (← after? c (← get))

/-- Passes over spaces and tabs. -/
def skipSpacing : Reader Unit :=
  modify (·.dropWhile isSpacing)

/-- The rest of characters after spacing, line ends and comments. -/
def dropFiller (inComment : Bool) : List Char → List Char
  | [] => []
  | '\r' :: '\n' :: rest => dropFiller false rest
  | c :: rest =>
    if c = '\n' then dropFiller false rest
    else if inComment then if isAllowed c then dropFiller true rest else c :: rest
    else if isSpacing c then dropFiller false rest
    else if c = '#' then dropFiller true rest
    else c :: rest

/-- Passes over spacing, line ends and comments. -/
def skipFiller : Reader Unit :=
  modify (dropFiller false)

/-- Takes the end of a line, with spacing and a comment before it; the end of the document also
ends a line. -/
def lineEnd : Reader Unit := do
  skipSpacing
  if (← peek) = some '#' then modify (·.dropWhile isAllowed)
  match ← get with
  | [] => return
  | chars => set (← afterNewline? chars)

/-- Whether a character may stand in a key without quotes. -/
def isBare (c : Char) : Bool :=
  c.isAlphanum || c = '_' || c = '-'

/-- Reads a key between dots. -/
def simpleKey : Reader String := do
  match ← get with
  | '"' :: rest =>
    let (text, after) ← basicText rest
    set after
    return String.ofList text
  | '\'' :: rest =>
    let (text, after) ← literalText rest
    set after
    return String.ofList text
  | chars =>
    let bare := chars.takeWhile isBare
    if bare.isEmpty then failure
    set (chars.drop bare.length)
    return String.ofList bare

/-- The number of levels that keys and values have to stay below. -/
def depthLimit : Nat := 80

/-- Reads at most `most` keys separated by dots, with spacing around each. -/
def keys : Nat → Reader (List String)
  | 0 => failure
  | most + 1 => do
    skipSpacing
    let key ← simpleKey
    skipSpacing
    if (← peek) = some '.' then
      take '.'
      let rest ← keys most
      return key :: rest
    else return [key]

/-- Reads a key with the path before it. -/
def dottedKey : Reader (List String × String) := do
  let keys ← keys (depthLimit - 1)
  let last ← keys.getLast?
  return (keys.dropLast, last)

mutual

/-- Reads a value at a depth; the fuel is more than the number of steps the characters allow. -/
def value : Nat → Nat → Reader Value
  | 0, _ => failure
  | fuel + 1, depth => do
    match ← peek with
    | some '[' =>
      if depth + 1 < depthLimit then
        take '['
        let items ← items fuel (depth + 1)
        return .array items
      else failure
    | some '\x7b' =>
      if depth + 1 < depthLimit then
        take '\x7b'
        skipSpacing
        let definitions ←
          if (← peek) = some '\x7d' then do
            take '\x7d'
            pure []
          else pairs fuel (depth + 1)
        let members ← Members.defineAll definitions []
        return .table (membersToValues members)
      else failure
    | some c =>
      if c = '"' || c = '\'' then
        let (text, after) ← anyText (← get)
        set after
        return .text (String.ofList text)
      else
        let (token, after) := splitScalar (← get)
        let value ← scalar? token
        set after
        return value
    | none => failure

/-- Reads the items of an array and its closing bracket; a comma may follow the last item. -/
def items : Nat → Nat → Reader (List Value)
  | 0, _ => failure
  | fuel + 1, depth => do
    skipFiller
    if (← peek) = some ']' then
      take ']'
      return []
    let item ← value fuel depth
    skipFiller
    if (← peek) = some ',' then
      take ','
      let rest ← items fuel depth
      return item :: rest
    else
      take ']'
      return [item]

/-- Reads the definitions in an inline table, at least one, and its closing brace. -/
def pairs : Nat → Nat → Reader (List Definition)
  | 0, _ => failure
  | fuel + 1, depth => do
    let (path, key) ← dottedKey
    take '='
    skipSpacing
    let value ← value fuel depth
    skipSpacing
    if (← peek) = some ',' then
      take ','
      let rest ← pairs fuel depth
      return (path, key, value) :: rest
    else
      take '\x7d'
      return [(path, key, value)]

end

/-- Reads the header of a table. -/
def header : Reader Statement := do
  take '['
  let inArray := (← peek) = some '['
  if inArray then take '['
  let (path, key) ← dottedKey
  take ']'
  if inArray then take ']'
  lineEnd
  return .header inArray path key

/-- Reads the definition of a key. -/
def definition : Reader Statement := do
  let (path, key) ← dottedKey
  take '='
  skipSpacing
  let value ← value (3 * (← get).length + 3) 0
  lineEnd
  return .definition (path, key, value)

/-- Reads at most `most` lines, up to the end of the document. -/
def statements : Nat → Reader (List Statement)
  | 0 => do
    if (← get).isEmpty then return [] else failure
  | most + 1 => do
    skipSpacing
    match ← get with
    | [] => return []
    | c :: _ =>
      if c = '#' || c = '\n' || c = '\r' then
        lineEnd
        statements most
      else
        let first ← if c = '[' then header else definition
        let rest ← statements most
        return first :: rest

end Reader

/-- The definitions before the first header, and the sections after it. -/
def sections : List Statement → List Definition × List Section
  | [] => ([], [])
  | .definition definition :: rest =>
    let later := sections rest
    (definition :: later.1, later.2)
  | .header inArray path key :: rest =>
    let later := sections rest
    ([], ⟨inArray, path, key, later.1⟩ :: later.2)

/-- Adds the table of a section. -/
def Section.addTo (part : Section) (members : Members) : Option Members :=
  if part.inArray then members.addToArray part.path part.key part.definitions
  else members.addTable part.path part.key part.definitions

/-- The characters of a document without the mark that may stand before them. -/
def withoutMark : List Char → List Char
  | '\uFEFF' :: rest => rest
  | chars => chars

/-- Reads a document: the members of its outermost table. -/
def read (document : String) : Option (List (String × Value)) := do
  let chars := withoutMark document.toList
  let (statements, _) ← Reader.statements (chars.length + 1) chars
  let parts := sections statements
  let root ← Members.defineAll parts.1 []
  let members ← parts.2.foldlM (fun members part => part.addTo members) root
  return membersToValues members

end WideColumn.Toml
