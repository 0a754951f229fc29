/-!
# Padding and cutting by characters

Widths on the console count characters. `padRight` fills a text up to a width with blanks,
`padLeft` with any character, and `truncate` keeps the first characters of a text.
-/

namespace WideColumn.Text

/-- Appends spaces up to `width` characters. -/
def padRight (width : Nat) (chars : List Char) : List Char :=
  chars ++ List.replicate (width - chars.length) ' '

/-- Puts `fill` in front up to `width` characters. -/
def padLeft (fill : Char) (width : Nat) (chars : List Char) : List Char :=
  List.replicate (width - chars.length) fill ++ chars

/-- The first `limit` characters of a text. -/
def truncate (text : String) (limit : Nat) : String :=
  String.ofList (text.toList.take limit)

end WideColumn.Text
