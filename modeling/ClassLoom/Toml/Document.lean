import ClassLoom.Toml.Lexical
import ClassLoom.Toml.Value

/-!
# Reading TOML documents

A document is read line by line: settings, headers, comments and empty lines. A
setting may take several lines if its value is an array or a string over several
lines. The settings before the first header belong to the document itself, all
others to the header before them; `Table.ofSections` puts the document together.

Arrays and tables within values nest at most so deep, and dotted keys have at
most so many parts. The limit on nesting is what the parser of values recurses
on.
-/

namespace ClassLoom.Toml

open Toml.Parser

/-- How deep values may nest, and below how many parts a key stays. -/
def nestingLimit : Nat := 80

/-! ## Keys -/

/-- Whether `c` may stand in a key without quotes. -/
def isBare (c : Char) : Bool :=
  c.isAlphanum || c = '-' || c = '_'

/-- One part of a key. -/
def simpleKey : Parser String :=
  basicString <|> literalString <|> do return String.ofList (← run1 isBare)

/-- A key, split at its dots: all parts but the last, and the last. -/
def key : Parser (List String × String) := do
  let parts ← separated (do
    white
    let part ← simpleKey
    white
    return part) (char '.')
  check (parts.length < nestingLimit)
  match parts.getLast? with
  | some last => return (parts.dropLast, last)
  | none => failure

/-! ## Values -/

/-- The items of an array, each read by `item`, in brackets. -/
def array (item : Parser Value) : Parser Value := do
  char '['
  let items ← optional (do
    let items ← separated (do
      filler
      let value ← item
      filler
      return value) (char ',')
    let _ ← optional (char ',')
    return items)
  filler
  char ']'
  return .array (items.getD [])

/-- A setting whose value is read by `item`. -/
def setting (item : Parser Value) : Parser Setting := do
  let (path, key) ← key
  char '='
  white
  return ⟨path, key, ← item⟩

/-- A table that is written out, with values read by `item`. -/
def inlineTable (item : Parser Value) : Parser Value := do
  char '{'
  white
  let settings ← optional (separated (do
    let s ← setting item
    white
    return s) (char ','))
  white
  char '}'
  match Table.addSettings (settings.getD []) [] with
  | some t => return .table .inline t
  | none => failure

/-- A value that holds no others. -/
def scalar : Parser Value :=
  (do return .text (← string))
  <|> (do moment; return .moment)
  <|> (do float; return .float)
  <|> (do return .integer (← integer))
  <|> (do literal "true"; return .boolean true)
  <|> (do literal "false"; return .boolean false)

/-- A value that nests less deep than the given bound. -/
def value : Nat → Parser Value
  | 0 => failure
  | 1 => scalar
  | bound + 1 => scalar <|> array (value bound) <|> inlineTable (value bound)

/-! ## Lines -/

/-- What a line is, comments and blanks apart. -/
inductive Line where
  | empty
  | setting (s : Setting)
  | header (h : Header)

/-- A header in brackets. -/
def header : Parser Header :=
  (do
    literal "[["
    let (path, key) ← key
    literal "]]"
    return .element path key)
  <|> do
    char '['
    let (path, key) ← key
    char ']'
    return .table path key

/-- A line with its end. There is no line after the end of the text. -/
def line : Parser Line := do
  notAtEnd
  white
  let content ←
    (do return .header (← header))
    <|> (do return .setting (← setting (value nestingLimit)))
    <|> pure .empty
  lineEnd
  return content

/-- The settings at the start of some lines, and the sections after them. -/
def sectionsOf : List Line → List Setting × List Section
  | [] => ([], [])
  | .empty :: lines => sectionsOf lines
  | .setting s :: lines =>
    let (settings, sections) := sectionsOf lines
    (s :: settings, sections)
  | .header h :: lines =>
    let (settings, sections) := sectionsOf lines
    ([], ⟨h, settings⟩ :: sections)

/-- The text without the mark of byte order at its start. -/
def withoutMark : List Char → List Char
  | '\ufeff' :: rest => rest
  | text => text

/-- The document that a text is; none if the text is malformed or defines
something twice. -/
def Table.ofText? (text : String) : Option Table :=
  match many line (withoutMark text.toList) with
  | some (lines, []) =>
    let (settings, sections) := sectionsOf lines
    Table.ofSections settings sections
  | _ => none

end ClassLoom.Toml
