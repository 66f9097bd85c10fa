import ClassLoom.Text.Invisible

/-!
# Texts and values for diagnosis

A text is shown between double quotes. Inside, the quote and the backslash are
escaped by a backslash, four control characters have short escapes, and every
other character without a glyph of its own is written as its number to base 16.

Values are put together from shown texts: records with named fields, lists, sets
and wrapped values.
-/

namespace ClassLoom.Text

/-- The letter after the backslash of a character with a short escape. -/
def shortEscape? : Char → Option Char
  | '\x00' => some '0'
  | '\t' => some 't'
  | '\n' => some 'n'
  | '\r' => some 'r'
  | '"' => some '"'
  | '\\' => some '\\'
  | _ => none

/-- A character as it appears between quotes. -/
def escaped (c : Char) : List Char :=
  match shortEscape? c with
  | some letter => ['\\', letter]
  | none =>
    if isInvisible c then
      ['\\', 'u', '\x7b'] ++ Nat.toDigits 16 c.toNat ++ ['\x7d']
    else
      [c]

/-- A text between quotes. -/
def quoted (text : String) : String :=
  String.ofList ('"' :: text.toList.flatMap escaped ++ ['"'])

/-- Shown values, separated by commas. -/
def commaJoined (items : List String) : String :=
  ", ".intercalate items

/-- Shown values between brackets. -/
def shownList (items : List String) : String :=
  "[" ++ commaJoined items ++ "]"

/-- Shown values between braces. -/
def shownSet (items : List String) : String :=
  "\x7b" ++ commaJoined items ++ "\x7d"

/-- A record: its name, and its fields with their shown values. -/
def shownRecord (name : String) (fields : List (String × String)) : String :=
  name ++ " \x7b " ++ commaJoined (fields.map fun (field, value) => field ++ ": " ++ value)
    ++ " \x7d"

/-- A shown value with a name put around it. -/
def shownWrapped (name value : String) : String :=
  name ++ "(" ++ value ++ ")"

/-- A truth value. -/
def shownFlag (value : Bool) : String :=
  if value then "true" else "false"

end ClassLoom.Text
