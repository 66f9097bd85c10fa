/-!
# The small parts of TOML

Parsers for what a TOML document is made of on a line: blanks, comments, strings
in four notations, numbers, dates and times. A parser takes a value off the front
of a list of characters or fails; alternatives are tried in order. None of the
repetitions recurses on anything but the number of characters that are left.
-/

namespace ClassLoom.Toml

/-- Takes a value off the front of the text, or fails. -/
abbrev Parser (α : Type) := StateT (List Char) Option α

namespace Parser

/-- The next character, if `p` accepts it. -/
def one (p : Char → Bool) : Parser Char
  | c :: rest => if p c then some (c, rest) else none
  | [] => none

/-- The character `c`. -/
def char (c : Char) : Parser Unit := do
  let _ ← one (· = c)

/-- The characters of `text`. -/
def literal (text : String) : Parser Unit := fun s =>
  if text.toList.isPrefixOf s then some ((), s.drop text.toList.length) else none

/-- As many characters as `p` accepts. -/
def run (p : Char → Bool) : Parser (List Char) := fun s =>
  some (s.takeWhile p, s.dropWhile p)

/-- As many characters as `p` accepts, but at least one. -/
def run1 (p : Char → Bool) : Parser (List Char) := fun s =>
  match s.takeWhile p with
  | [] => none
  | front => some (front, s.dropWhile p)

/-- Exactly `count` characters that `p` accepts. -/
def exactly (count : Nat) (p : Char → Bool) : Parser (List Char) := fun s =>
  let front := (s.take count).takeWhile p
  if front.length = count then some (front, s.drop count) else none

/-- Values as long as there are any, at most `bound` of them, after those of
`done`. -/
def manyUpTo {α : Type} (p : Parser α) : Nat → List α → Parser (List α)
  | 0, done => fun s => some (done.reverse, s)
  | bound + 1, done => fun s =>
    match p s with
    | some (a, rest) => manyUpTo p bound (a :: done) rest
    | none => some (done.reverse, s)

/-- Values as long as there are any. Each of them must take a character. -/
def many {α : Type} (p : Parser α) : Parser (List α) := fun s =>
  manyUpTo p s.length [] s

/-- One value or more, with separators between them. -/
def separated {α : Type} (p : Parser α) (separator : Parser Unit) : Parser (List α) := do
  let first ← p
  let others ← many (do separator; p)
  return first :: others

/-- Succeeds if there is more text, and takes nothing. -/
def notAtEnd : Parser Unit
  | [] => none
  | text => some ((), text)

/-- The end of the text. -/
def atEnd : Parser Unit
  | [] => some ((), [])
  | _ :: _ => none

/-- Succeeds if `accepted`. -/
def check (accepted : Bool) : Parser Unit :=
  if accepted then pure () else failure

end Parser

open Toml.Parser

/-! ## Characters -/

/-- Whether `c` is a blank within a line. -/
def isWhite (c : Char) : Bool := c = ' ' || c = '\t'

/-- Whether `c` may stand in a comment or, quotes and backslashes apart, in a
string: a tab, a visible ASCII character or any character beyond ASCII. -/
def isPlain (c : Char) : Bool :=
  c = '\t' || (0x20 ≤ c.toNat && c.toNat ≤ 0x7e) || 0x80 ≤ c.toNat

/-- Whether `c` may stand in a basic string without being escaped. -/
def isBasic (c : Char) : Bool := isPlain c && c ≠ '"' && c ≠ '\\'

/-- Whether `c` may stand in a literal string. -/
def isLiteral (c : Char) : Bool := isPlain c && c ≠ '\''

/-- Whether `c` is a digit to base 16. -/
def isHexDigit (c : Char) : Bool :=
  c.isDigit || ('a' ≤ c && c ≤ 'f') || ('A' ≤ c && c ≤ 'F')

/-- Whether `c` is a digit to base 8. -/
def isOctalDigit (c : Char) : Bool := '0' ≤ c && c ≤ '7'

/-- Whether `c` is a digit to base 2. -/
def isBinaryDigit (c : Char) : Bool := c = '0' || c = '1'

/-- The value of a digit to base 16 or less. -/
def digitValue (c : Char) : Nat :=
  if c.isDigit then c.toNat - '0'.toNat
  else if 'a' ≤ c then c.toNat - 'a'.toNat + 10
  else c.toNat - 'A'.toNat + 10

/-- The number whose digits to some base are given, most significant first. -/
def numberOf (base : Nat) (digits : List Char) : Nat :=
  digits.foldl (fun n c => n * base + digitValue c) 0

/-! ## Blanks and line ends -/

/-- Blanks within a line. -/
def white : Parser Unit := do
  let _ ← run isWhite

/-- The end of a line. -/
def newline : Parser Unit :=
  char '\n' <|> literal "\r\n"

/-- A comment, up to the end of the line. -/
def comment : Parser Unit := do
  char '#'
  let _ ← run isPlain

/-- What may follow the last token of a line, and the end of the line. -/
def lineEnd : Parser Unit := do
  white
  let _ ← optional comment
  newline <|> atEnd

/-- Blanks, comments and line ends, as they may stand between the items of an
array. -/
def filler : Parser Unit := do
  let _ ← many ((do let _ ← run1 isWhite) <|> newline <|> comment)

/-! ## Strings -/

/-- A character written by its number, which has so many digits to base 16. -/
def numberedChar (digits : Nat) : Parser Char := do
  let n := numberOf 16 (← exactly digits isHexDigit)
  if n.isValidChar then return Char.ofNat n else failure

/-- An escape sequence. -/
def escape : Parser Char := do
  char '\\'
  match ← one fun _ => true with
  | 'b' => return '\x08'
  | 't' => return '\t'
  | 'n' => return '\n'
  | 'f' => return '\x0c'
  | 'r' => return '\r'
  | '"' => return '"'
  | '\\' => return '\\'
  | 'u' => numberedChar 4
  | 'U' => numberedChar 8
  | _ => failure

/-- A string between double quotes. -/
def basicString : Parser String := do
  char '"'
  let content ← many (one isBasic <|> escape)
  char '"'
  return String.ofList content

/-- A string between single quotes, in which nothing is escaped. -/
def literalString : Parser String := do
  char '\''
  let content ← run isLiteral
  char '\''
  return String.ofList content

/-- A line end within a string. Whatever it is, the string gets a line feed. -/
def lineFeed : Parser (List Char) := do
  newline
  return ['\n']

/-- A line end that is escaped. It is dropped, together with all blanks and line
ends that follow. -/
def escapedLineEnd : Parser (List Char) := do
  char '\\'
  white
  newline
  let _ ← many ((do let _ ← one isWhite) <|> newline)
  return []

/-- One or two quotes within a string over several lines: a run of quotes that
is too short to end the string. -/
def innerQuotes (quote : Char) : Parser (List Char) := do
  let quotes ← run1 (· = quote)
  check (quotes.length < 3)
  return quotes

/-- The end of a string over several lines: three quotes. Up to two more may stand
before them, which belong to the string. -/
def closingQuotes (quote : Char) : Parser (List Char) := do
  let quotes ← run1 (· = quote)
  check (3 ≤ quotes.length && quotes.length ≤ 5)
  return quotes.drop 3

/-- A string over several lines: three quotes, a line end that does not count, the
content, and three quotes. -/
def multiline (quote : Char) (content : Parser (List Char)) : Parser String := do
  literal (String.ofList [quote, quote, quote])
  let _ ← optional newline
  let parts ← many (content <|> lineFeed <|> innerQuotes quote)
  let rest ← closingQuotes quote
  return String.ofList (parts.flatten ++ rest)

/-- A string over several lines between double quotes. -/
def basicMultiline : Parser String :=
  multiline '"' (run1 isBasic <|> escapedLineEnd <|> do return [← escape])

/-- A string over several lines between single quotes. -/
def literalMultiline : Parser String :=
  multiline '\'' (run1 isLiteral)

/-- A string in any notation. -/
def string : Parser String :=
  basicMultiline <|> basicString <|> literalMultiline <|> literalString

/-! ## Numbers -/

/-- A digit after which more may follow: the digit, or an underscore and a
digit. -/
def laterDigit (isDigit : Char → Bool) : Parser Char :=
  one isDigit <|> do
    char '_'
    one isDigit

/-- Digits, with single underscores between them. -/
def digits (isDigit : Char → Bool) : Parser (List Char) := do
  let first ← one isDigit
  return first :: (← many (laterDigit isDigit))

/-- The digits of a decimal number: no zero stands before other digits. -/
def decimalDigits : Parser (List Char) :=
  (do
    let first ← one fun c => c.isDigit && c ≠ '0'
    return first :: (← many (laterDigit Char.isDigit)))
  <|> do return [← one Char.isDigit]

/-- Whether a sign says that a number is negative. -/
def sign : Parser Bool := do
  return (← optional (one fun c => c = '+' || c = '-')) = some '-'

/-- The numbers that 64 bits can hold. -/
def fits (n : Int) : Bool := Int64.minValue.toInt ≤ n && n ≤ Int64.maxValue.toInt

/-- An integer with a marker of its base in front of it. -/
def markedInteger (marker : String) (base : Nat) (isDigit : Char → Bool) : Parser Int := do
  literal marker
  return numberOf base (← digits isDigit)

/-- A decimal integer. -/
def decimalInteger : Parser Int := do
  let negative ← sign
  let n := numberOf 10 (← decimalDigits)
  return if negative then -(n : Int) else n

/-- An integer of 64 bits. -/
def integer : Parser Int := do
  let n ← markedInteger "0x" 16 isHexDigit <|> markedInteger "0o" 8 isOctalDigit
    <|> markedInteger "0b" 2 isBinaryDigit <|> decimalInteger
  check (fits n)
  return n

/-- The digits after the point of a number. -/
def fraction : Parser (List Char) := do
  char '.'
  digits Char.isDigit

/-- The exponent of a number. -/
def exponent : Parser Int := do
  let _ ← one fun c => c = 'e' || c = 'E'
  let negative ← sign
  let n := numberOf 10 (← digits Char.isDigit)
  return if negative then -(n : Int) else n

/-- The least number that is rounded to infinity when it is stored in 64 bits. -/
def floatBound : Nat := 1 <<< 1024 - 1 <<< 970

/-- Whether `mantissa` times ten to the `power` is below the bound. The number of
digits decides unless it is close to that of the bound. -/
def isFinite (mantissa : Nat) (power : Int) : Bool :=
  let size := (Nat.toDigits 10 mantissa).length + power
  mantissa = 0 || size < 300
    || (size < 320 && mantissa * Nat.pow 10 power.toNat < floatBound * Nat.pow 10 (-power).toNat)

/-- A number with a point or an exponent. A positive one must be finite. -/
def decimalFloat : Parser Unit := do
  let negative ← sign
  let whole ← decimalDigits
  let (fractional, power) ←
    (do return ([], ← exponent))
    <|> do
      let fractional ← fraction
      return (fractional, (← optional exponent).getD 0)
  check (negative || isFinite (numberOf 10 (whole ++ fractional)) (power - fractional.length))

/-- Infinity, or what is not a number. -/
def specialFloat : Parser Unit := do
  let _ ← sign
  literal "inf" <|> literal "nan"

/-- A number that is no integer. -/
def float : Parser Unit :=
  decimalFloat <|> specialFloat

/-! ## Dates and times -/

/-- A number of so many digits, between two bounds. -/
def bounded (digits low high : Nat) : Parser Nat := do
  let n := numberOf 10 (← exactly digits Char.isDigit)
  check (low ≤ n && n ≤ high)
  return n

/-- Whether a year has a leap day. -/
def isLeapYear (year : Nat) : Bool :=
  year % 4 = 0 && (year % 100 ≠ 0 || year % 400 = 0)

/-- The number of days of a month. -/
def daysOf (year month : Nat) : Nat :=
  if month = 2 then
    if isLeapYear year then 29 else 28
  else if [4, 6, 9, 11].contains month then
    30
  else
    31

/-- A date. -/
def date : Parser Unit := do
  let year ← bounded 4 0 9999
  char '-'
  let month ← bounded 2 1 12
  char '-'
  let _ ← bounded 2 1 (daysOf year month)

/-- A time of day. -/
def time : Parser Unit := do
  let _ ← bounded 2 0 23
  char ':'
  let _ ← bounded 2 0 59
  char ':'
  let _ ← bounded 2 0 60
  let _ ← optional (do
    char '.'
    let _ ← run1 Char.isDigit)

/-- How far a time is off from universal time. -/
def offset : Parser Unit :=
  (do let _ ← one fun c => c = 'Z' || c = 'z')
  <|> do
    let _ ← one fun c => c = '+' || c = '-'
    let _ ← bounded 2 0 23
    char ':'
    let _ ← bounded 2 0 59

/-- A date, a time, or a date with a time. -/
def moment : Parser Unit :=
  (do
    date
    let _ ← optional (do
      let _ ← one fun c => c = 'T' || c = 't' || c = ' '
      time
      optional offset))
  <|> time

end ClassLoom.Toml
