import ClassLoom.Wire.Piece

/-!
# Reading binary data

A `Reader` walks over a buffer from its start. Each reading action takes what it
needs from the front, or fails with the position at which data was missing or
was no text. Failure does not undo what was read before it: a text or blob whose
prefix was complete but whose payload was not has consumed the prefix, and a
text whose payload is not UTF-8 has consumed the payload as well. So actions
leave a reader behind in both cases, and reading may go on after a failure.
-/

namespace ClassLoom.Wire

/-- Why data could not be read. -/
inductive DecodeError where
  /-- The data ended; what was missing starts at `offset`. -/
  | unexpectedEnd (offset : Nat)
  /-- The bytes from `offset` on were to be a text and are not UTF-8. -/
  | invalidUtf8 (offset : Nat)
  /-- `count` bytes follow the end of the record. -/
  | trailingBytes (count : Nat)
  deriving DecidableEq, Repr

/-- The text of the error. -/
def DecodeError.message : DecodeError → String
  | .unexpectedEnd offset => s!"Unexpected end of class data at offset {offset}"
  | .invalidUtf8 offset => s!"Invalid UTF-8 string at offset {offset}"
  | .trailingBytes count => s!"{count} trailing bytes after end of class"

/-- A place in a buffer. -/
structure Reader where
  /-- The number of bytes before this place. -/
  position : Nat
  /-- The bytes from this place on. -/
  rest : Bytes
  deriving DecidableEq

namespace Reader

/-- The start of `data`. -/
def start (data : Bytes) : Reader := ⟨0, data⟩

/-- The number of bytes from here on. -/
def remaining (r : Reader) : Nat := r.rest.length

/-- Whether any byte is left. -/
def hasMore (r : Reader) : Bool := !r.rest.isEmpty

end Reader

/-- A reading action. It leaves a reader behind whether it succeeds or fails. -/
abbrev Read (α : Type) := EStateM DecodeError Reader α

/-- The next `count` bytes. -/
def take (count : Nat) : Read Bytes := fun r =>
  let front := r.rest.take count
  if front.length = count then
    .ok front ⟨r.position + count, r.rest.drop count⟩
  else
    .error (.unexpectedEnd r.position) r

/-- The next byte. -/
def readU8 : Read UInt8 := do
  return (ofDigits (← take 1)).toUInt8

/-- The 16-bit number in the next two bytes. -/
def readU16 : Read UInt16 := do
  return (ofDigits (← take 2)).toUInt16

/-- The 32-bit number in the next four bytes. -/
def readU32 : Read UInt32 := do
  return (ofDigits (← take 4)).toUInt32

/-- The position of the reader. -/
def here : Read Nat := fun r => .ok r.position r

/-- A text with its byte length in front of it. -/
def readStr : Read String := do
  let length ← readU16
  let start ← here
  let payload ← take length.toNat
  match ofUtf8? payload with
  | some text => return text
  | none => throw (.invalidUtf8 start)

/-- Raw data with its length in front of it. -/
def readBlob : Read Bytes := do
  let length ← readU32
  take length.toNat

/-- A table: the number of its items, then the items. -/
def readTable {α : Type} (item : Read α) : Read (List α) := do
  let count ← readU16
  (List.replicate count.toNat item).mapM id

/-- Succeeds at the end of the data only. -/
def finish : Read Unit := fun r =>
  match r.remaining with
  | 0 => .ok () r
  | n => .error (.trailingBytes n) r

end ClassLoom.Wire
