import ClassLoom.Wire.Number

/-!
# Writing binary data

A record is written as a sequence of pieces: numbers of one, two or four bytes,
the most significant first, and texts, blobs and counts, whose length is
written in front of them. `Piece.bytes` says what each piece looks like. A piece
whose length does not fit the width of its prefix has no written form, and
`EncodeError` names the length and the width.

A `Writer` collects pieces one by one. A piece that fails leaves the writer as
it was, so what it holds is always the concatenation of the written forms of the
pieces that succeeded. `Piece.encode` is the other way of writing: a whole
sequence, or the first failure in it.
-/

namespace ClassLoom

/-- The bytes of a text in UTF-8. -/
def utf8 (text : String) : Bytes :=
  text.toByteArray.data.toList

/-- The text whose UTF-8 form is `data`; none if there is no such text. -/
def ofUtf8? (data : Bytes) : Option String :=
  String.fromUTF8? ⟨data.toArray⟩

namespace Wire

/-- Why a piece has no written form. -/
inductive EncodeError where
  /-- `length` does not fit in a prefix of `width` bits. -/
  | lengthOverflow (length : Nat) (width : Nat)
  deriving DecidableEq, Repr

/-- The text of the error. -/
def EncodeError.message : EncodeError → String
  | .lengthOverflow length width => s!"Length {length} exceeds the {width}-bit limit"

/-- One item of a record. -/
inductive Piece where
  /-- A number of one byte. -/
  | u8 (v : UInt8)
  /-- A number of two bytes. -/
  | u16 (v : UInt16)
  /-- A number of four bytes. -/
  | u32 (v : UInt32)
  /-- A text: its byte length in two bytes, then its UTF-8 form. -/
  | str (v : String)
  /-- Raw data: its length in four bytes, then the data. -/
  | blob (v : Bytes)
  /-- The number of items of a table that follows, in two bytes. -/
  | count (n : Nat)
  deriving DecidableEq

/-- A length in two bytes, if it fits. -/
def length16 (n : Nat) : Except EncodeError Bytes :=
  if n < UInt16.size then .ok (digits 2 n) else .error (.lengthOverflow n 16)

/-- A length in four bytes, if it fits. -/
def length32 (n : Nat) : Except EncodeError Bytes :=
  if n < UInt32.size then .ok (digits 4 n) else .error (.lengthOverflow n 32)

/-- The written form of a piece. -/
def Piece.bytes : Piece → Except EncodeError Bytes
  | .u8 v => .ok [v]
  | .u16 v => .ok (digits 2 v.toNat)
  | .u32 v => .ok (digits 4 v.toNat)
  | .str v => (length16 (utf8 v).length).map (· ++ utf8 v)
  | .blob v => (length32 v.length).map (· ++ v)
  | .count n => length16 n

/-- The written form of a sequence of pieces, or the error of the first piece
that has none. -/
def Piece.encode (pieces : List Piece) : Except EncodeError Bytes :=
  (pieces.mapM Piece.bytes).map List.flatten

/-- A buffer that pieces are added to. -/
structure Writer where
  /-- The written forms of the pieces that succeeded, the latest first. -/
  chunks : List Bytes
  /-- The number of bytes written so far. -/
  offset : Nat

namespace Writer

/-- The writer that holds nothing. -/
def empty : Writer := ⟨[], 0⟩

/-- What has been written. -/
def bytes (w : Writer) : Bytes :=
  w.chunks.reverse.flatten

/-- Adds one piece. If it has no written form the writer stays as it is. -/
def emit (w : Writer) (p : Piece) : Except EncodeError Bytes × Writer :=
  match p.bytes with
  | .ok added => (.ok added, ⟨added :: w.chunks, w.offset + added.length⟩)
  | .error e => (.error e, w)

/-- Adds pieces one after the other, whatever becomes of each of them, and
reports for each what it added and the offset after it. -/
def emitAll (w : Writer) : List Piece → List (Except EncodeError Bytes × Nat) × Writer
  | [] => ([], w)
  | p :: ps =>
    let (added, w) := w.emit p
    let (steps, last) := w.emitAll ps
    ((added, w.offset) :: steps, last)

end Writer

end Wire

end ClassLoom
