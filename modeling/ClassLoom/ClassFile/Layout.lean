import ClassLoom.ClassFile.Basic
import ClassLoom.ClassFile.Descriptor
import ClassLoom.ClassFile.Error

/-!
# The layout of class files

`Class.pieces` lists what a class file holds, in order: a magic number, the
version, access flags and names, and four tables whose items may have tables of
attributes of their own. A class is encoded by writing that list, and the first
item that exceeds its limit is the error.

Before it writes, the encoder may raise the local slot hints of the methods so
that they cover the arguments. That is an edit of the structural form,
`Class.raiseLocals`, done first: the layout itself writes what it is given.
-/

namespace ClassLoom

open Wire (Piece)

/-- How a class is to be encoded. -/
structure WriterOptions where
  /-- Whether the local slot hints of methods are raised to cover the arguments. -/
  computeMaxs : Bool := true
  deriving DecidableEq, Repr

/-- The number that a class file starts with. -/
def magic : UInt32 := 0xCAFEBABE

/-! ## Local slot hints -/

namespace Method

/-- The number of local slots that hold the receiver. -/
def receiverSlots (m : Method) : Nat :=
  if m.isStatic then 0 else 1

/-- The number of local slots that hold the receiver and the arguments; none if
the descriptor is malformed or the number has more than 16 bits. -/
def argumentLocals? (m : Method) : Option UInt16 := do
  let slots ← Descriptor.argumentSlots? m.descriptor
  let needed := slots + m.receiverSlots
  if needed < UInt16.size then some needed.toUInt16 else none

/-- Raises the hint to the slots of the receiver and the arguments, if these are
known. -/
def raiseLocals (m : Method) : Method :=
  match m.argumentLocals? with
  | some needed => { m with maxLocals := max m.maxLocals needed }
  | none => m

end Method

/-- Raises the hints of all methods. -/
def Class.raiseLocals (c : Class) : Class :=
  { c with methods := c.methods.map Method.raiseLocals }

/-- The class as it is about to be written under these options. -/
def WriterOptions.prepare (options : WriterOptions) (c : Class) : Class :=
  if options.computeMaxs then c.raiseLocals else c

/-! ## Pieces -/

/-- A table: the number of its items, then the items. -/
def tablePieces {α : Type} (item : α → List Piece) (items : List α) : List Piece :=
  .count items.length :: items.flatMap item

/-- An attribute is its name and its payload. -/
def Attribute.pieces (a : Attribute) : List Piece :=
  [.str a.name, .blob a.data]

/-- A field is its flags, name, descriptor and attributes. -/
def Field.pieces (f : Field) : List Piece :=
  [.u16 f.access, .str f.name, .str f.descriptor] ++ tablePieces Attribute.pieces f.attributes

/-- A method is its flags, name, descriptor, two hints, body and attributes. -/
def Method.pieces (m : Method) : List Piece :=
  [.u16 m.access, .str m.name, .str m.descriptor, .u16 m.maxStack, .u16 m.maxLocals,
    .blob m.code] ++ tablePieces Attribute.pieces m.attributes

/-- A superclass is a flag, and its name if there is one. -/
def superPieces : Option String → List Piece
  | some name => [.u8 1, .str name]
  | none => [.u8 0]

namespace Class

/-- What the class file of `c` holds. -/
def pieces (c : Class) : List Piece :=
  [.u32 magic, .u16 c.minorVersion, .u16 c.majorVersion, .u16 c.access, .str c.name]
    ++ superPieces c.superName
    ++ tablePieces (fun name => [.str name]) c.interfaces
    ++ tablePieces Field.pieces c.fields
    ++ tablePieces Method.pieces c.methods
    ++ tablePieces Attribute.pieces c.attributes

/-- The class file of `c`. -/
def encode (options : WriterOptions) (c : Class) : Except ClassFileError Bytes :=
  (Piece.encode (options.prepare c).pieces).mapError .encode

end Class

end ClassLoom
