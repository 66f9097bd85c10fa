import ClassLoom.ClassFile.Layout

/-!
# Reading class files

The inverse of the layout. A reading action per part of the class follows the
order in which `Class.pieces` lists them; the header is checked as soon as it is
read, so a wrong magic number or a version that is too new wins over any fault
behind it. A class file ends where its last attribute ends.
-/

namespace ClassLoom

open Wire (Reader Read)

/-- A reading action that may also find the header wrong. -/
abbrev ReadClass (α : Type) := EStateM ClassFileError Reader α

instance : MonadLift Read ReadClass where
  monadLift action := action.adaptExcept .malformed

/-- Reads an attribute. -/
def Attribute.read : Read Attribute := do
  let name ← Wire.readStr
  let data ← Wire.readBlob
  return { name, data }

/-- Reads a field. -/
def Field.read : Read Field := do
  let access ← Wire.readU16
  let name ← Wire.readStr
  let descriptor ← Wire.readStr
  let attributes ← Wire.readTable Attribute.read
  return { access, name, descriptor, attributes }

/-- Reads a method. -/
def Method.read : Read Method := do
  let access ← Wire.readU16
  let name ← Wire.readStr
  let descriptor ← Wire.readStr
  let maxStack ← Wire.readU16
  let maxLocals ← Wire.readU16
  let code ← Wire.readBlob
  let attributes ← Wire.readTable Attribute.read
  return { access, name, descriptor, maxStack, maxLocals, code, attributes }

/-- Reads a superclass: its flag, and its name unless the flag is zero. -/
def readSuper : Read (Option String) := do
  let flag ← Wire.readU8
  if flag = 0 then
    return none
  else
    return some (← Wire.readStr)

namespace Class

/-- Reads the header and gives the minor and the major version. -/
def readHeader : ReadClass (UInt16 × UInt16) := do
  let found ← Wire.readU32
  if found ≠ magic then
    throw (.invalidMagic found)
  let minor ← Wire.readU16
  let major ← Wire.readU16
  if major > maxMajorVersion then
    throw (.unsupportedVersion major minor)
  return (minor, major)

/-- Reads what follows the header. -/
def readBody (minorVersion majorVersion : UInt16) : Read Class := do
  let access ← Wire.readU16
  let name ← Wire.readStr
  let superName ← readSuper
  let interfaces ← Wire.readTable Wire.readStr
  let fields ← Wire.readTable Field.read
  let methods ← Wire.readTable Method.read
  let attributes ← Wire.readTable Attribute.read
  return {
    minorVersion, majorVersion, access, name, superName, interfaces, fields, methods, attributes }

/-- Reads a class file to the end of the data. -/
def read : ReadClass Class := do
  let (minor, major) ← readHeader
  let c ← readBody minor major
  Wire.finish
  return c

/-- The class whose class file is `data`. -/
def decode (data : Bytes) : Except ClassFileError Class :=
  match read (Reader.start data) with
  | .ok c _ => .ok c
  | .error e _ => .error e

end Class

end ClassLoom
