import ClassLoom.ClassFile.Basic
import ClassLoom.Wire.Reader

/-!
# What can be wrong with a class

Three layers of causes: a class may break a structural rule (`VerifyError`), its
binary form may be unreadable or not writable (`Wire.DecodeError`,
`Wire.EncodeError`), and `ClassFileError` joins them with the two faults of a
class file's header.
-/

namespace ClassLoom

/-- The first structural rule that a class breaks. -/
inductive VerifyError where
  /-- A class, member or interface name that is empty or malformed. -/
  | invalidName (name : String)
  /-- A field whose descriptor is not one field type. -/
  | invalidFieldDescriptor (field descriptor : String)
  /-- A method whose descriptor is malformed. -/
  | invalidMethodDescriptor (method descriptor : String)
  /-- A second field with the same name and descriptor. -/
  | duplicateField (name descriptor : String)
  /-- A second method with the same name and descriptor. -/
  | duplicateMethod (name descriptor : String)
  /-- An abstract or native method with a body. -/
  | unexpectedCode (name descriptor : String)
  deriving DecidableEq, Repr

/-- The text of the error. -/
def VerifyError.message : VerifyError → String
  | .invalidName name => s!"Invalid name '{name}'"
  | .invalidFieldDescriptor field descriptor =>
    s!"Invalid field descriptor '{descriptor}' on field '{field}'"
  | .invalidMethodDescriptor method descriptor =>
    s!"Invalid method descriptor '{descriptor}' on method '{method}'"
  | .duplicateField name descriptor => s!"Duplicate field {name}:{descriptor}"
  | .duplicateMethod name descriptor => s!"Duplicate method {name}{descriptor}"
  | .unexpectedCode name descriptor =>
    s!"Method {name}{descriptor} is abstract or native but has code"

/-- Why a class file could not be read or written. -/
inductive ClassFileError where
  /-- The data does not follow the layout. -/
  | malformed (cause : Wire.DecodeError)
  /-- Some part of the class exceeds the layout's limits. -/
  | encode (cause : Wire.EncodeError)
  /-- The class breaks a structural rule. -/
  | invalid (cause : VerifyError)
  /-- The data does not start as a class file does. -/
  | invalidMagic (found : UInt32)
  /-- The class file is of a version that is not understood. -/
  | unsupportedVersion (major minor : UInt16)
  deriving DecidableEq, Repr

/-- The digits of `n` to base 16, at least `width` of them. -/
def hexDigits (width n : Nat) : String :=
  let digits := Nat.toDigits 16 n
  String.ofList (List.replicate (width - digits.length) '0' ++ digits)

/-- The text of the error. -/
def ClassFileError.message : ClassFileError → String
  | .malformed cause => "Malformed class data: " ++ cause.message
  | .encode cause => "Cannot encode class: " ++ cause.message
  | .invalid cause => "Invalid class structure: " ++ cause.message
  | .invalidMagic found =>
    "Invalid magic number: expected 0xCAFEBABE, got 0x" ++ hexDigits 8 found.toNat
  | .unsupportedVersion major minor =>
    s!"Unsupported class file version {major}.{minor} (newest supported: {Class.maxMajorVersion})"

end ClassLoom
