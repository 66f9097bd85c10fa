import ClassLoom.ClassName
import ClassLoom.Wire.Piece

/-!
# The structural form of a class

What transformers edit: a class with its fields, its methods and the attributes
of each of them. Method bodies and attribute payloads stay opaque data. Nothing
here is checked; a `Class` may hold any texts and numbers, and it is the business
of `Class.verify` and `Class.encode` to refuse some of them.
-/

namespace ClassLoom

/-! ## Access flags -/

namespace Access

/-- Visible everywhere. -/
def isPublic : UInt16 := 0x0001
/-- Visible in the class itself. -/
def isPrivate : UInt16 := 0x0002
/-- Belongs to the class and not to its instances. -/
def isStatic : UInt16 := 0x0008
/-- Set on every class by current compilers. -/
def isSuper : UInt16 := 0x0020
/-- The body is provided from outside. -/
def isNative : UInt16 := 0x0100
/-- There is no body. -/
def isAbstract : UInt16 := 0x0400

/-- Whether `flags` has any of the bits of `mask`. -/
def has (flags mask : UInt16) : Bool :=
  flags &&& mask != 0

end Access

/-! ## Members -/

/-- A named payload that the library does not look into. -/
structure Attribute where
  name : String
  data : Bytes
  deriving DecidableEq

/-- A field of a class. -/
structure Field where
  access : UInt16
  name : String
  /-- The type of the field, in descriptor notation. -/
  descriptor : String
  attributes : List Attribute
  deriving DecidableEq

/-- A method of a class. -/
structure Method where
  access : UInt16
  name : String
  /-- The types of the arguments and of the result, in descriptor notation. -/
  descriptor : String
  maxStack : UInt16
  /-- The number of local slots that the body needs, arguments included. -/
  maxLocals : UInt16
  /-- The body. -/
  code : Bytes
  attributes : List Attribute
  deriving DecidableEq

/-- Whether the method belongs to the class and has no receiver. -/
def Method.isStatic (m : Method) : Bool :=
  Access.has m.access Access.isStatic

/-- Whether the method has this name and descriptor, which together identify it. -/
def Method.isNamed (m : Method) (name descriptor : String) : Bool :=
  m.name == name && m.descriptor == descriptor

/-! ## Classes -/

/-- A class in its structural form. -/
structure Class where
  minorVersion : UInt16
  majorVersion : UInt16
  access : UInt16
  /-- The internal name, as the class file holds it. -/
  name : String
  /-- The internal name of the superclass; none for the root of the hierarchy. -/
  superName : Option String
  interfaces : List String
  fields : List Field
  methods : List Method
  attributes : List Attribute
  deriving DecidableEq

namespace Class

/-- The major version of a class that does not ask for another one. -/
def defaultMajorVersion : UInt16 := 52

/-- The newest major version that is understood. -/
def maxMajorVersion : UInt16 := 65

/-- The superclass of a class that does not ask for another one. -/
def rootName : String := "java/lang/Object"

/-- A public class without members. -/
def new (name : String) : Class where
  minorVersion := 0
  majorVersion := defaultMajorVersion
  access := Access.isPublic ||| Access.isSuper
  name := (ClassName.of name).internal
  superName := some rootName
  interfaces := []
  fields := []
  methods := []
  attributes := []

/-- The name of the class, normalized. -/
def className (c : Class) : ClassName := ClassName.of c.name

/-- The first method with this name and descriptor. -/
def method? (c : Class) (name descriptor : String) : Option Method :=
  c.methods.find? (·.isNamed name descriptor)

/-- The first field with this name. -/
def field? (c : Class) (name : String) : Option Field :=
  c.fields.find? (·.name == name)

/-- The first attribute with this name. -/
def attribute? (c : Class) (name : String) : Option Attribute :=
  c.attributes.find? (·.name == name)

/-- Edits the first method of the list that `p` accepts. -/
def modifyFirst (p : Method → Bool) (edit : Method → Method) : List Method → List Method
  | [] => []
  | m :: ms => if p m then edit m :: ms else m :: modifyFirst p edit ms

/-- Edits the first method with this name and descriptor. -/
def modifyMethod (c : Class) (name descriptor : String) (edit : Method → Method) : Class :=
  { c with methods := modifyFirst (·.isNamed name descriptor) edit c.methods }

end Class

end ClassLoom
