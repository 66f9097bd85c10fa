import ClassLoom.ClassFile.Basic
import ClassLoom.ClassFile.Descriptor
import ClassLoom.ClassFile.Error

/-!
# Structural rules

What a class has to obey before it is encoded: well-formed names and
descriptors, no two members with the same name and descriptor, and bodies only
where the access flags allow one. `Class.verify` reports the first violation, in
the order in which the class lists its parts.
-/

namespace ClassLoom

/-! ## Names -/

/-- Whether `c` may stand in the name of a member. The others have a meaning in
descriptors or in class names. -/
def isNameChar (c : Char) : Bool :=
  c ∉ ['.', ';', '[', '/', '<', '>']

/-- Whether `text` may name a field or a method, or be one segment of a class
name. -/
def isMemberName (text : List Char) : Bool :=
  !text.isEmpty && text.all isNameChar

/-- Whether `name` is a class name in internal spelling: segments separated by
slashes, each of which could name a member. -/
def isInternalName (name : String) : Bool :=
  (name.toList.splitOn '/').all isMemberName

/-- Whether `name` is one of the two method names with a meaning of their own. -/
def isInitializerName (name : String) : Bool :=
  name == "<init>" || name == "<clinit>"

/-! ## Parts -/

/-- Refuses a class name that is malformed. -/
def verifyClassName (name : String) : Except VerifyError Unit :=
  if isInternalName name then .ok () else .error (.invalidName name)

/-- Refuses the first of several class names that is malformed. -/
def verifyClassNames : List String → Except VerifyError Unit
  | [] => .ok ()
  | name :: names => do
    verifyClassName name
    verifyClassNames names

/-- Refuses a field with a malformed name or descriptor. -/
def Field.verify (f : Field) : Except VerifyError Unit :=
  if !isMemberName f.name.toList then
    .error (.invalidName f.name)
  else if !Descriptor.isField f.descriptor then
    .error (.invalidFieldDescriptor f.name f.descriptor)
  else
    .ok ()

/-- Whether the method has no body of its own. -/
def Method.isBodiless (m : Method) : Bool :=
  Access.has m.access (Access.isAbstract ||| Access.isNative)

/-- Refuses a method with a malformed name or descriptor, or with a body that its
flags do not allow. -/
def Method.verify (m : Method) : Except VerifyError Unit :=
  if !isInitializerName m.name && !isMemberName m.name.toList then
    .error (.invalidName m.name)
  else if !Descriptor.isMethod m.descriptor then
    .error (.invalidMethodDescriptor m.name m.descriptor)
  else if m.isBodiless && !m.code.isEmpty then
    .error (.unexpectedCode m.name m.descriptor)
  else
    .ok ()

/-! ## Members -/

/-- Refuses the first member that breaks a rule of its own or has the name and
descriptor of an earlier one. `seen` holds what earlier members were called. -/
def verifyMembers {α : Type} (check : α → Except VerifyError Unit) (identity : α → String × String)
    (duplicate : String → String → VerifyError) :
    List (String × String) → List α → Except VerifyError Unit
  | _, [] => .ok ()
  | seen, member :: members => do
    check member
    let called := identity member
    if seen.contains called then
      throw (duplicate called.1 called.2)
    verifyMembers check identity duplicate (called :: seen) members

/-- Refuses a class that breaks a structural rule. -/
def Class.verify (c : Class) : Except VerifyError Unit := do
  verifyClassNames (c.name :: c.superName.toList ++ c.interfaces)
  verifyMembers Field.verify (fun f => (f.name, f.descriptor)) .duplicateField [] c.fields
  verifyMembers Method.verify (fun m => (m.name, m.descriptor)) .duplicateMethod [] c.methods

end ClassLoom
