import ClassLoom.Config
import ClassLoom.Toml.Document

/-!
# Reading configurations

A configuration is written as a TOML document with one key per setting. A setting
that is missing has its usual value, and keys that are no settings are ignored. A
value of the wrong kind makes the whole text malformed; only a configuration that
was read in full is validated.
-/

namespace ClassLoom

open Toml (Table Value)

/-- The natural number that a value is. -/
def Toml.Value.nat? : Value → Option Nat
  | .integer n => n.toNat?
  | _ => none

/-- The truth value that a value is. -/
def Toml.Value.flag? : Value → Option Bool
  | .boolean b => some b
  | _ => none

/-- The text that a value is. -/
def Toml.Value.text? : Value → Option String
  | .text t => some t
  | _ => none

/-- The texts that a value is an array of. -/
def Toml.Value.texts? : Value → Option (List String)
  | .array items => items.mapM Value.text?
  | _ => none

/-- The setting under a key, or its usual value if the key is missing. None if
the value is of the wrong kind. -/
def Toml.Table.setting {α : Type} (t : Table) (key : String) (read : Value → Option α)
    (usual : α) : Option α :=
  match t.get? key with
  | some value => read value
  | none => some usual

namespace Config

/-- The configuration that a document writes out, valid or not. -/
def ofTable? (t : Table) : Option Config := do
  let reentranceDepth ← t.setting "reentrance_depth" Value.nat? default.reentranceDepth
  let computeMaxs ← t.setting "compute_maxs" Value.flag? default.computeMaxs
  let loadExclusions ← t.setting "load_exclusions" Value.texts? default.loadExclusions
  let transformExclusions ←
    t.setting "transform_exclusions" Value.texts? default.transformExclusions
  return { reentranceDepth, computeMaxs, loadExclusions, transformExclusions }

/-- The configuration that a text writes out. -/
def ofText (text : String) : Except ConfigError Config :=
  match (Table.ofText? text).bind ofTable? with
  | none => .error .parse
  | some c => c.validate.map fun _ => c

/-- The configuration that the contents of a file write out, if there was anything
to read. -/
def ofFile : Except IoFault Bytes → Except ConfigError Config
  | .error fault => .error (.io fault)
  | .ok contents =>
    match ofUtf8? contents with
    | some text => ofText text
    | none => .error (.io .notText)

end Config

end ClassLoom
