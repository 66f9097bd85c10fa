import ClassLoom.Error
import ClassLoom.Text.Blank

/-!
# Configuration

What a pipeline can be told up front: how deep passes may nest, whether local
slot hints are raised when classes are encoded, and two lists of exclusion
prefixes. A configuration may hold any values; `Config.validate` refuses those
that make no sense.
-/

namespace ClassLoom

/-- The configuration of a pipeline. -/
structure Config where
  /-- How deep passes may nest before a transformer counts as re-entrant. -/
  reentranceDepth : Nat
  /-- Whether local slot hints are raised when classes are encoded. -/
  computeMaxs : Bool
  /-- The classes that the loader must not intercept. -/
  loadExclusions : List String
  /-- The classes and transformers that are exempt from transformation. -/
  transformExclusions : List String
  deriving DecidableEq, Repr

/-- Why a configuration is refused. -/
inductive ConfigError where
  /-- Its file could not be read. -/
  | io (cause : IoFault)
  /-- Its text is malformed, or a setting has a value of the wrong kind. -/
  | parse
  /-- The nesting depth is zero. -/
  | zeroDepth
  /-- An exclusion prefix is blank. -/
  | blankPrefix
  deriving DecidableEq, Repr

/-- The text of the error; none for malformed text. -/
def ConfigError.message? : ConfigError → Option String
  | .io cause => some ("Failed to read config: " ++ cause.message)
  | .parse => none
  | .zeroDepth => some "Invalid config: reentrance_depth must be at least 1"
  | .blankPrefix => some "Invalid config: Exclusion prefixes cannot be empty"

namespace Config

/-- The packages of the transformation machinery itself. Loading them through
the transforming loader would let transformers edit the code that runs them. -/
def bootstrapExclusions : List String :=
  ["org.spongepowered.asm.service.", "org.spongepowered.asm.launch.",
    "org.spongepowered.asm.logging.", "org.objectweb.asm.", "org.spongepowered.asm.lib.",
    "org.spongepowered.asm.mixin.", "org.spongepowered.asm.util."]

/-- The configuration of a pipeline that is told nothing. -/
def default : Config where
  reentranceDepth := 1
  computeMaxs := true
  loadExclusions := bootstrapExclusions
  transformExclusions := []

/-- Refuses a depth of zero, and then blank prefixes. -/
def validate (c : Config) : Except ConfigError Unit :=
  if c.reentranceDepth = 0 then
    .error .zeroDepth
  else if (c.loadExclusions ++ c.transformExclusions).any Text.isBlankText then
    .error .blankPrefix
  else
    .ok ()

end Config

end ClassLoom
