import ClassLoom.Service.Basic
import ClassLoom.Text.Quoted

/-!
# Descriptions for diagnosis

Transformers, chains and services in text form. What is inside a transformer
cannot be shown, so a transformer is its name and whether it opts out of
delegation; of a chain's exclusions only the presence is shown.
-/

namespace ClassLoom

open Text

variable {σ : Type}

/-- A list of texts, each between quotes. -/
def describeTexts (texts : List String) : String :=
  shownList (texts.map quoted)

/-- A transformer in text form. -/
def Transformer.describe (t : Transformer σ) : String :=
  shownRecord "Transformer"
    [("name", quoted t.name), ("delegation_excluded", shownFlag t.isDelegationExcluded)]

/-- A list of transformers in text form. -/
def describeTransformers (ts : List (Transformer σ)) : String :=
  shownList (ts.map Transformer.describe)

/-- A chain in text form. -/
def Chain.describe (chain : Chain σ) : String :=
  shownRecord "TransformChain"
    [("transformers", describeTransformers chain.transformers),
      ("exclusions", shownFlag chain.exclusions.isSome)]

/-- A configuration in text form. -/
def Config.describe (c : Config) : String :=
  shownRecord "PipelineConfig"
    [("reentrance_depth", toString c.reentranceDepth),
      ("compute_maxs", shownFlag c.computeMaxs),
      ("load_exclusions", describeTexts c.loadExclusions),
      ("transform_exclusions", describeTexts c.transformExclusions)]

/-- Something that is kept under a lock. -/
def describeLocked (value : String) : String :=
  shownRecord "RwLock" [("data", value)]

/-- A set of classes in text form. -/
def describeClasses (names : List ClassName) : String :=
  shownSet (names.map fun name => shownWrapped "ClassName" (quoted name.dotted))

/-- The exclusions in text form. -/
def Exclusions.describe (e : Exclusions) : String :=
  shownRecord "ExclusionRegistry"
    [("load", describeLocked (describeTexts e.load)),
      ("transform", describeLocked (describeTexts e.transform)),
      ("transform_generation", toString e.generation),
      ("loaded", describeLocked (describeClasses e.loaded)),
      ("invalid", describeLocked (describeClasses e.invalid))]

/-- A service in text form. -/
def Service.describe (s : Service σ) : String :=
  shownRecord "TransformerService"
    [("config", s.config.describe),
      ("transformers", describeTransformers s.registry),
      ("exclusions", s.exclusions.describe)]

end ClassLoom
