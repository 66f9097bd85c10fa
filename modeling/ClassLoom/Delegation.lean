import ClassLoom.Transformer

/-!
# Delegated transformers

The transformers that may run on delegated class data are the registered ones
that neither opt out nor are excluded by name, in the order of registration. The
list is built when it is first asked for and then cached. A cached list is
current as long as no transform prefix has been registered since: the cache
remembers the generation of the exclusions that it was built from. Registering a
transformer does not make it stale; crossing a phase boundary discards it.
-/

namespace ClassLoom

variable {σ : Type}

/-- Whether a transformer may run on delegated class data. -/
def Exclusions.admits (e : Exclusions) (t : Transformer σ) : Bool :=
  !(e.isTransformExcluded t.name none || t.isDelegationExcluded)

/-- The transformers of a registry that may run on delegated class data. -/
def delegatedOf (registry : List (Transformer σ)) (e : Exclusions) : List (Transformer σ) :=
  registry.filter e.admits

/-- A list of delegated transformers and the generation that it was built from. -/
structure Snapshot (σ : Type) where
  generation : Nat
  transformers : List (Transformer σ)

/-- A cache for the list of delegated transformers. -/
structure Delegation (σ : Type) where
  /-- The latest list, unless it was discarded. -/
  cached : Option (Snapshot σ)
  /-- How often a list has been built. -/
  builds : Nat

namespace Delegation

/-- The cache that holds nothing. -/
def unbuilt : Delegation σ := ⟨none, 0⟩

/-- The cached list if it is current. -/
def current? (d : Delegation σ) (e : Exclusions) : Option (List (Transformer σ)) :=
  match d.cached with
  | some snapshot => if snapshot.generation = e.generation then some snapshot.transformers else none
  | none => none

/-- The delegated transformers, built anew if no current list is cached. -/
def get (d : Delegation σ) (registry : List (Transformer σ)) (e : Exclusions) :
    List (Transformer σ) × Delegation σ :=
  match d.current? e with
  | some ts => (ts, d)
  | none =>
    let ts := delegatedOf registry e
    (ts, ⟨some ⟨e.generation, ts⟩, d.builds + 1⟩)

/-- Discards the cached list. -/
def invalidate (d : Delegation σ) : Delegation σ :=
  { d with cached := none }

/-- Whether a current list is cached. -/
def state (d : Delegation σ) (e : Exclusions) : DelegationState :=
  match d.current? e with
  | some _ => .built
  | none => .unbuilt

end Delegation

end ClassLoom
