/-!
# Re-entrance guard

A pass through the transformers pushes the guard when it starts and leaves it
when it ends, so the depth is the number of passes under way. A push beyond the
capacity raises a flag. The flag is sticky: leaving does not lower it, only
`clear` does. Whoever runs a transformer clears the flag before and looks at it
afterwards, and so learns whether the transformer caused a pass that was one too
deep.

`Scopes` tells the pushes apart: each push is a scope of its own that can be left
once, in any order.
-/

namespace ClassLoom

/-- A bounded depth counter with a sticky flag. -/
structure Guard where
  /-- The number of passes that may be under way at once. -/
  maxDepth : Nat
  /-- The number of passes under way. -/
  depth : Nat
  /-- Whether some pass went beyond the capacity since the last `clear`. -/
  raised : Bool
  deriving DecidableEq, Repr

namespace Guard

/-- A guard that tolerates `maxDepth` nested passes. -/
def new (maxDepth : Nat) : Guard := ⟨maxDepth, 0, false⟩

/-- The capacity of a guard that does not ask for another one. -/
def defaultDepth : Nat := 1

/-- Whether more passes are under way than the capacity allows. -/
def isOver (g : Guard) : Bool :=
  g.depth > g.maxDepth

/-- Starts a pass. -/
def push (g : Guard) : Guard :=
  { g with depth := g.depth + 1, raised := g.raised || g.depth + 1 > g.maxDepth }

/-- Ends a pass. -/
def leave (g : Guard) : Guard :=
  { g with depth := g.depth - 1 }

/-- Lowers the flag. -/
def clear (g : Guard) : Guard :=
  { g with raised := false }

end Guard

/-- A guard and the scopes that were pushed on it. -/
structure Scopes where
  guard : Guard
  /-- For each push, in order, whether it has not been left yet. -/
  live : List Bool

/-- What can be done to a guard through its scopes. -/
inductive ScopeStep where
  /-- Starts a pass; its scope gets the next number. -/
  | push
  /-- Ends the pass of a scope, unless it has ended. -/
  | drop (scope : Nat)
  /-- Asks a scope whether more passes are under way than the capacity allows. -/
  | check (scope : Nat)
  /-- Lowers the flag. -/
  | clear
  deriving DecidableEq, Repr

namespace Scopes

/-- A guard without scopes. -/
def new (maxDepth : Nat) : Scopes := ⟨Guard.new maxDepth, []⟩

/-- Whether a scope exists and has not been left. -/
def isLive (s : Scopes) (scope : Nat) : Bool :=
  s.live[scope]?.getD false

/-- Does one step. Only checking a live scope has an answer. -/
def step (s : Scopes) : ScopeStep → Option Bool × Scopes
  | .push => (none, ⟨s.guard.push, s.live ++ [true]⟩)
  | .drop scope =>
    (none, if s.isLive scope then ⟨s.guard.leave, s.live.set scope false⟩ else s)
  | .check scope => (if s.isLive scope then some s.guard.isOver else none, s)
  | .clear => (none, ⟨s.guard.clear, s.live⟩)

end Scopes

end ClassLoom
