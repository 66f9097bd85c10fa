import ClassLoom.ClassFile.Layout
import ClassLoom.ClassFile.Verify

/-!
# What the encoder may change

Before it writes, the encoder may raise the local slot hint of a method to the
slots of its arguments. This file says that nothing else happens to a class on
the way out: `prepare_eq` gives the prepared class in full, field by field, for
both settings.

Two consequences are what everything after this leans on. The slots of the
arguments are read off the flags and the descriptor, which raising leaves alone,
so raising twice is raising once. And none of the structural rules looks at a
hint, so a class that obeys them before it is written obeys them afterwards.
-/

namespace ClassLoom

/-! ## Numbers of slots -/

theorem max_eq_left_iff_le (a b : UInt16) : max a b = a ↔ b ≤ a := by
  show (if a ≤ b then b else a) = a ↔ b ≤ a
  grind

theorem le_max_left_slots (a b : UInt16) : a ≤ max a b := by
  show a ≤ if a ≤ b then b else a
  grind

theorem le_max_right_slots (a b : UInt16) : b ≤ max a b := by
  show b ≤ if a ≤ b then b else a
  grind

/-! ## One method -/

namespace Method

theorem raiseLocals_eq (m : Method) :
    m.raiseLocals =
      { m with
        maxLocals := m.argumentLocals?.elim m.maxLocals (max m.maxLocals) } := by
  unfold raiseLocals
  cases m.argumentLocals? with
  | none => rfl
  | some needed => rfl

theorem argumentLocals?_raiseLocals (m : Method) :
    m.raiseLocals.argumentLocals? = m.argumentLocals? := by
  rw [raiseLocals_eq]
  rfl

theorem verify_raiseLocals (m : Method) : m.raiseLocals.verify = m.verify := by
  rw [raiseLocals_eq]
  rfl

/-- Whether the hint covers the receiver and the arguments, as far as their slots
are known. -/
def Covered (m : Method) : Prop :=
  ∀ needed, m.argumentLocals? = some needed → needed ≤ m.maxLocals

theorem raiseLocals_eq_self_iff (m : Method) : m.raiseLocals = m ↔ m.Covered := by
  unfold raiseLocals Covered
  cases m.argumentLocals? with
  | none => simp
  | some needed =>
      simp only [Option.some.injEq, forall_eq']
      rw [← max_eq_left_iff_le]
      constructor
      · intro h
        exact congrArg Method.maxLocals h
      · intro h
        rw [h]

theorem covered_raiseLocals (m : Method) : m.raiseLocals.Covered := by
  intro needed hneeded
  rw [argumentLocals?_raiseLocals] at hneeded
  rw [raiseLocals_eq, hneeded]
  exact le_max_right_slots m.maxLocals needed

end Method

/-! ## All methods of a class -/

namespace Class

theorem raiseLocals_eq_self_iff (c : Class) :
    c.raiseLocals = c ↔ ∀ m ∈ c.methods, m.Covered := by
  have hmethods : c.raiseLocals = c ↔
      c.methods.map Method.raiseLocals = c.methods.map id := by
    rw [List.map_id]
    constructor
    · intro h
      exact congrArg Class.methods h
    · intro h
      unfold raiseLocals
      rw [h]
  rw [hmethods, List.map_inj_left]
  simp only [Method.raiseLocals_eq_self_iff, id_eq]

theorem raiseLocals_raiseLocals (c : Class) :
    c.raiseLocals.raiseLocals = c.raiseLocals := by
  rw [raiseLocals_eq_self_iff]
  intro m hm
  obtain ⟨old, _, hold⟩ := List.mem_map.mp hm
  rw [← hold]
  exact old.covered_raiseLocals

/-- Members that are called the same and pass the same check are as good as the
members that they replace. -/
theorem verifyMembers_map {α : Type} {check : α → Except VerifyError Unit}
    {identity : α → String × String} {duplicate : String → String → VerifyError}
    {f : α → α} (hcheck : ∀ a, check (f a) = check a)
    (hidentity : ∀ a, identity (f a) = identity a)
    (seen : List (String × String)) (members : List α) :
    verifyMembers check identity duplicate seen (members.map f) =
      verifyMembers check identity duplicate seen members := by
  induction members generalizing seen with
  | nil => rfl
  | cons member members ih =>
      rw [List.map_cons, verifyMembers, verifyMembers, hcheck, hidentity]
      simp only [ih]

theorem verify_raiseLocals (c : Class) : c.raiseLocals.verify = c.verify := by
  unfold Class.verify raiseLocals
  dsimp only
  rw [verifyMembers_map Method.verify_raiseLocals]
  intro m
  rw [Method.raiseLocals_eq]

end Class

/-! ## Both settings -/

namespace WriterOptions

variable (options : WriterOptions) (c : Class)

theorem prepare_eq :
    options.prepare c =
      { c with
        methods := c.methods.map fun m =>
          { m with
            maxLocals :=
              if options.computeMaxs then
                m.argumentLocals?.elim m.maxLocals (max m.maxLocals)
              else m.maxLocals } } := by
  unfold prepare
  cases options.computeMaxs with
  | false => simp
  | true => simp [Class.raiseLocals, Method.raiseLocals_eq]

theorem majorVersion_prepare :
    (options.prepare c).majorVersion = c.majorVersion := by
  rw [prepare_eq]

theorem minorVersion_prepare :
    (options.prepare c).minorVersion = c.minorVersion := by
  rw [prepare_eq]

theorem prepare_prepare :
    options.prepare (options.prepare c) = options.prepare c := by
  unfold prepare
  cases options.computeMaxs with
  | false => rfl
  | true => exact c.raiseLocals_raiseLocals

theorem verify_prepare : (options.prepare c).verify = c.verify := by
  unfold prepare
  cases options.computeMaxs with
  | false => rfl
  | true => exact c.verify_raiseLocals

/-- Raising has nothing left to do on a prepared class just when it was done while
preparing, or had nothing to do from the start. -/
theorem raiseLocals_prepare_iff :
    (options.prepare c).raiseLocals = options.prepare c ↔
      options.computeMaxs = true ∨ ∀ m ∈ c.methods, m.Covered := by
  unfold prepare
  cases options.computeMaxs with
  | false => simp [c.raiseLocals_eq_self_iff]
  | true => simp [c.raiseLocals_raiseLocals]

end WriterOptions

end ClassLoom
