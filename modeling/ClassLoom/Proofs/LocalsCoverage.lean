import ClassLoom.Proofs.ClassFileRoundTrip
import ClassLoom.Proofs.StructuralRules
import Mathlib.Data.List.Forall2

/-!
# Which hints cover the arguments

A class that obeys the structural rules has a good descriptor for each of its methods,
and a good descriptor tells the slots that the arguments take. The encoder raises the
hint to that number, so one expects that every class which was checked and written
comes back with hints that cover the arguments.

Two limits have to go together for this, and they do not quite. A hint is a number of
sixteen bits. The length of a descriptor is one too, and a single one of its bytes may
ask for two slots. So there are descriptors that can be written and ask for more than
a hint can say, and for them the encoder behaves as it would for a malformed one: it
leaves the hint alone. Nothing else gets in the way. How far the good case reaches is
read off `MethodType.slots_le`, and `takingLongs` is the first class beyond it.
-/

namespace ClassLoom

open Descriptor (argumentSlots?)
open Wire (Piece)

/-! ## How much a descriptor can ask for -/

namespace Descriptor

theorem IsFieldType.length_pos {type : List Char} (h : IsFieldType type) :
    0 < type.length := by
  cases h with
  | base _ => simp
  | object _ _ => simp
  | array _ => simp

theorem IsFieldType.width_le {type : List Char} (h : IsFieldType type) :
    width type ≤ 2 * type.length := by
  have hpos := h.length_pos
  unfold width
  split <;> omega

theorem sum_width_le {types : List (List Char)} (h : ∀ type ∈ types, IsFieldType type) :
    (types.map width).sum ≤ 2 * types.flatten.length := by
  induction types with
  | nil => simp
  | cons type types ih =>
      rw [List.forall_mem_cons] at h
      have hfirst := h.1.width_le
      have hrest := ih h.2
      rw [List.map_cons, List.sum_cons, List.flatten_cons, List.length_append]
      omega

/-- Two slots for each character, but for the parentheses and the result. -/
theorem MethodType.slots_le (t : MethodType) : t.slots + 6 ≤ 2 * t.text.length := by
  have harguments := sum_width_le t.arguments_type
  have hresult : 0 < t.result.length := by
    rcases t.result_type with hvoid | htype
    · simp [hvoid]
    · exact htype.length_pos
  unfold slots text
  rw [List.length_cons, List.length_append, List.length_cons]
  omega

end Descriptor

/-! ## One method -/

namespace Method

variable {m : Method} {slots : Nat}

theorem receiverSlots_le (m : Method) : m.receiverSlots ≤ 1 := by
  unfold receiverSlots
  split <;> omega

theorem receiverSlots_of_static (h : m.access = Access.isStatic) : m.receiverSlots = 0 := by
  unfold receiverSlots isStatic
  rw [h]
  decide

/-- Short descriptors never ask for too much. -/
theorem slots_fit_of_length_le (hslots : argumentSlots? m.descriptor = some slots)
    (hlength : m.descriptor.length ≤ 32770) : m.receiverSlots + slots < UInt16.size := by
  obtain ⟨t, ht, rfl⟩ := Descriptor.argumentSlots?_eq_some_iff.mp hslots
  have hle := t.slots_le
  have hreceiver := m.receiverSlots_le
  rw [ht, String.length_toList] at hle
  show _ < 65536
  omega

theorem argumentLocals?_of_slots (hslots : argumentSlots? m.descriptor = some slots) :
    m.argumentLocals? =
      if m.receiverSlots + slots < UInt16.size then some (m.receiverSlots + slots).toUInt16
      else none := by
  unfold argumentLocals?
  rw [hslots, Option.bind_eq_bind, Option.bind_some, Nat.add_comm slots]

theorem le_maxLocals_raiseLocals (m : Method) : m.maxLocals ≤ m.raiseLocals.maxLocals := by
  rw [raiseLocals_eq]
  cases m.argumentLocals? with
  | none => exact UInt16.le_refl m.maxLocals
  | some needed => exact le_max_left_slots m.maxLocals needed

theorem raiseLocals_of_not_fit (hslots : argumentSlots? m.descriptor = some slots)
    (hfit : ¬ m.receiverSlots + slots < UInt16.size) : m.raiseLocals = m := by
  rw [raiseLocals_eq, argumentLocals?_of_slots hslots, if_neg hfit]
  rfl

theorem le_raiseLocals_iff (hslots : argumentSlots? m.descriptor = some slots) :
    m.receiverSlots + slots ≤ m.raiseLocals.maxLocals.toNat ↔
      m.receiverSlots + slots < UInt16.size := by
  constructor
  · intro h
    -- Whatever the hint has become, it is still a number of sixteen bits.
    exact Nat.lt_of_le_of_lt h m.raiseLocals.maxLocals.toNat_lt
  · intro hfit
    have hneeded := m.argumentLocals?_raiseLocals
    rw [argumentLocals?_of_slots hslots, if_pos hfit] at hneeded
    have hcovered := m.covered_raiseLocals _ hneeded
    rwa [UInt16.le_iff_toNat_le, Nat.toUInt16_eq, UInt16.toNat_ofNat_of_lt' hfit] at hcovered

end Method

/-! ## All methods of a class -/

namespace Class

/-- A class that obeys the rules comes back from its bytes with hints that are not
lower than before, and that cover the receiver and the arguments of just those methods
where the number of their slots has no more than sixteen bits. The other methods come
back as they were. -/
theorem locals_covered_iff_fit {c : Class} {b : Bytes}
    (hle : c.majorVersion ≤ maxMajorVersion) (hverify : c.verify = .ok ())
    (hencode : c.encode { computeMaxs := true } = .ok b) :
    ∃ c', decode b = .ok c' ∧
      List.Forall₂
        (fun m m' => m' = { m with maxLocals := m'.maxLocals } ∧
          m.maxLocals ≤ m'.maxLocals ∧
          ∃ slots, argumentSlots? m'.descriptor = some slots ∧
            (m'.receiverSlots + slots ≤ m'.maxLocals.toNat ↔
              m'.receiverSlots + slots < UInt16.size) ∧
            (¬ m'.receiverSlots + slots < UInt16.size → m' = m))
        c.methods c'.methods := by
  have hdecode := decode_of_encode_eq_ok hencode
  rw [if_pos hle] at hdecode
  refine ⟨c.raiseLocals, hdecode, ?_⟩
  show List.Forall₂ _ c.methods (c.methods.map Method.raiseLocals)
  rw [List.forall₂_map_right_iff, List.forall₂_same]
  intro m hm
  obtain ⟨t, ht⟩ := (c.verify_eq_ok_iff.mp hverify).methodDescriptor m hm
  have hslots := t.argumentSlots?_eq ht
  have hraised := m.raiseLocals_eq
  have hreceiver : m.raiseLocals.receiverSlots = m.receiverSlots := by
    rw [hraised]
    rfl
  have hdescriptor : m.raiseLocals.descriptor = m.descriptor := by
    rw [hraised]
  rw [hreceiver, hdescriptor]
  refine ⟨?_, m.le_maxLocals_raiseLocals, t.slots, hslots, ?_, ?_⟩
  · rw [hraised]
  · exact Method.le_raiseLocals_iff hslots
  · exact Method.raiseLocals_of_not_fit hslots

theorem locals_covered_uncovered :
    uncovered.encode { computeMaxs := true } = .ok (uncoveredFile 3) ∧
      ∃ c', decode (uncoveredFile 3) = .ok c' ∧ c'.methods ≠ [] ∧
        ∀ m ∈ c'.methods, 3 ≤ m.maxLocals.toNat := by
  have hencode :
      uncovered.encode { computeMaxs := true } = .ok (uncoveredFile 3) := by
    decide +kernel
  obtain ⟨c', hdecode, hmethods⟩ :=
    locals_covered_iff_fit (by decide) (by decide +kernel) hencode
  obtain ⟨m', rest, ⟨hsame, _, slots, hslots, hcovered, _⟩, hrest, hc'⟩ :=
    List.forall₂_cons_left_iff.mp hmethods
  rw [List.forall₂_nil_left_iff.mp hrest] at hc'
  have hreceiver : m'.receiverSlots = 1 := by
    rw [hsame]
    show (if Access.has Access.isPublic Access.isStatic then 0 else 1) = 1
    decide
  have htwo : slots = 2 := by
    have hlong : argumentSlots? "(J)V" = some 2 := by decide +kernel
    rw [hsame] at hslots
    exact Option.some.inj (hslots.symm.trans hlong)
  rw [hreceiver, htwo] at hcovered
  refine ⟨hencode, c', hdecode, ?_, ?_⟩
  · rw [hc']
    exact List.cons_ne_nil m' []
  · intro m hm
    rw [hc', List.mem_singleton] at hm
    rw [hm]
    exact hcovered.mpr (by decide)

/-! ## The first class beyond the limit -/

/-- The descriptor with `n` arguments of two slots each. -/
def longs (n : Nat) : String :=
  Descriptor.ofTypes (List.replicate n "J") "V"

/-- A class with a method that takes such arguments and has no receiver. -/
def takingLongs (n : Nat) : Class :=
  { Class.new "A" with
    methods := [⟨Access.isStatic, "f", longs n, 0, 0, [], []⟩] }

theorem argumentSlots?_longs (n : Nat) : argumentSlots? (longs n) = some (2 * n) := by
  have htypes : ∀ type ∈ List.replicate n "J", Descriptor.isField type = true := by
    intro type hmem
    rw [List.eq_of_mem_replicate hmem]
    decide
  have hopen : ∀ type ∈ List.replicate n "J", ')' ∉ type.toList := by
    intro type hmem
    rw [List.eq_of_mem_replicate hmem]
    decide
  unfold longs
  rw [Descriptor.argumentSlots?_ofTypes htypes (.inl rfl), if_pos hopen, List.map_replicate,
    List.sum_replicate_nat, if_pos (.inl rfl), Nat.mul_comm]

theorem slots_of_mem_takingLongs {n : Nat} {m : Method} (hm : m ∈ (takingLongs n).methods) :
    m.receiverSlots = 0 ∧ argumentSlots? m.descriptor = some (2 * n) := by
  rw [List.mem_singleton.mp hm]
  exact ⟨Method.receiverSlots_of_static rfl, argumentSlots?_longs n⟩

theorem verify_takingLongs (n : Nat) : (takingLongs n).verify = .ok () := by
  have hname : IsClassName "A" := isInternalName_iff.mp (by decide)
  have hroot : IsClassName rootName := isInternalName_iff.mp (by decide)
  have hmethod : IsMethodName "f" := isMethodName_iff.mp (by decide)
  rw [verify_eq_ok_iff]
  exact {
    name := hname
    superName := by
      intro name h
      rwa [← Option.some.inj h]
    interfaces := List.forall_mem_nil _
    fieldName := List.forall_mem_nil _
    fieldDescriptor := List.forall_mem_nil _
    fields_differ := .nil
    methodName := by
      intro m hm
      rwa [List.mem_singleton.mp hm]
    methodDescriptor := by
      intro m hm
      exact Descriptor.exists_methodType (slots_of_mem_takingLongs hm).2
    methodCode := by
      intro m hm _
      rw [List.mem_singleton.mp hm]
    methods_differ := List.pairwise_singleton _ _ }

theorem length_utf8_longs (n : Nat) : (utf8 (longs n)).length = n + 3 := by
  have hjoin : (String.join (List.replicate n "J")).utf8ByteSize = n := by
    induction n with
    | zero => rfl
    | succ n ih =>
        rw [List.replicate_succ, String.join_cons, String.utf8ByteSize_append, ih]
        exact Nat.add_comm 1 n
  show (longs n).utf8ByteSize = n + 3
  unfold longs Descriptor.ofTypes
  rw [String.utf8ByteSize_append, String.utf8ByteSize_append, String.utf8ByteSize_append,
    hjoin]
  show 1 + n + 1 + 1 = n + 3
  omega

theorem exists_encode_takingLongs {n : Nat} (hn : n + 3 < UInt16.size)
    (options : WriterOptions) : ∃ b, (takingLongs n).encode options = .ok b := by
  have hname : (utf8 (ClassName.of "A").internal).length < UInt16.size := by decide
  have hroot : (utf8 rootName).length < UInt16.size := by decide
  have hmethod : (utf8 "f").length < UInt16.size := by decide
  -- Preparing may have raised the hint, but a number always fits.
  have hfits : ∀ p ∈ (options.prepare (takingLongs n)).pieces, p.Fits := by
    rw [options.prepare_eq]
    simp [takingLongs, pieces, tablePieces, Method.pieces, superPieces, Class.new,
      Piece.Fits, length_utf8_longs, hn, hname, hroot, hmethod, UInt16.size, UInt32.size]
  obtain ⟨b, hb⟩ := Piece.exists_encode_iff.mpr hfits
  exact ⟨b, mapError_eq_ok.mpr hb⟩

theorem raiseLocals_takingLongs {n : Nat} (hn : 32768 ≤ n) :
    (takingLongs n).raiseLocals = takingLongs n := by
  rw [raiseLocals_eq_self_iff]
  intro m hm needed hneeded
  obtain ⟨hreceiver, hslots⟩ := slots_of_mem_takingLongs hm
  have hmany : ¬ m.receiverSlots + 2 * n < UInt16.size := by
    rw [hreceiver]
    show ¬ 0 + 2 * n < 65536
    omega
  rw [Method.argumentLocals?_of_slots hslots, if_neg hmany] at hneeded
  cases hneeded

/-- With one slot more than a hint can tell, a class that obeys the rules is written
and comes back with its hint still at zero. -/
theorem takingLongs_not_covered :
    ¬ ∀ (c c' : Class) (b : Bytes), c.majorVersion ≤ maxMajorVersion →
        c.verify = .ok () → c.encode { computeMaxs := true } = .ok b → decode b = .ok c' →
          ∀ m ∈ c'.methods, ∃ slots, argumentSlots? m.descriptor = some slots ∧
            m.receiverSlots + slots ≤ m.maxLocals.toNat := by
  intro h
  obtain ⟨b, hencode⟩ :=
    exists_encode_takingLongs (n := 32768) (by decide) { computeMaxs := true }
  have hle : (takingLongs 32768).majorVersion ≤ maxMajorVersion := by decide
  have hdecode : decode b = .ok (takingLongs 32768) := by
    rw [decode_of_encode_eq_ok hencode, if_pos hle]
    exact congrArg Except.ok (raiseLocals_takingLongs (Nat.le_refl 32768))
  obtain ⟨slots, hslots, hcovered⟩ :=
    h _ _ b hle (verify_takingLongs 32768) hencode hdecode _ List.mem_cons_self
  rw [argumentSlots?_longs] at hslots
  rw [← Option.some.inj hslots, Method.receiverSlots_of_static rfl] at hcovered
  exact absurd hcovered (by decide)

end Class

end ClassLoom
