import ClassLoom.Proofs.ExactClassFile
import ClassLoom.Proofs.LocalHints

/-!
# From classes to class files and back

Both directions are read off the same pair of equivalences, `encode_eq_ok` and
`decode_eq_ok`. Starting from a class, what is written is the prepared class, so
that is what comes back, and it is written the same way again unless somebody now
raises hints that were left alone the first time. Starting from bytes, the only
freedom that the layout leaves is the value of the superclass flag, so writing
what was read can change that one byte and no other.

To say which byte it is, the pieces of a class file are cut in front of the flag
and behind it. What lies in front is twelve bytes of numbers and the name of the
class, and neither part depends on how the flag is spelled.
-/

namespace ClassLoom

open Wire

namespace Class

/-! ## Starting from a class -/

theorem decode_of_encode_eq_ok {options : WriterOptions} {c : Class} {b : Bytes}
    (h : c.encode options = .ok b) :
    decode b =
      if c.majorVersion ≤ maxMajorVersion then .ok (options.prepare c)
      else .error (.unsupportedVersion c.majorVersion c.minorVersion) := by
  have hpieces := encode_eq_ok.mp h
  by_cases hle : c.majorVersion ≤ maxMajorVersion
  · rw [if_pos hle]
    refine decode_eq_ok.mpr ⟨?_, 1, by decide, hpieces⟩
    rw [options.majorVersion_prepare]
    exact hle
  · rw [if_neg hle]
    have hnew : (options.prepare c).majorVersion > maxMajorVersion := by
      rw [options.majorVersion_prepare]
      exact UInt16.not_le.mp hle
    rw [decode_of_newer hpieces hnew, options.majorVersion_prepare,
      options.minorVersion_prepare]

/-- A class is written without raising hints as the class prepared for it is. -/
theorem encode_eq_encode_prepare (options : WriterOptions) (c : Class) :
    c.encode options = (options.prepare c).encode { computeMaxs := false } := rfl

theorem encode_prepare (options : WriterOptions) (c : Class) :
    (options.prepare c).encode options = c.encode options := by
  unfold encode
  rw [options.prepare_prepare]

/-- Two classes of an understood version that are written alike are prepared
alike. -/
theorem prepare_eq_of_encode_eq {options options' : WriterOptions}
    {c c' : Class} {b : Bytes} (hle : c.majorVersion ≤ maxMajorVersion)
    (hle' : c'.majorVersion ≤ maxMajorVersion) (h : c.encode options = .ok b)
    (h' : c'.encode options' = .ok b) :
    options.prepare c = options'.prepare c' := by
  have hdecode := decode_of_encode_eq_ok h
  rw [decode_of_encode_eq_ok h', if_pos hle, if_pos hle'] at hdecode
  injection hdecode with hdecode
  exact hdecode.symm

theorem encode_raised_iff {options : WriterOptions} {c : Class} {b : Bytes}
    (hle : c.majorVersion ≤ maxMajorVersion) (h : c.encode options = .ok b) :
    (options.prepare c).encode { computeMaxs := true } = .ok b ↔
      options.computeMaxs = true ∨ ∀ m ∈ c.methods, m.Covered := by
  rw [← options.raiseLocals_prepare_iff]
  have hle' : (options.prepare c).majorVersion ≤ maxMajorVersion := by
    rw [options.majorVersion_prepare]
    exact hle
  constructor
  · intro hraised
    exact prepare_eq_of_encode_eq hle' hle hraised h
  · intro hsame
    rw [encode_eq_encode_prepare, WriterOptions.prepare, if_pos rfl, hsame,
      ← encode_eq_encode_prepare]
    exact h

/-- What is written for a class is read as the prepared class, which obeys the
same structural rules and is written the same way again, or is refused for its
version. Hints that were not raised the first time can still be raised the
second time. -/
theorem decode_encoded {options : WriterOptions} {c : Class} {b : Bytes}
    (h : c.encode options = .ok b) :
    (c.majorVersion ≤ maxMajorVersion →
      ∃ c', decode b = .ok c' ∧
        c' = { c with
          methods := c.methods.map fun m =>
            { m with
              maxLocals :=
                if options.computeMaxs then
                  m.argumentLocals?.elim m.maxLocals (max m.maxLocals)
                else m.maxLocals } } ∧
        c'.encode options = .ok b ∧
        c'.encode { computeMaxs := false } = .ok b ∧
        (c'.encode { computeMaxs := true } = .ok b ↔
          options.computeMaxs = true ∨
            ∀ m ∈ c.methods, ∀ needed,
              m.argumentLocals? = some needed → needed ≤ m.maxLocals) ∧
        c'.verify = c.verify) ∧
    (c.majorVersion > maxMajorVersion →
      decode b = .error (.unsupportedVersion c.majorVersion c.minorVersion)) := by
  have hdecode := decode_of_encode_eq_ok h
  refine ⟨?_, ?_⟩
  · intro hle
    rw [if_pos hle] at hdecode
    refine ⟨options.prepare c, hdecode, options.prepare_eq c, ?_, ?_, ?_, ?_⟩
    · rw [encode_prepare]
      exact h
    · rw [← encode_eq_encode_prepare]
      exact h
    · exact encode_raised_iff hle h
    · exact options.verify_prepare c
  · intro hnew
    rw [if_neg (UInt16.not_le.mpr hnew)] at hdecode
    exact hdecode

/-- A class with a hint that does not cover the arguments of its method, which
take three slots. -/
def uncovered : Class :=
  { Class.new "A" with methods := [⟨Access.isPublic, "f", "(J)V", 0, 0, [], []⟩] }

/-- Its class file, with the hint written as `hint`. -/
def uncoveredFile (hint : UInt8) : Bytes :=
  [0xCA, 0xFE, 0xBA, 0xBE, 0, 0, 0, 52, 0, 0x21, 0, 1, 65, 1, 0, 16] ++
    utf8 rootName ++
    [0, 0, 0, 0, 0, 1, 0, 1, 0, 1, 102, 0, 4, 40, 74, 41, 86, 0, 0, 0, hint] ++
    List.replicate 8 0

theorem decode_encoded_uncovered :
    uncovered.encode { computeMaxs := true } = .ok (uncoveredFile 3) ∧
      ∃ c', decode (uncoveredFile 3) = .ok c' ∧
        c'.methods.map (·.maxLocals) = [3] ∧
        c'.encode { computeMaxs := true } = .ok (uncoveredFile 3) ∧
        c'.encode { computeMaxs := false } = .ok (uncoveredFile 3) ∧
        c'.verify = uncovered.verify := by
  have hencode :
      uncovered.encode { computeMaxs := true } = .ok (uncoveredFile 3) := by
    decide +kernel
  obtain ⟨c', hdecode, hc', hagain, hoff, _, hverify⟩ :=
    (decode_encoded hencode).1 (by decide)
  refine ⟨hencode, c', hdecode, ?_, hagain, hoff, hverify⟩
  rw [hc']
  decide +kernel

/-- The setting matters: a class that was written without raising hints is read
back as it is, and then written differently if hints are raised. -/
theorem not_encoded_alike_under_both_settings :
    ¬ ∀ (options : WriterOptions) (c c' : Class) (b : Bytes),
        c.majorVersion ≤ maxMajorVersion → c.encode options = .ok b →
          decode b = .ok c' →
          c'.encode { computeMaxs := true } = .ok b ∧
            c'.encode { computeMaxs := false } = .ok b := by
  intro h
  have hencode :
      uncovered.encode { computeMaxs := false } = .ok (uncoveredFile 0) := by
    decide +kernel
  have hdecode : decode (uncoveredFile 0) = .ok uncovered := by
    decide +kernel
  have hraised :
      uncovered.encode { computeMaxs := true } ≠ .ok (uncoveredFile 0) := by
    decide +kernel
  exact hraised (h _ _ _ _ (by decide) hencode hdecode).1

/-! ## Starting from bytes -/

/-- What a class file holds in front of the superclass flag. -/
def frontPieces (c : Class) : List Piece :=
  headerPieces c.minorVersion c.majorVersion ++ [.u16 c.access, .str c.name]

/-- What a class file holds behind the superclass flag. -/
def backPieces (c : Class) : List Piece :=
  c.superName.toList.map .str
    ++ tablePieces (fun name => [.str name]) c.interfaces
    ++ tablePieces Field.pieces c.fields
    ++ tablePieces Method.pieces c.methods
    ++ tablePieces Attribute.pieces c.attributes

/-- Where the superclass flag stands: behind twelve bytes of numbers and the
name. -/
def superFlagOffset (c : Class) : Nat :=
  12 + (utf8 c.name).length

/-- The superclass flag, if `flag` is how a superclass is announced. -/
def superFlag (flag : UInt8) (c : Class) : UInt8 :=
  if c.superName.isSome then flag else 0

theorem superFlag_eq_zero_iff {flag : UInt8} (hflag : flag ≠ 0) (c : Class) :
    c.superFlag flag = 0 ↔ c.superName = none := by
  unfold superFlag
  cases c.superName with
  | none => simp
  | some name => simp [hflag]

theorem superFlag_one {flag : UInt8} (hflag : flag ≠ 0) (c : Class) :
    c.superFlag 1 = if c.superFlag flag = 0 then 0 else 1 := by
  unfold superFlag
  cases c.superName with
  | none => simp
  | some name => simp [hflag]

theorem piecesWith_eq (flag : UInt8) (c : Class) :
    c.piecesWith flag =
      c.frontPieces ++ .u8 (c.superFlag flag) :: c.backPieces := by
  unfold piecesWith bodyPieces frontPieces backPieces superFlag
  cases c.superName with
  | none => simp [superPiecesWith]
  | some name => simp [superPiecesWith]

theorem encode_piecesWith_eq_ok {flag : UInt8} {c : Class} {data : Bytes} :
    Piece.encode (c.piecesWith flag) = .ok data ↔
      ∃ front back, Piece.encode c.frontPieces = .ok front ∧
        Piece.encode c.backPieces = .ok back ∧
          front ++ c.superFlag flag :: back = data := by
  rw [piecesWith_eq, Piece.encode_append_eq_ok]
  constructor
  · intro h
    obtain ⟨front, rest, hfront, hrest, hdata⟩ := h
    obtain ⟨a, back, ha, hback, hab⟩ := Piece.encode_cons_eq_ok.mp hrest
    injection ha with ha
    rw [← ha] at hab
    refine ⟨front, back, hfront, hback, ?_⟩
    rw [← hdata, ← hab]
    rfl
  · intro h
    obtain ⟨front, back, hfront, hback, hdata⟩ := h
    exact ⟨front, _, hfront,
      Piece.encode_cons_eq_ok.mpr ⟨_, back, rfl, hback, rfl⟩, hdata⟩

theorem length_of_encode_frontPieces {c : Class} {front : Bytes}
    (h : Piece.encode c.frontPieces = .ok front) :
    front.length = c.superFlagOffset := by
  rw [Piece.length_of_encode h]
  unfold frontPieces headerPieces superFlagOffset
  simp only [List.cons_append, List.nil_append, List.map_cons, List.map_nil,
    List.sum_cons, List.sum_nil, Piece.size]
  omega

/-- Two lists that differ at one place at most. -/
theorem getElem?_append_cons_of_ne {α : Type} (front back : List α) (x y : α)
    {i : Nat} (hi : i ≠ front.length) :
    (front ++ x :: back)[i]? = (front ++ y :: back)[i]? := by
  rcases Nat.lt_or_gt_of_ne hi with hlt | hgt
  · rw [List.getElem?_append_left hlt, List.getElem?_append_left hlt]
  · obtain ⟨k, hk⟩ : ∃ k, i - front.length = k + 1 :=
      ⟨i - front.length - 1, by omega⟩
    rw [List.getElem?_append_right (Nat.le_of_lt hgt),
      List.getElem?_append_right (Nat.le_of_lt hgt),
      hk, List.getElem?_cons_succ, List.getElem?_cons_succ]

theorem getElem?_append_cons_self {α : Type} (front back : List α) (x : α) :
    (front ++ x :: back)[front.length]? = some x := by
  rw [List.getElem?_append_right (Nat.le_refl _), Nat.sub_self,
    List.getElem?_cons_zero]

/-- A class that was read can be written, and it is written as the bytes that it
was read from, except that the superclass flag is now one if it was not zero. -/
theorem encode_decoded {b : Bytes} {c : Class} (h : decode b = .ok c) :
    ∃ out flag, c.encode { computeMaxs := false } = .ok out ∧
      out.length = b.length ∧
      (∀ i, i ≠ c.superFlagOffset → out[i]? = b[i]?) ∧
      b[c.superFlagOffset]? = some flag ∧
      out[c.superFlagOffset]? = some (if flag = 0 then 0 else 1) ∧
      (flag = 0 ↔ c.superName = none) ∧
      (out = b ↔ flag = 0 ∨ flag = 1) := by
  obtain ⟨_, flag, hflag, hb⟩ := decode_eq_ok.mp h
  obtain ⟨front, back, hfront, hback, hdata⟩ := encode_piecesWith_eq_ok.mp hb
  have hone := c.superFlag_one hflag
  rw [← hdata, ← length_of_encode_frontPieces hfront]
  refine ⟨front ++ c.superFlag 1 :: back, c.superFlag flag, ?_, ?_, ?_, ?_, ?_,
    ?_, ?_⟩
  · exact encode_eq_ok.mpr
      (encode_piecesWith_eq_ok.mpr ⟨front, back, hfront, hback, rfl⟩)
  · rw [List.length_append, List.length_append, List.length_cons,
      List.length_cons]
  · intro i hi
    exact getElem?_append_cons_of_ne front back _ _ hi
  · exact getElem?_append_cons_self front back _
  · rw [← hone]
    exact getElem?_append_cons_self front back _
  · exact c.superFlag_eq_zero_iff hflag
  · rw [List.append_right_inj, List.cons_eq_cons, and_iff_left rfl, hone]
    grind

/-- The class file of an empty class, with its superclass announced by `flag`. -/
def announcedBy (flag : UInt8) : Bytes :=
  [0xCA, 0xFE, 0xBA, 0xBE, 0, 0, 0, 52, 0, 0x21, 0, 1, 65, flag, 0, 16] ++
    utf8 rootName ++ List.replicate 8 0

theorem encode_decoded_announcedBy_seven :
    decode (announcedBy 7) = .ok (Class.new "A") ∧
      ∃ out, (Class.new "A").encode { computeMaxs := false } = .ok out ∧
        out.length = (announcedBy 7).length ∧ out[13]? = some 1 ∧
          out ≠ announcedBy 7 := by
  have hdecode : decode (announcedBy 7) = .ok (Class.new "A") := by decide +kernel
  obtain ⟨out, flag, hout, hlength, _, hflag, hone, _, hsame⟩ :=
    encode_decoded hdecode
  have hseven : flag = 7 := by
    injection hflag with hflag
    exact hflag.symm
  rw [hseven] at hone hsame
  refine ⟨hdecode, out, hout, hlength, hone, ?_⟩
  intro h
  exact absurd (hsame.mp h) (by decide)

end Class

end ClassLoom
