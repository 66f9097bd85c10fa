import ClassLoom.ClassFile.Reading
import ClassLoom.Proofs.ExactWire

/-!
# Which data is a class file of which class

`decode_eq_ok` answers the question in full: the class files of a class are the
written forms of its pieces, where the flag in front of a superclass may be any
byte but zero, and there are none if the version is too new. Writing is the one
choice of one for that flag (`encode_eq_ok`), so the round trip and its converse
are both read off the same equivalence.

The tables are where an induction is needed. A table is read as many times as its
count says, whatever the items are, so one lemma serves all of them, the tables
of attributes inside the items of other tables included.
-/

namespace ClassLoom

open Wire

/-! ## Tables -/

/-- An action that takes a value off a reader just when what it passes over is the
written form of that value. -/
def Exact {α : Type} (item : Read α) (pieces : α → List Piece) : Prop :=
  ∀ {a : α} {r r' : Reader}, item r = .ok a r' ↔ Spans (pieces a) r r'

theorem mapM_replicate_eq_ok {α : Type} {item : Read α} {pieces : α → List Piece}
    (hitem : Exact item pieces) (n : Nat) {xs : List α} {r r' : Reader} :
    ((List.replicate n item).mapM id) r = .ok xs r' ↔
      xs.length = n ∧ Spans (xs.flatMap pieces) r r' := by
  induction n generalizing xs r with
  | zero =>
      rw [List.replicate_zero, List.mapM_nil, pure_eq_ok, List.length_eq_zero_iff]
      constructor
      · intro h
        obtain ⟨rfl, rfl⟩ := h
        exact ⟨rfl, spans_nil.mpr rfl⟩
      · intro h
        obtain ⟨rfl, h⟩ := h
        exact ⟨rfl, spans_nil.mp h⟩
  | succ n ih =>
      rw [List.replicate_succ, List.mapM_cons, bind_eq_ok]
      constructor
      · intro h
        obtain ⟨x, t, hx, h⟩ := h
        obtain ⟨xs', t', hxs, hpure⟩ := bind_eq_ok.mp h
        obtain ⟨rfl, rfl⟩ := pure_eq_ok.mp hpure
        obtain ⟨rfl, hspans⟩ := ih.mp hxs
        refine ⟨List.length_cons, ?_⟩
        rw [List.flatMap_cons]
        exact spans_append.mpr ⟨t, hitem.mp hx, hspans⟩
      · intro h
        obtain ⟨hlen, hspans⟩ := h
        obtain ⟨x, xs', rfl⟩ := List.exists_cons_of_length_eq_add_one hlen
        rw [List.flatMap_cons] at hspans
        obtain ⟨t, hx, hspans⟩ := spans_append.mp hspans
        have hlen' : xs'.length = n := by simpa using hlen
        refine ⟨x, t, hitem.mpr hx,
          bind_eq_ok.mpr ⟨xs', r', ih.mpr ⟨hlen', hspans⟩, ?_⟩⟩
        exact pure_eq_ok.mpr ⟨rfl, rfl⟩

theorem readTable_exact {α : Type} {item : Read α} {pieces : α → List Piece}
    (hitem : Exact item pieces) :
    Exact (readTable item) (tablePieces pieces) := by
  intro xs r r'
  unfold readTable tablePieces
  rw [bind_eq_ok, spans_cons]
  constructor
  · intro h
    obtain ⟨count, t, hcount, hitems⟩ := h
    obtain ⟨hlen, hspans⟩ := (mapM_replicate_eq_ok hitem _).mp hitems
    refine ⟨t, ?_, hspans⟩
    rw [hlen]
    exact readU16_eq_ok_count.mp hcount
  · intro h
    obtain ⟨t, hcount, hspans⟩ := h
    obtain ⟨hlt, hu16⟩ := spans_count.mp hcount
    have hto : xs.length.toUInt16.toNat = xs.length :=
      UInt16.toNat_ofNat_of_lt' hlt
    exact ⟨_, t, readU16_eq_ok.mpr hu16,
      (mapM_replicate_eq_ok hitem _).mpr ⟨hto.symm, hspans⟩⟩

theorem readNames_eq_ok {names : List String} {r r' : Reader} :
    readTable readStr r = .ok names r' ↔
      Spans (tablePieces (fun name => [.str name]) names) r r' :=
  readTable_exact readStr_eq_ok

/-! ## Members -/

theorem Attribute.read_exact : Exact Attribute.read Attribute.pieces := by
  intro a r r'
  unfold Attribute.read Attribute.pieces
  simp only [bind_eq_ok, pure_eq_ok, readStr_eq_ok, readBlob_eq_ok,
    spans_cons_cons]
  constructor
  · intro h
    obtain ⟨name, t, hname, data, t', hdata, rfl, rfl⟩ := h
    exact ⟨t, hname, hdata⟩
  · intro h
    obtain ⟨t, hname, hdata⟩ := h
    exact ⟨a.name, t, hname, a.data, r', hdata, rfl, rfl⟩

theorem readAttributes_eq_ok {as : List Attribute} {r r' : Reader} :
    readTable Attribute.read r = .ok as r' ↔
      Spans (tablePieces Attribute.pieces as) r r' :=
  readTable_exact Attribute.read_exact

theorem Field.read_exact : Exact Field.read Field.pieces := by
  intro f r r'
  unfold Field.read Field.pieces
  simp only [bind_eq_ok, pure_eq_ok, readU16_eq_ok, readStr_eq_ok,
    readAttributes_eq_ok, spans_append, spans_cons_cons]
  constructor
  · intro h
    obtain ⟨access, t₁, h₁, name, t₂, h₂, descriptor, t₃, h₃, attributes, t₄, h₄,
      rfl, rfl⟩ := h
    exact ⟨t₃, ⟨t₁, h₁, t₂, h₂, h₃⟩, h₄⟩
  · intro h
    obtain ⟨t₃, ⟨t₁, h₁, t₂, h₂, h₃⟩, h₄⟩ := h
    exact ⟨f.access, t₁, h₁, f.name, t₂, h₂, f.descriptor, t₃, h₃, f.attributes,
      r', h₄, rfl, rfl⟩

theorem readFields_eq_ok {fs : List Field} {r r' : Reader} :
    readTable Field.read r = .ok fs r' ↔
      Spans (tablePieces Field.pieces fs) r r' :=
  readTable_exact Field.read_exact

theorem Method.read_exact : Exact Method.read Method.pieces := by
  intro m r r'
  unfold Method.read Method.pieces
  simp only [bind_eq_ok, pure_eq_ok, readU16_eq_ok, readStr_eq_ok, readBlob_eq_ok,
    readAttributes_eq_ok, spans_append, spans_cons_cons]
  constructor
  · intro h
    obtain ⟨access, t₁, h₁, name, t₂, h₂, descriptor, t₃, h₃, maxStack, t₄, h₄,
      maxLocals, t₅, h₅, code, t₆, h₆, attributes, t₇, h₇, rfl, rfl⟩ := h
    exact ⟨t₆, ⟨t₁, h₁, t₂, h₂, t₃, h₃, t₄, h₄, t₅, h₅, h₆⟩, h₇⟩
  · intro h
    obtain ⟨t₆, ⟨t₁, h₁, t₂, h₂, t₃, h₃, t₄, h₄, t₅, h₅, h₆⟩, h₇⟩ := h
    exact ⟨m.access, t₁, h₁, m.name, t₂, h₂, m.descriptor, t₃, h₃, m.maxStack,
      t₄, h₄, m.maxLocals, t₅, h₅, m.code, t₆, h₆, m.attributes, r', h₇,
      rfl, rfl⟩

theorem readMethods_eq_ok {ms : List Method} {r r' : Reader} :
    readTable Method.read r = .ok ms r' ↔
      Spans (tablePieces Method.pieces ms) r r' :=
  readTable_exact Method.read_exact

/-! ## The superclass

The one item with more than one written form: any flag but zero announces a name. -/

/-- The pieces of a superclass, its flag written as `flag` if there is one. -/
def superPiecesWith (flag : UInt8) : Option String → List Piece
  | some name => [.u8 flag, .str name]
  | none => [.u8 0]

theorem readSuper_eq_ok {s : Option String} {r r' : Reader} :
    readSuper r = .ok s r' ↔
      ∃ flag, flag ≠ 0 ∧ Spans (superPiecesWith flag s) r r' := by
  unfold readSuper
  rw [bind_eq_ok]
  constructor
  · intro h
    obtain ⟨flag, t, hflag, h⟩ := h
    have hflag := readU8_eq_ok.mp hflag
    by_cases hzero : flag = 0
    · rw [if_pos hzero] at h
      obtain ⟨rfl, rfl⟩ := pure_eq_ok.mp h
      rw [hzero] at hflag
      exact ⟨1, by decide, hflag⟩
    · rw [if_neg hzero] at h
      obtain ⟨name, t', hname, hpure⟩ := bind_eq_ok.mp h
      obtain ⟨rfl, rfl⟩ := pure_eq_ok.mp hpure
      exact ⟨flag, hzero, spans_cons.mpr ⟨t, hflag, readStr_eq_ok.mp hname⟩⟩
  · intro h
    obtain ⟨flag, hzero, h⟩ := h
    cases s with
    | none => exact ⟨0, r', readU8_eq_ok.mpr h, pure_eq_ok.mpr ⟨rfl, rfl⟩⟩
    | some name =>
        obtain ⟨t, hflag, hname⟩ := spans_cons.mp h
        refine ⟨flag, t, readU8_eq_ok.mpr hflag, ?_⟩
        rw [if_neg hzero]
        exact bind_eq_ok.mpr ⟨name, r', readStr_eq_ok.mpr hname,
          pure_eq_ok.mpr ⟨rfl, rfl⟩⟩

namespace Class

/-! ## The body -/

/-- What follows the header of a class file, its superclass flag written as
`flag`. -/
def bodyPieces (flag : UInt8) (c : Class) : List Piece :=
  [.u16 c.access, .str c.name]
    ++ superPiecesWith flag c.superName
    ++ tablePieces (fun name => [.str name]) c.interfaces
    ++ tablePieces Field.pieces c.fields
    ++ tablePieces Method.pieces c.methods
    ++ tablePieces Attribute.pieces c.attributes

theorem readBody_eq_ok {minor major : UInt16} {c : Class} {r r' : Reader} :
    readBody minor major r = .ok c r' ↔
      c.minorVersion = minor ∧ c.majorVersion = major ∧
        ∃ flag, flag ≠ 0 ∧ Spans (c.bodyPieces flag) r r' := by
  unfold readBody bodyPieces
  simp only [bind_eq_ok, pure_eq_ok, readU16_eq_ok, readStr_eq_ok,
    readSuper_eq_ok, readNames_eq_ok, readFields_eq_ok, readMethods_eq_ok,
    readAttributes_eq_ok, spans_append, spans_cons_cons]
  constructor
  · intro h
    obtain ⟨access, t₁, h₁, name, t₂, h₂, superName, t₃, ⟨flag, hflag, h₃⟩,
      interfaces, t₄, h₄, fields, t₅, h₅, methods, t₆, h₆, attributes, t₇, h₇,
      rfl, rfl⟩ := h
    exact ⟨rfl, rfl, flag, hflag, t₆,
      ⟨t₅, ⟨t₄, ⟨t₃, ⟨t₂, ⟨t₁, h₁, h₂⟩, h₃⟩, h₄⟩, h₅⟩, h₆⟩, h₇⟩
  · intro h
    obtain ⟨rfl, rfl, flag, hflag, t₆,
      ⟨t₅, ⟨t₄, ⟨t₃, ⟨t₂, ⟨t₁, h₁, h₂⟩, h₃⟩, h₄⟩, h₅⟩, h₆⟩, h₇⟩ := h
    exact ⟨c.access, t₁, h₁, c.name, t₂, h₂, c.superName, t₃, ⟨flag, hflag, h₃⟩,
      c.interfaces, t₄, h₄, c.fields, t₅, h₅, c.methods, t₆, h₆, c.attributes,
      r', h₇, rfl, rfl⟩

/-! ## The header

Reading the header can fail for reasons of its own, so the actions of the wire
are lifted here. A lifted action succeeds when the action does. -/

theorem lift_eq_ok {α : Type} {action : Read α} {a : α} {r r' : Reader} :
    (action : ReadClass α) r = .ok a r' ↔ action r = .ok a r' := by
  show EStateM.adaptExcept ClassFileError.malformed action r = _ ↔ _
  unfold EStateM.adaptExcept
  cases action r with
  | ok a t => simp
  | error e t => simp

theorem lift_bind_eq_ok {α β : Type} {action : Read α} {f : α → ReadClass β}
    {b : β} {r r' : Reader} :
    ((action : ReadClass α) >>= f) r = .ok b r' ↔
      ∃ a t, action r = .ok a t ∧ f a t = .ok b r' := by
  simp only [bind_eq_ok, lift_eq_ok]

theorem lift_bind_of_ok {α β : Type} {action : Read α} {a : α}
    {f : α → ReadClass β} {r t : Reader} (h : action r = .ok a t) :
    ((action : ReadClass α) >>= f) r = f a t := by
  show EStateM.bind _ f r = f a t
  unfold EStateM.bind
  rw [lift_eq_ok.mpr h]

theorem throw_bind_ne_ok {α β : Type} {e : ClassFileError} {f : α → ReadClass β}
    {b : β} {r r' : Reader} : ((throw e : ReadClass α) >>= f) r ≠ .ok b r' := by
  intro h
  obtain ⟨a, t, hthrow, _⟩ := bind_eq_ok.mp h
  exact throw_ne_ok hthrow

/-- What a class file starts with. -/
def headerPieces (minor major : UInt16) : List Piece :=
  [.u32 magic, .u16 minor, .u16 major]

/-- A header that was written is read for what it says, and a version that is
too new is refused at once. -/
theorem readHeader_of_spans {minor major : UInt16} {r r' : Reader}
    (h : Spans (headerPieces minor major) r r') :
    readHeader r =
      if major > maxMajorVersion then .error (.unsupportedVersion major minor) r'
      else .ok (minor, major) r' := by
  unfold headerPieces at h
  simp only [spans_cons_cons] at h
  obtain ⟨t₁, hmagic, t₂, hminor, hmajor⟩ := h
  unfold readHeader
  rw [lift_bind_of_ok (readU32_eq_ok.mpr hmagic), if_neg (by simp)]
  dsimp only
  rw [lift_bind_of_ok (readU16_eq_ok.mpr hminor),
    lift_bind_of_ok (readU16_eq_ok.mpr hmajor)]
  split
  · rfl
  · rfl

theorem readHeader_eq_ok {minor major : UInt16} {r r' : Reader} :
    readHeader r = .ok (minor, major) r' ↔
      major ≤ maxMajorVersion ∧ Spans (headerPieces minor major) r r' := by
  constructor
  · intro h
    unfold readHeader at h
    obtain ⟨found, t₁, h₁, h⟩ := lift_bind_eq_ok.mp h
    by_cases hmagic : found ≠ magic
    · rw [if_pos hmagic] at h
      exact absurd h throw_bind_ne_ok
    · rw [if_neg hmagic] at h
      obtain ⟨minor', t₂, h₂, h⟩ := lift_bind_eq_ok.mp h
      obtain ⟨major', t₃, h₃, h⟩ := lift_bind_eq_ok.mp h
      by_cases hnew : major' > maxMajorVersion
      · rw [if_pos hnew] at h
        exact absurd h throw_bind_ne_ok
      · rw [if_neg hnew] at h
        obtain ⟨hpair, rfl⟩ := pure_eq_ok.mp h
        injection hpair with hminor hmajor
        subst hminor hmajor
        obtain rfl := not_not.mp hmagic
        refine ⟨UInt16.not_lt.mp hnew,
          spans_cons_cons.mpr ⟨t₁, readU32_eq_ok.mp h₁, ?_⟩⟩
        exact spans_cons_cons.mpr ⟨t₂, readU16_eq_ok.mp h₂, readU16_eq_ok.mp h₃⟩
  · intro h
    obtain ⟨hle, h⟩ := h
    rw [readHeader_of_spans h, if_neg (UInt16.not_lt.mpr hle)]

/-! ## The whole file -/

/-- What a class file of `c` holds, its superclass flag written as `flag`. -/
def piecesWith (flag : UInt8) (c : Class) : List Piece :=
  headerPieces c.minorVersion c.majorVersion ++ c.bodyPieces flag

theorem piecesWith_one (c : Class) : c.piecesWith 1 = c.pieces := by
  unfold piecesWith bodyPieces headerPieces pieces
  cases c.superName with
  | none => simp [superPiecesWith, superPieces]
  | some name => simp [superPiecesWith, superPieces]

theorem read_eq_ok {c : Class} {r r' : Reader} :
    Class.read r = .ok c r' ↔
      c.majorVersion ≤ maxMajorVersion ∧ r'.rest = [] ∧
        ∃ flag, flag ≠ 0 ∧ Spans (c.piecesWith flag) r r' := by
  unfold Class.read
  rw [bind_eq_ok]
  constructor
  · intro h
    obtain ⟨⟨minor, major⟩, t, hheader, h⟩ := h
    obtain ⟨c', t', hbody, h⟩ := lift_bind_eq_ok.mp h
    obtain ⟨_, t'', hfinish, h⟩ := lift_bind_eq_ok.mp h
    obtain ⟨rfl, rfl⟩ := pure_eq_ok.mp h
    obtain ⟨hempty, rfl⟩ := finish_eq_ok.mp hfinish
    obtain ⟨hle, hheader⟩ := readHeader_eq_ok.mp hheader
    obtain ⟨rfl, rfl, flag, hflag, hbody⟩ := readBody_eq_ok.mp hbody
    exact ⟨hle, hempty, flag, hflag, spans_append.mpr ⟨t, hheader, hbody⟩⟩
  · intro h
    obtain ⟨hle, hempty, flag, hflag, h⟩ := h
    obtain ⟨t, hheader, hbody⟩ := spans_append.mp h
    refine ⟨(c.minorVersion, c.majorVersion), t,
      readHeader_eq_ok.mpr ⟨hle, hheader⟩, ?_⟩
    have hbody := readBody_eq_ok.mpr ⟨rfl, rfl, flag, hflag, hbody⟩
    refine lift_bind_eq_ok.mpr ⟨c, r', hbody, ?_⟩
    refine lift_bind_eq_ok.mpr ⟨(), r', finish_eq_ok.mpr ⟨hempty, rfl⟩, ?_⟩
    exact pure_eq_ok.mpr ⟨rfl, rfl⟩

/-- The class files of `c` are what is written for it, with any flag but zero
for a superclass, as long as its version is understood. -/
theorem decode_eq_ok {data : Bytes} {c : Class} :
    decode data = .ok c ↔
      c.majorVersion ≤ maxMajorVersion ∧
        ∃ flag, flag ≠ 0 ∧ Piece.encode (c.piecesWith flag) = .ok data := by
  have hdecode : decode data = .ok c ↔
      ∃ r', Class.read (Reader.start data) = .ok c r' := by
    unfold decode
    cases Class.read (Reader.start data) with
    | ok c' r' => simp
    | error e r' => simp
  rw [hdecode]
  simp only [read_eq_ok, ← spans_start_iff]
  constructor
  · intro h
    obtain ⟨r', hle, hempty, flag, hflag, h⟩ := h
    exact ⟨hle, flag, hflag, r', hempty, h⟩
  · intro h
    obtain ⟨hle, flag, hflag, r', hempty, h⟩ := h
    exact ⟨r', hle, hempty, flag, hflag, h⟩

/-- A class of a version that is too new can be written, and what is written is
refused for its version. -/
theorem decode_of_newer {data : Bytes} {c : Class} {flag : UInt8}
    (h : Piece.encode (c.piecesWith flag) = .ok data)
    (hnew : c.majorVersion > maxMajorVersion) :
    decode data = .error (.unsupportedVersion c.majorVersion c.minorVersion) := by
  obtain ⟨r', _, hspans⟩ := spans_start_iff.mpr h
  obtain ⟨t, hheader, _⟩ := spans_append.mp hspans
  have herror := readHeader_of_spans hheader
  rw [if_pos hnew] at herror
  have hread : Class.read (Reader.start data)
      = .error (.unsupportedVersion c.majorVersion c.minorVersion) t := by
    show EStateM.bind readHeader _ _ = _
    unfold EStateM.bind
    rw [herror]
  unfold decode
  rw [hread]

theorem encode_eq_ok {options : WriterOptions} {c : Class} {data : Bytes} :
    c.encode options = .ok data ↔
      Piece.encode ((options.prepare c).piecesWith 1) = .ok data := by
  unfold encode
  rw [piecesWith_one]
  exact mapError_eq_ok

end Class

end ClassLoom
