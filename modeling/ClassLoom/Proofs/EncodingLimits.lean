import ClassLoom.Proofs.ExactWire
import ClassLoom.Proofs.LocalHints

/-!
# Which classes can be written

A class has no written form if some length in it is too much for the prefix that is to
announce it. There are a dozen places where this can happen, and several may be wrong at
once. Here the lengths of a class are written down as data, in the order of the layout:
`Class.measures` has one entry for each prefix, with the width of the prefix, and it does
not mention numbers, which always fit, or how anything is written.

The encoder works on pieces, and a piece announces at most one length. So the error of a
sequence of pieces is that of the first of its lengths that does not fit
(`Piece.encode_eq_error_iff`), and what remains is that the lengths of the pieces of a class
are its measures. Raising the hints of methods changes none of them, so the options of the
encoder make no difference.
-/

namespace ClassLoom

open Wire (Piece)

/-! ## Measures -/

/-- A length and the width of the prefix that announces it. -/
structure Measure where
  length : Nat
  /-- The number of bits. -/
  width : Nat
  deriving DecidableEq, Repr

namespace Measure

/-- The prefix can hold the length. -/
def Fits (m : Measure) : Prop :=
  m.length < 2 ^ m.width

instance (m : Measure) : Decidable m.Fits :=
  inferInstanceAs (Decidable (_ < _))

/-- The error of a length that does not fit. -/
def overflow (m : Measure) : Wire.EncodeError :=
  .lengthOverflow m.length m.width

/-- A text is measured in bytes. -/
def ofText (text : String) : Measure :=
  ⟨text.utf8ByteSize, 16⟩

def ofData (data : Bytes) : Measure :=
  ⟨data.length, 32⟩

/-- The number of items of a table. -/
def ofItems {α : Type} (items : List α) : Measure :=
  ⟨items.length, 16⟩

/-- The lengths in a table: first the number of its items, then those in each item. -/
def ofTable {α : Type} (item : α → List Measure) (items : List α) : List Measure :=
  ofItems items :: items.flatMap item

end Measure

def Attribute.measures (a : Attribute) : List Measure :=
  [.ofText a.name, .ofData a.data]

def Field.measures (f : Field) : List Measure :=
  [.ofText f.name, .ofText f.descriptor] ++ Measure.ofTable Attribute.measures f.attributes

def Method.measures (m : Method) : List Measure :=
  [.ofText m.name, .ofText m.descriptor, .ofData m.code] ++
    Measure.ofTable Attribute.measures m.attributes

/-- The lengths that a class file announces, in the order of the layout. -/
def Class.measures (c : Class) : List Measure :=
  (c.name :: c.superName.toList).map .ofText ++
    Measure.ofTable (fun name => [.ofText name]) c.interfaces ++
    Measure.ofTable Field.measures c.fields ++
    Measure.ofTable Method.measures c.methods ++
    Measure.ofTable Attribute.measures c.attributes

/-! ## Limits -/

/-- The attribute stays within the limits of the layout. -/
structure Attribute.WithinLimits (a : Attribute) : Prop where
  name : a.name.utf8ByteSize ≤ 65535
  data : a.data.length < 2 ^ 32

/-- The field stays within the limits of the layout. -/
structure Field.WithinLimits (f : Field) : Prop where
  name : f.name.utf8ByteSize ≤ 65535
  descriptor : f.descriptor.utf8ByteSize ≤ 65535
  attributes_length : f.attributes.length ≤ 65535
  attributes : ∀ a ∈ f.attributes, a.WithinLimits

/-- The method stays within the limits of the layout. -/
structure Method.WithinLimits (m : Method) : Prop where
  name : m.name.utf8ByteSize ≤ 65535
  descriptor : m.descriptor.utf8ByteSize ≤ 65535
  code : m.code.length < 2 ^ 32
  attributes_length : m.attributes.length ≤ 65535
  attributes : ∀ a ∈ m.attributes, a.WithinLimits

/-- The class stays within the limits of the layout. -/
structure Class.WithinLimits (c : Class) : Prop where
  name : c.name.utf8ByteSize ≤ 65535
  superName : ∀ name ∈ c.superName, name.utf8ByteSize ≤ 65535
  interfaces_length : c.interfaces.length ≤ 65535
  interfaces : ∀ name ∈ c.interfaces, name.utf8ByteSize ≤ 65535
  fields_length : c.fields.length ≤ 65535
  fields : ∀ f ∈ c.fields, f.WithinLimits
  methods_length : c.methods.length ≤ 65535
  methods : ∀ m ∈ c.methods, m.WithinLimits
  attributes_length : c.attributes.length ≤ 65535
  attributes : ∀ a ∈ c.attributes, a.WithinLimits

theorem Measure.fits_ofText {text : String} : (ofText text).Fits ↔ text.utf8ByteSize ≤ 65535 :=
  Nat.lt_succ_iff

theorem Measure.fits_ofItems {α : Type} {items : List α} :
    (ofItems items).Fits ↔ items.length ≤ 65535 :=
  Nat.lt_succ_iff

theorem Measure.fits_ofData {data : Bytes} : (ofData data).Fits ↔ data.length < 2 ^ 32 :=
  Iff.rfl

theorem Measure.fits_ofTable {α : Type} {item : α → List Measure} {items : List α} :
    (∀ m ∈ ofTable item items, m.Fits) ↔
      items.length ≤ 65535 ∧ ∀ x ∈ items, ∀ m ∈ item x, m.Fits := by
  unfold ofTable
  rw [List.forall_mem_cons, fits_ofItems, List.forall_mem_flatMap]

theorem Attribute.withinLimits_iff (a : Attribute) :
    a.WithinLimits ↔ ∀ m ∈ a.measures, m.Fits := by
  unfold measures
  simp only [List.forall_mem_cons, Measure.fits_ofText, Measure.fits_ofData,
    List.not_mem_nil, false_imp_iff, implies_true, and_true]
  exact ⟨fun h => ⟨h.name, h.data⟩, fun h => ⟨h.1, h.2⟩⟩

theorem Field.withinLimits_iff (f : Field) : f.WithinLimits ↔ ∀ m ∈ f.measures, m.Fits := by
  unfold measures
  simp only [List.forall_mem_append, List.forall_mem_cons, Measure.fits_ofText,
    Measure.fits_ofTable, ← Attribute.withinLimits_iff, List.not_mem_nil, false_imp_iff,
    implies_true, and_true]
  constructor
  · intro h
    exact ⟨⟨h.name, h.descriptor⟩, h.attributes_length, h.attributes⟩
  · rintro ⟨⟨hname, hdescriptor⟩, hlength, hattributes⟩
    exact ⟨hname, hdescriptor, hlength, hattributes⟩

theorem Method.withinLimits_iff (m : Method) : m.WithinLimits ↔ ∀ l ∈ m.measures, l.Fits := by
  unfold measures
  simp only [List.forall_mem_append, List.forall_mem_cons, Measure.fits_ofText,
    Measure.fits_ofData, Measure.fits_ofTable, ← Attribute.withinLimits_iff, List.not_mem_nil,
    false_imp_iff, implies_true, and_true]
  constructor
  · intro h
    exact ⟨⟨h.name, h.descriptor, h.code⟩, h.attributes_length, h.attributes⟩
  · rintro ⟨⟨hname, hdescriptor, hcode⟩, hlength, hattributes⟩
    exact ⟨hname, hdescriptor, hcode, hlength, hattributes⟩

theorem Class.withinLimits_iff (c : Class) : c.WithinLimits ↔ ∀ m ∈ c.measures, m.Fits := by
  unfold measures
  simp only [List.forall_mem_append, List.forall_mem_map, List.forall_mem_cons,
    Measure.fits_ofText, Measure.fits_ofTable, ← Field.withinLimits_iff,
    ← Method.withinLimits_iff, ← Attribute.withinLimits_iff, Option.mem_toList,
    List.not_mem_nil, false_imp_iff, implies_true, and_true]
  constructor
  · intro h
    exact ⟨⟨⟨⟨⟨h.name, h.superName⟩, h.interfaces_length, h.interfaces⟩,
      h.fields_length, h.fields⟩, h.methods_length, h.methods⟩,
      h.attributes_length, h.attributes⟩
  · rintro ⟨⟨⟨⟨⟨hname, hsuper⟩, hinterfaces⟩, hfields⟩, hmethods⟩, hattributes⟩
    exact {
      name := hname
      superName := hsuper
      interfaces_length := hinterfaces.1
      interfaces := hinterfaces.2
      fields_length := hfields.1
      fields := hfields.2
      methods_length := hmethods.1
      methods := hmethods.2
      attributes_length := hattributes.1
      attributes := hattributes.2 }

/-! ## Pieces -/

namespace Wire

/-- The length that a piece announces, if it announces one. -/
def Piece.measure? : Piece → Option Measure
  | .u8 _ | .u16 _ | .u32 _ => none
  | .str v => some (.ofText v)
  | .blob v => some (.ofData v)
  | .count n => some ⟨n, 16⟩

theorem Piece.fits_iff {p : Piece} : p.Fits ↔ ∀ m, p.measure? = some m → m.Fits := by
  cases p with
  | u8 _ | u16 _ | u32 _ => simp [Piece.Fits, Piece.measure?]
  | str v =>
      simp only [Piece.measure?, Option.some.injEq, forall_eq']
      rfl
  | blob v =>
      simp only [Piece.measure?, Option.some.injEq, forall_eq']
      rfl
  | count n =>
      simp only [Piece.measure?, Option.some.injEq, forall_eq']
      rfl

/-- A length in front of something is written like this. -/
theorem announce_eq_error_iff (m : Measure) (written : Bytes) {e : EncodeError} :
    (if m.Fits then Except.ok written else .error m.overflow) = .error e ↔
      ¬ m.Fits ∧ e = m.overflow := by
  split
  · next h => simp [h]
  · next h =>
      rw [Except.error.injEq, and_iff_right h]
      exact eq_comm

theorem Piece.bytes_eq_error_iff {p : Piece} {e : EncodeError} :
    p.bytes = .error e ↔ ∃ m, p.measure? = some m ∧ ¬ m.Fits ∧ e = m.overflow := by
  cases p with
  | u8 _ | u16 _ | u32 _ => simp [Piece.bytes, Piece.measure?]
  | str v =>
      simp only [Piece.measure?, Option.some.injEq, exists_eq_left']
      exact map_eq_error.trans (announce_eq_error_iff (.ofText v) _)
  | blob v =>
      simp only [Piece.measure?, Option.some.injEq, exists_eq_left']
      exact map_eq_error.trans (announce_eq_error_iff (.ofData v) _)
  | count n =>
      simp only [Piece.measure?, Option.some.injEq, exists_eq_left']
      exact announce_eq_error_iff ⟨n, 16⟩ _

theorem Piece.encode_cons_eq_error_iff {p : Piece} {ps : List Piece} {e : EncodeError} :
    Piece.encode (p :: ps) = .error e ↔
      p.bytes = .error e ∨ (∃ a, p.bytes = .ok a) ∧ Piece.encode ps = .error e := by
  rw [Piece.encode_cons]
  cases p.bytes with
  | error e' => simp [Except.bind]
  | ok a => simp [Except.bind, map_eq_error]

/-- The error of a sequence is that of the first length that does not fit. -/
theorem Piece.encode_eq_error_iff {ps : List Piece} {e : EncodeError} :
    Piece.encode ps = .error e ↔
      ∃ m, (ps.filterMap Piece.measure?).find? (fun m => ¬ m.Fits) = some m ∧ e = m.overflow := by
  induction ps with
  | nil => simp [Piece.encode_nil]
  | cons p ps ih =>
      rw [Piece.encode_cons_eq_error_iff, Piece.bytes_eq_error_iff, Piece.exists_bytes_iff,
        Piece.fits_iff, ih]
      cases hmeasure : p.measure? with
      | none =>
          rw [List.filterMap_cons_none hmeasure]
          simp
      | some m =>
          rw [List.filterMap_cons_some hmeasure]
          by_cases hfits : m.Fits
          · rw [List.find?_cons_of_neg (by simpa using hfits)]
            simp [hfits]
          · rw [List.find?_cons_of_pos (by simpa using hfits)]
            simp [hfits]

end Wire

/-! ## The pieces of a class -/

theorem filterMap_tablePieces {α : Type} {item : α → List Piece} {measures : α → List Measure}
    (hitem : ∀ x, (item x).filterMap Piece.measure? = measures x) (items : List α) :
    (tablePieces item items).filterMap Piece.measure? = Measure.ofTable measures items := by
  show Measure.ofItems items :: (items.flatMap item).filterMap Piece.measure? = _
  rw [List.filterMap_flatMap]
  simp only [hitem]
  rfl

theorem Attribute.filterMap_pieces (a : Attribute) :
    a.pieces.filterMap Piece.measure? = a.measures := rfl

theorem Field.filterMap_pieces (f : Field) : f.pieces.filterMap Piece.measure? = f.measures := by
  unfold pieces measures
  rw [List.filterMap_append, filterMap_tablePieces Attribute.filterMap_pieces]
  rfl

theorem Method.filterMap_pieces (m : Method) :
    m.pieces.filterMap Piece.measure? = m.measures := by
  unfold pieces measures
  rw [List.filterMap_append, filterMap_tablePieces Attribute.filterMap_pieces]
  rfl

theorem Class.filterMap_pieces (c : Class) : c.pieces.filterMap Piece.measure? = c.measures := by
  have hnames : ([Piece.u32 magic, .u16 c.minorVersion, .u16 c.majorVersion, .u16 c.access,
      .str c.name] ++ superPieces c.superName).filterMap Piece.measure? =
        (c.name :: c.superName.toList).map .ofText := by
    cases c.superName with
    | none => rfl
    | some name => rfl
  unfold pieces measures
  simp only [List.filterMap_append] at hnames ⊢
  rw [hnames, filterMap_tablePieces fun _ => rfl, filterMap_tablePieces Field.filterMap_pieces,
    filterMap_tablePieces Method.filterMap_pieces,
    filterMap_tablePieces Attribute.filterMap_pieces]
  rfl

theorem WriterOptions.measures_prepare (options : WriterOptions) (c : Class) :
    (options.prepare c).measures = c.measures := by
  rw [options.prepare_eq]
  unfold Class.measures Measure.ofTable
  rw [List.flatMap_map]
  simp only [Measure.ofItems, List.length_map]
  rfl

/-! ## Writing a class -/

namespace Class

/-- A class can be written just when it stays within the limits of the layout, and what
is wrong with any other class is the first of its lengths that does not fit, whatever the
options are. -/
theorem encode_reports_first_excess (c : Class) (options : WriterOptions) :
    ((∃ data, c.encode options = .ok data) ↔ c.WithinLimits) ∧
      ∀ e, c.encode options = .error e ↔
        ∃ m, c.measures.find? (fun m => ¬ m.Fits) = some m ∧
          e = .encode (.lengthOverflow m.length m.width) := by
  have hmeasures : (options.prepare c).pieces.filterMap Piece.measure? = c.measures := by
    rw [filterMap_pieces, options.measures_prepare]
  unfold encode
  constructor
  · have hfits : (∀ p ∈ (options.prepare c).pieces, p.Fits) ↔ ∀ m ∈ c.measures, m.Fits := by
      rw [← hmeasures]
      simp only [Wire.Piece.fits_iff, List.mem_filterMap]
      grind
    rw [c.withinLimits_iff, ← hfits, ← Piece.exists_encode_iff]
    simp only [mapError_eq_ok]
  · intro e
    rw [mapError_eq_error]
    simp only [Piece.encode_eq_error_iff, hmeasures]
    constructor
    · rintro ⟨_, ⟨m, hfirst, rfl⟩, rfl⟩
      exact ⟨m, hfirst, rfl⟩
    · rintro ⟨m, hfirst, rfl⟩
      exact ⟨_, ⟨m, hfirst, rfl⟩, rfl⟩

end Class

end ClassLoom
