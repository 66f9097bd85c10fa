import ClassLoom.Proofs.Success
import ClassLoom.Wire.Reader
import Mathlib.Algebra.GroupWithZero.Nat
import Mathlib.Data.List.Induction

/-!
# Reading accepts exactly what writing produces

Writing lists pieces and reading runs actions, and the two never mention each
other. This file ties them together from both sides at once: an action takes a
value off a reader if and only if the bytes that it passes over are the written
form of that value. One direction is the round trip, the other says that nothing
is skipped or normalised on the way in, and a statement with both of them is the
one that composes, because each step of a longer action hands the next one the
place where it stopped.

The places are the whole trick. `Between data r r'` says that `data` lies between
two places of a buffer, `Spans ps r r'` that the written form of `ps` does, and
both split at an intermediate place when their first argument is a concatenation.
So an action made of steps is opened into the places where its steps meet, and
no lemma here ever speaks of an offset.

A length prefix is where the two directions differ in kind. On the way out a
length has to be checked, since it may not fit; on the way in it always fits,
since the prefix that was read could hold it. `readU16_eq_ok_count` is that fact.
-/

namespace ClassLoom.Wire

/-! ## Numbers and texts -/

theorem ofDigits_digits (width n : Nat) :
    ofDigits (digits width n) = n % 256 ^ width := by
  induction width generalizing n with
  | zero => simp [digits, ofDigits, Nat.mod_one]
  | succ width ih =>
    rw [digits, ofDigits_append_singleton, ih, Nat.pow_succ,
      Nat.mul_comm (256 ^ width),
      Nat.mod_mul]
    have low : n.toUInt8.toNat = n % 256 := rfl
    omega

theorem foldl_digits_lt (ds : Bytes) (n : Nat) :
    ds.foldl (fun n d => n * 256 + d.toNat) n < (n + 1) * 256 ^ ds.length := by
  induction ds generalizing n with
  | nil => simp
  | cons d ds ih =>
    have step : n * 256 + d.toNat + 1 ≤ (n + 1) * 256 := by
      have := d.toNat_lt
      omega
    calc List.foldl _ (n * 256 + d.toNat) ds
        < (n * 256 + d.toNat + 1) * 256 ^ ds.length := ih _
      _ ≤ (n + 1) * 256 * 256 ^ ds.length := Nat.mul_le_mul_right _ step
      _ = (n + 1) * 256 ^ (ds.length + 1) := by
        rw [Nat.mul_assoc, ← Nat.pow_succ']

theorem ofDigits_lt (ds : Bytes) : ofDigits ds < 256 ^ ds.length := by
  simpa [ofDigits] using foldl_digits_lt ds 0

theorem digits_ofDigits (ds : Bytes) : digits ds.length (ofDigits ds) = ds := by
  induction ds using List.reverseRecOn with
  | nil => rfl
  | append_singleton ds d ih =>
      rw [ofDigits_append_singleton, List.length_append, List.length_singleton,
        digits]
      have hd := d.toNat_lt
      have hhigh : (ofDigits ds * 256 + d.toNat) / 256 = ofDigits ds := by omega
      have hlow : (ofDigits ds * 256 + d.toNat).toUInt8 = d := by
        apply UInt8.toNat_inj.mp
        show (ofDigits ds * 256 + d.toNat) % 256 = d.toNat
        omega
      rw [hhigh, hlow, ih]

theorem ofUtf8?_eq_some_iff {data : Bytes} {text : String} :
    ofUtf8? data = some text ↔ utf8 text = data := by
  unfold ofUtf8? utf8 String.fromUTF8?
  constructor
  · intro h
    split at h
    · injection h with h
      subst h
      rfl
    · cases h
  · intro h
    subst h
    have hvalid : ByteArray.IsValidUTF8 ⟨text.toByteArray.data.toList.toArray⟩ :=
      text.isValidUTF8
    rw [dif_pos hvalid]
    rfl

/-! ## Places in a buffer -/

/-- The bytes between two places of a buffer are `data`. -/
def Between (data : Bytes) (r r' : Reader) : Prop :=
  r.rest = data ++ r'.rest ∧ r'.position = r.position + data.length

theorem between_nil {r r' : Reader} : Between [] r r' ↔ r = r' := by
  constructor
  · intro h
    obtain ⟨hrest, hpos⟩ := h
    cases r
    cases r'
    simp_all
  · intro h
    subst h
    exact ⟨rfl, rfl⟩

theorem between_append {a b : Bytes} {r r' : Reader} :
    Between (a ++ b) r r' ↔ ∃ t, Between a r t ∧ Between b t r' := by
  constructor
  · intro h
    obtain ⟨hrest, hpos⟩ := h
    refine ⟨⟨r.position + a.length, b ++ r'.rest⟩, ⟨?_, rfl⟩, rfl, ?_⟩
    · rw [hrest, List.append_assoc]
    · rw [hpos, List.length_append, Nat.add_assoc]
  · intro h
    obtain ⟨t, ⟨hrest, hpos⟩, hrest', hpos'⟩ := h
    refine ⟨?_, ?_⟩
    · rw [hrest, hrest', List.append_assoc]
    · rw [hpos', hpos, List.length_append, Nat.add_assoc]

theorem take_eq_ok {n : Nat} {r r' : Reader} {data : Bytes} :
    take n r = .ok data r' ↔ data.length = n ∧ Between data r r' := by
  unfold take Between
  dsimp only
  constructor
  · intro h
    split at h
    · next hlen =>
        injection h with hdata hr
        subst hdata hr
        refine ⟨hlen, (List.take_append_drop n r.rest).symm, ?_⟩
        rw [hlen]
    · cases h
  · intro h
    obtain ⟨rfl, hrest, hpos⟩ := h
    have hfront : r.rest.take data.length = data := by
      rw [hrest, List.take_left]
    have hback : r.rest.drop data.length = r'.rest := by
      rw [hrest, List.drop_left]
    rw [hfront, if_pos rfl, hback, ← hpos]

theorem here_eq_ok {n : Nat} {r r' : Reader} :
    here r = .ok n r' ↔ r.position = n ∧ r = r' := by
  unfold here
  simp

theorem finish_eq_ok {r r' : Reader} :
    finish r = .ok () r' ↔ r.rest = [] ∧ r = r' := by
  unfold finish Reader.remaining
  cases r.rest with
  | nil => simp
  | cons b bs => simp

/-! ## Written forms -/

theorem Piece.encode_nil : Piece.encode [] = .ok [] := rfl

theorem Piece.encode_cons (p : Piece) (ps : List Piece) :
    Piece.encode (p :: ps) =
      p.bytes.bind fun a => (Piece.encode ps).map (a ++ ·) := by
  unfold Piece.encode
  rw [List.mapM_cons]
  cases p.bytes with
  | error e => rfl
  | ok a =>
      cases ps.mapM Piece.bytes with
      | error e => rfl
      | ok b => rfl

theorem Piece.encode_cons_eq_ok {p : Piece} {ps : List Piece} {data : Bytes} :
    Piece.encode (p :: ps) = .ok data ↔
      ∃ a b, p.bytes = .ok a ∧ Piece.encode ps = .ok b ∧ a ++ b = data := by
  rw [Piece.encode_cons]
  cases p.bytes with
  | error e => simp [Except.bind]
  | ok a =>
      cases Piece.encode ps with
      | error e => simp [Except.bind, Except.map]
      | ok b => simp [Except.bind, Except.map]

theorem Piece.encode_append_eq_ok {ps qs : List Piece} {data : Bytes} :
    Piece.encode (ps ++ qs) = .ok data ↔
      ∃ a b, Piece.encode ps = .ok a ∧ Piece.encode qs = .ok b ∧
        a ++ b = data := by
  induction ps generalizing data with
  | nil =>
      constructor
      · intro h
        exact ⟨[], data, rfl, h, rfl⟩
      · intro h
        obtain ⟨a, b, ha, hb, rfl⟩ := h
        injection ha with ha
        rw [← ha]
        exact hb
  | cons p ps ih =>
      rw [List.cons_append]
      simp only [Piece.encode_cons_eq_ok, ih]
      constructor
      · intro h
        obtain ⟨a, _, ha, ⟨b, c, hb, hc, rfl⟩, rfl⟩ := h
        exact ⟨a ++ b, c, ⟨a, b, ha, hb, rfl⟩, hc, List.append_assoc a b c⟩
      · intro h
        obtain ⟨_, c, ⟨a, b, ha, hb, rfl⟩, hc, rfl⟩ := h
        exact ⟨a, b ++ c, ha, ⟨b, c, hb, hc, rfl⟩, (List.append_assoc a b c).symm⟩

/-- How many bytes a piece takes. -/
def Piece.size : Piece → Nat
  | .u8 _ => 1
  | .u16 _ => 2
  | .u32 _ => 4
  | .str v => 2 + (utf8 v).length
  | .blob v => 4 + v.length
  | .count _ => 2

theorem Piece.length_of_bytes {p : Piece} {data : Bytes}
    (h : p.bytes = .ok data) :
    data.length = p.size := by
  unfold Piece.bytes length16 length32 at h
  unfold Piece.size
  split at h <;> grind [Except.map, length_digits]

theorem Piece.length_of_encode {ps : List Piece} {data : Bytes}
    (h : Piece.encode ps = .ok data) : data.length = (ps.map Piece.size).sum := by
  induction ps generalizing data with
  | nil =>
      injection h with h
      rw [← h]
      rfl
  | cons p ps ih =>
      obtain ⟨a, b, ha, hb, rfl⟩ := Piece.encode_cons_eq_ok.mp h
      rw [List.length_append, List.map_cons, List.sum_cons, ih hb,
        Piece.length_of_bytes ha]

/-- Whether the length of a piece fits in its prefix. -/
def Piece.Fits : Piece → Prop
  | .u8 _ | .u16 _ | .u32 _ => True
  | .str v => (utf8 v).length < UInt16.size
  | .blob v => v.length < UInt32.size
  | .count n => n < UInt16.size

theorem exists_length16_iff {n : Nat} : (∃ a, length16 n = .ok a) ↔ n < UInt16.size := by
  unfold length16
  split <;> simp [*]

theorem exists_length32_iff {n : Nat} : (∃ a, length32 n = .ok a) ↔ n < UInt32.size := by
  unfold length32
  split <;> simp [*]

theorem Piece.exists_bytes_iff {p : Piece} : (∃ a, p.bytes = .ok a) ↔ p.Fits := by
  cases p with
  | u8 _ | u16 _ | u32 _ => simp [Piece.bytes, Piece.Fits]
  | str _ => exact exists_map_eq_ok.trans exists_length16_iff
  | blob _ => exact exists_map_eq_ok.trans exists_length32_iff
  | count _ => exact exists_length16_iff

/-- Nothing but an excessive length keeps a sequence from being written. -/
theorem Piece.exists_encode_iff {ps : List Piece} :
    (∃ data, Piece.encode ps = .ok data) ↔ ∀ p ∈ ps, p.Fits := by
  induction ps with
  | nil => simp [Piece.encode_nil]
  | cons p ps ih =>
      rw [List.forall_mem_cons, ← ih, ← Piece.exists_bytes_iff]
      simp only [Piece.encode_cons_eq_ok]
      constructor
      · rintro ⟨_, a, b, ha, hb, _⟩
        exact ⟨⟨a, ha⟩, b, hb⟩
      · rintro ⟨⟨a, ha⟩, b, hb⟩
        exact ⟨a ++ b, a, b, ha, hb, rfl⟩

/-! ## Spans -/

/-- The bytes between two places of a buffer are the written form of `ps`. -/
def Spans (ps : List Piece) (r r' : Reader) : Prop :=
  ∃ data, Piece.encode ps = .ok data ∧ Between data r r'

theorem spans_nil {r r' : Reader} : Spans [] r r' ↔ r = r' := by
  rw [← between_nil]
  constructor
  · intro h
    obtain ⟨data, hdata, h⟩ := h
    injection hdata with hdata
    rw [← hdata] at h
    exact h
  · intro h
    exact ⟨[], rfl, h⟩

theorem spans_append {ps qs : List Piece} {r r' : Reader} :
    Spans (ps ++ qs) r r' ↔ ∃ t, Spans ps r t ∧ Spans qs t r' := by
  constructor
  · intro h
    obtain ⟨data, hdata, hbetween⟩ := h
    obtain ⟨a, b, ha, hb, rfl⟩ := Piece.encode_append_eq_ok.mp hdata
    obtain ⟨t, hrt, htr⟩ := between_append.mp hbetween
    exact ⟨t, ⟨a, ha, hrt⟩, b, hb, htr⟩
  · intro h
    obtain ⟨t, ⟨a, ha, hrt⟩, b, hb, htr⟩ := h
    exact ⟨a ++ b, Piece.encode_append_eq_ok.mpr ⟨a, b, ha, hb, rfl⟩,
      between_append.mpr ⟨t, hrt, htr⟩⟩

theorem spans_cons {p : Piece} {ps : List Piece} {r r' : Reader} :
    Spans (p :: ps) r r' ↔ ∃ t, Spans [p] r t ∧ Spans ps t r' :=
  @spans_append [p] ps r r'

/-- `spans_cons` as a rewriting rule: it stops at a single piece. -/
theorem spans_cons_cons {p q : Piece} {ps : List Piece} {r r' : Reader} :
    Spans (p :: q :: ps) r r' ↔ ∃ t, Spans [p] r t ∧ Spans (q :: ps) t r' :=
  spans_cons

theorem spans_single {p : Piece} {r r' : Reader} :
    Spans [p] r r' ↔ ∃ data, p.bytes = .ok data ∧ Between data r r' := by
  unfold Spans
  rw [Piece.encode_cons]
  cases p.bytes with
  | error e => simp [Except.bind]
  | ok a => simp [Except.bind, Except.map, Piece.encode_nil]

/-- What the whole buffer spans is what it holds. -/
theorem spans_start_iff {ps : List Piece} {data : Bytes} :
    (∃ r', r'.rest = [] ∧ Spans ps (Reader.start data) r') ↔
      Piece.encode ps = .ok data := by
  constructor
  · intro h
    obtain ⟨r', hempty, written, hwritten, hrest, hpos⟩ := h
    rw [hempty, List.append_nil] at hrest
    rw [hwritten, ← hrest]
    rfl
  · intro h
    refine ⟨⟨data.length, []⟩, rfl, data, h, (List.append_nil data).symm, ?_⟩
    exact (Nat.zero_add _).symm

theorem spans_count {n : Nat} {r r' : Reader} :
    Spans [.count n] r r' ↔ n < UInt16.size ∧ Spans [.u16 n.toUInt16] r r' := by
  rw [spans_single, spans_single]
  unfold Piece.bytes length16
  dsimp only
  by_cases hn : n < UInt16.size
  · have hto : n.toUInt16.toNat = n := UInt16.toNat_ofNat_of_lt' hn
    rw [if_pos hn, hto, and_iff_right hn]
  · rw [if_neg hn]
    constructor
    · intro h
      obtain ⟨data, hdata, _⟩ := h
      cases hdata
    · intro h
      exact absurd h.1 hn

/-- A text is a count and then its bytes. -/
theorem spans_str {text : String} {r r' : Reader} :
    Spans [.str text] r r' ↔
      ∃ t, Spans [.count (utf8 text).length] r t ∧ Between (utf8 text) t r' := by
  simp only [spans_single, Piece.bytes]
  cases length16 (utf8 text).length with
  | error e => simp [Except.map]
  | ok front => simp [Except.map, between_append]

/-- A blob is its length in four bytes and then its bytes. -/
theorem spans_blob {data : Bytes} {r r' : Reader} :
    Spans [.blob data] r r' ↔ data.length < UInt32.size ∧
      ∃ t, Spans [.u32 data.length.toUInt32] r t ∧ Between data t r' := by
  simp only [spans_single]
  unfold Piece.bytes length32
  dsimp only
  by_cases hlen : data.length < UInt32.size
  · have hto : data.length.toUInt32.toNat = data.length :=
      UInt32.toNat_ofNat_of_lt' hlen
    rw [if_pos hlen, hto, and_iff_right hlen]
    simp only [Except.map, Except.ok.injEq, exists_eq_left', between_append]
  · rw [if_neg hlen]
    constructor
    · intro h
      obtain ⟨written, hwritten, _⟩ := h
      cases hwritten
    · intro h
      exact absurd h.1 hlen

/-! ## The reading actions -/

/-- The three number actions are one: digits are taken and converted. -/
theorem takeNumber_eq_ok {α : Type} {width : Nat} {ofNat : Nat → α}
    {toNat : α → Nat} (hlt : ∀ v, toNat v < 256 ^ width)
    (hof : ∀ v, ofNat (toNat v) = v)
    (hto : ∀ n, n < 256 ^ width → toNat (ofNat n) = n) {v : α} {r r' : Reader} :
    (do return ofNat (ofDigits (← take width)) : Read α) r = .ok v r' ↔
      Between (digits width (toNat v)) r r' := by
  rw [bind_eq_ok]
  constructor
  · intro h
    obtain ⟨data, t, htake, hpure⟩ := h
    obtain ⟨rfl, rfl⟩ := pure_eq_ok.mp hpure
    obtain ⟨rfl, h⟩ := take_eq_ok.mp htake
    rwa [hto _ (ofDigits_lt data), digits_ofDigits]
  · intro h
    refine ⟨digits width (toNat v), r', take_eq_ok.mpr ⟨length_digits _ _, h⟩, ?_⟩
    refine pure_eq_ok.mpr ⟨?_, rfl⟩
    rw [ofDigits_digits, Nat.mod_eq_of_lt (hlt v), hof]

theorem readU8_eq_ok {v : UInt8} {r r' : Reader} :
    readU8 r = .ok v r' ↔ Spans [.u8 v] r r' := by
  have hbytes : (Piece.u8 v).bytes = .ok (digits 1 v.toNat) := by
    simp [Piece.bytes, digits]
  rw [spans_single, hbytes]
  simp only [Except.ok.injEq, exists_eq_left']
  exact takeNumber_eq_ok (fun v => v.toNat_lt) (fun v => UInt8.ofNat_toNat)
    (fun n hn => UInt8.toNat_ofNat_of_lt' hn)

theorem readU16_eq_ok {v : UInt16} {r r' : Reader} :
    readU16 r = .ok v r' ↔ Spans [.u16 v] r r' := by
  rw [spans_single]
  simp only [Piece.bytes, Except.ok.injEq, exists_eq_left']
  exact takeNumber_eq_ok (fun v => v.toNat_lt) (fun v => UInt16.ofNat_toNat)
    (fun n hn => UInt16.toNat_ofNat_of_lt' hn)

theorem readU32_eq_ok {v : UInt32} {r r' : Reader} :
    readU32 r = .ok v r' ↔ Spans [.u32 v] r r' := by
  rw [spans_single]
  simp only [Piece.bytes, Except.ok.injEq, exists_eq_left']
  exact takeNumber_eq_ok (fun v => v.toNat_lt) (fun v => UInt32.ofNat_toNat)
    (fun n hn => UInt32.toNat_ofNat_of_lt' hn)

/-- What a prefix of two bytes can hold always fits. -/
theorem readU16_eq_ok_count {v : UInt16} {r r' : Reader} :
    readU16 r = .ok v r' ↔ Spans [.count v.toNat] r r' := by
  have hof : v.toNat.toUInt16 = v := UInt16.ofNat_toNat
  rw [readU16_eq_ok, spans_count, hof]
  exact (and_iff_right v.toNat_lt).symm

theorem readStr_eq_ok {text : String} {r r' : Reader} :
    readStr r = .ok text r' ↔ Spans [.str text] r r' := by
  unfold readStr
  rw [spans_str, bind_eq_ok]
  constructor
  · intro h
    obtain ⟨length, t, hlength, h⟩ := h
    obtain ⟨start, t', hstart, h⟩ := bind_eq_ok.mp h
    obtain ⟨rfl, rfl⟩ := here_eq_ok.mp hstart
    obtain ⟨payload, t', htake, h⟩ := bind_eq_ok.mp h
    cases htext : ofUtf8? payload with
    | none => rw [htext] at h; exact absurd h throw_ne_ok
    | some found =>
        rw [htext] at h
        obtain ⟨rfl, rfl⟩ := pure_eq_ok.mp h
        obtain rfl := ofUtf8?_eq_some_iff.mp htext
        obtain ⟨hlen, hbetween⟩ := take_eq_ok.mp htake
        refine ⟨t, ?_, hbetween⟩
        rw [hlen]
        exact readU16_eq_ok_count.mp hlength
  · intro h
    obtain ⟨t, hcount, hbetween⟩ := h
    obtain ⟨hlt, hu16⟩ := spans_count.mp hcount
    have hto : (utf8 text).length.toUInt16.toNat = (utf8 text).length :=
      UInt16.toNat_ofNat_of_lt' hlt
    refine ⟨_, t, readU16_eq_ok.mpr hu16, ?_⟩
    refine bind_eq_ok.mpr ⟨t.position, t, here_eq_ok.mpr ⟨rfl, rfl⟩, ?_⟩
    refine bind_eq_ok.mpr ⟨utf8 text, r', take_eq_ok.mpr ⟨hto.symm, hbetween⟩, ?_⟩
    rw [ofUtf8?_eq_some_iff.mpr rfl]
    exact pure_eq_ok.mpr ⟨rfl, rfl⟩

theorem readBlob_eq_ok {data : Bytes} {r r' : Reader} :
    readBlob r = .ok data r' ↔ Spans [.blob data] r r' := by
  unfold readBlob
  rw [spans_blob, bind_eq_ok]
  constructor
  · intro h
    obtain ⟨length, t, hlength, htake⟩ := h
    obtain ⟨hlen, hbetween⟩ := take_eq_ok.mp htake
    have hto : data.length.toUInt32 = length := by
      rw [hlen]
      exact UInt32.ofNat_toNat
    refine ⟨?_, t, ?_, hbetween⟩
    · rw [hlen]
      exact length.toNat_lt
    · rw [hto]
      exact readU32_eq_ok.mp hlength
  · intro h
    obtain ⟨hlt, t, hu32, hbetween⟩ := h
    have hto : data.length.toUInt32.toNat = data.length :=
      UInt32.toNat_ofNat_of_lt' hlt
    exact ⟨_, t, readU32_eq_ok.mpr hu32, take_eq_ok.mpr ⟨hto.symm, hbetween⟩⟩

end ClassLoom.Wire
