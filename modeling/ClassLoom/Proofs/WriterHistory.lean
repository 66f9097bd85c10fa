import ClassLoom.Proofs.ReaderHistory

/-!
# What a writer holds after any writing

A writer may be given pieces that have no written form, at any time and any number of times.
Each of them is answered with its error, and otherwise it is as if it had never been there:
the buffer, the offsets and the answers to all other pieces are those of a writer that was
given the other pieces only (`emitAll_filter`).

So whatever was done to it, a writer holds the written form of the pieces that fit, and that
can be read back piece by piece. The pieces may follow each other in ways that no class file
knows: where one of them ends is told by its own bytes.
-/

namespace ClassLoom.Wire

namespace Piece

instance (p : Piece) : Decidable p.Fits :=
  match p with
  | .u8 _ | .u16 _ | .u32 _ => inferInstanceAs (Decidable True)
  | .str v => inferInstanceAs (Decidable ((utf8 v).length < UInt16.size))
  | .blob v => inferInstanceAs (Decidable (v.length < UInt32.size))
  | .count n => inferInstanceAs (Decidable (n < UInt16.size))

/-- The operation that reads the piece. -/
def readOp : Piece → ReadOp
  | .u8 _ => .u8
  | .u16 _ | .count _ => .u16
  | .u32 _ => .u32
  | .str _ => .str
  | .blob _ => .blob

/-- What was written. -/
def value : Piece → Value
  | .u8 v => .number v.toNat
  | .u16 v => .number v.toNat
  | .u32 v => .number v.toNat
  | .str v => .text v
  | .blob v => .data v
  | .count n => .number n

/-- The bytes of the piece, if it has a written form. -/
def written? (p : Piece) : Option Bytes :=
  p.bytes.toOption

theorem exists_error_of_not_fits {p : Piece} (h : ¬ p.Fits) : ∃ e, p.bytes = .error e := by
  cases hbytes : p.bytes with
  | error e => exact ⟨e, rfl⟩
  | ok data => exact absurd (exists_bytes_iff.mp ⟨data, hbytes⟩) h

/-- The bytes of those pieces that fit are the written form of the row that is left when the
others are taken out. -/
theorem encode_filter (ps : List Piece) :
    encode (ps.filter fun p => p.Fits) = .ok (ps.filterMap written?).flatten := by
  induction ps with
  | nil => rfl
  | cons p ps ih =>
      by_cases h : p.Fits
      · obtain ⟨data, hdata⟩ := exists_bytes_iff.mpr h
        have hwritten : p.written? = some data := by rw [written?, hdata]; rfl
        rw [List.filter_cons_of_pos (by simpa using h), List.filterMap_cons_some hwritten]
        exact encode_cons_eq_ok.mpr ⟨data, _, hdata, ih, rfl⟩
      · obtain ⟨e, he⟩ := exists_error_of_not_fits h
        have hwritten : p.written? = none := by rw [written?, he]; rfl
        rwa [List.filter_cons_of_neg (by simpa using h), List.filterMap_cons_none hwritten]

end Piece

/-! ## Writing -/

namespace Writer

variable {w : Writer} {p : Piece}

theorem emit_of_ok {data : Bytes} (h : p.bytes = .ok data) :
    w.emit p = (.ok data, ⟨data :: w.chunks, w.offset + data.length⟩) := by
  unfold emit
  rw [h]

theorem emit_of_error {e : EncodeError} (h : p.bytes = .error e) : w.emit p = (.error e, w) := by
  unfold emit
  rw [h]

theorem fst_emit (w : Writer) (p : Piece) : (w.emit p).1 = p.bytes := by
  cases h : p.bytes with
  | ok data => rw [emit_of_ok h]
  | error e => rw [emit_of_error h]

theorem emitAll_cons (w : Writer) (p : Piece) (ps : List Piece) :
    w.emitAll (p :: ps) =
      ((p.bytes, (w.emit p).2.offset) :: ((w.emit p).2.emitAll ps).1,
        ((w.emit p).2.emitAll ps).2) := by
  rw [← w.fst_emit p]
  rfl

theorem bytes_emit (w : Writer) (p : Piece) :
    (w.emit p).2.bytes = w.bytes ++ p.written?.toList.flatten := by
  unfold Piece.written?
  cases h : p.bytes with
  | ok data =>
      rw [emit_of_ok h]
      simp [bytes, Except.toOption]
  | error e =>
      rw [emit_of_error h]
      simp [Except.toOption]

theorem offset_emit (w : Writer) (p : Piece) :
    (w.emit p).2.offset = w.offset + (([p].filter fun p => p.Fits).map Piece.size).sum := by
  by_cases hfits : p.Fits
  · obtain ⟨data, h⟩ := Piece.exists_bytes_iff.mpr hfits
    rw [emit_of_ok h, Piece.length_of_bytes h]
    simp [hfits]
  · obtain ⟨e, h⟩ := Piece.exists_error_of_not_fits hfits
    rw [emit_of_error h]
    simp [hfits]

theorem bytes_emitAll (w : Writer) (ps : List Piece) :
    (w.emitAll ps).2.bytes = w.bytes ++ (ps.filterMap Piece.written?).flatten := by
  induction ps generalizing w with
  | nil => simp [emitAll]
  | cons p ps ih =>
      rw [emitAll_cons, ih, bytes_emit, List.append_assoc]
      cases h : p.written? with
      | none => simp [h]
      | some data => simp [h]

theorem offset_emitAll (w : Writer) (ps : List Piece) :
    (w.emitAll ps).2.offset =
      w.offset + ((ps.filter fun p => p.Fits).map Piece.size).sum := by
  induction ps generalizing w with
  | nil => rfl
  | cons p ps ih =>
      rw [emitAll_cons, ih, offset_emit, Nat.add_assoc, ← List.sum_append, ← List.map_append,
        ← List.filter_append, List.singleton_append]

theorem length_emitAll (w : Writer) (ps : List Piece) : (w.emitAll ps).1.length = ps.length := by
  induction ps generalizing w with
  | nil => rfl
  | cons p ps ih => rw [emitAll_cons, List.length_cons, ih, List.length_cons]

/-- Each piece is answered by what it adds, and the offset counts what was added so far. -/
theorem getElem?_emitAll (w : Writer) (before : List Piece) (p : Piece) (after : List Piece) :
    (w.emitAll (before ++ p :: after)).1[before.length]? =
      some (p.bytes,
        w.offset + (((before ++ [p]).filter fun p => p.Fits).map Piece.size).sum) := by
  induction before generalizing w with
  | nil =>
      rw [List.nil_append, emitAll_cons, offset_emit]
      rfl
  | cons first before ih =>
      rw [List.cons_append, emitAll_cons, List.length_cons, List.getElem?_cons_succ, ih,
        offset_emit, Nat.add_assoc, ← List.sum_append, ← List.map_append, ← List.filter_append]
      rfl

/-- Pieces that do not fit might as well be left out. -/
theorem emitAll_filter (w : Writer) (ps : List Piece) :
    w.emitAll (ps.filter fun p => p.Fits) =
      ((w.emitAll ps).1.filter fun step => step.1.isOk, (w.emitAll ps).2) := by
  induction ps generalizing w with
  | nil => rfl
  | cons p ps ih =>
      by_cases hfits : p.Fits
      · obtain ⟨data, h⟩ := Piece.exists_bytes_iff.mpr hfits
        rw [List.filter_cons_of_pos (by simpa using hfits), emitAll_cons, emitAll_cons, ih,
          List.filter_cons_of_pos (by rw [h]; rfl)]
      · obtain ⟨e, h⟩ := Piece.exists_error_of_not_fits hfits
        rw [List.filter_cons_of_neg (by simpa using hfits), emitAll_cons, ih,
          List.filter_cons_of_neg (by rw [h]; exact Bool.false_ne_true), emit_of_error h]

end Writer

/-! ## Reading back -/

namespace Reader

variable {r r' : Reader}

theorem perform_of_spans {p : Piece} (h : Spans [p] r r') :
    r.perform p.readOp = (.ok p.value, r') := by
  refine perform_of_ok ?_
  cases p with
  | u8 v => exact bind_of_ok (readU8_eq_ok.mpr h)
  | u16 v => exact bind_of_ok (readU16_eq_ok.mpr h)
  | u32 v => exact bind_of_ok (readU32_eq_ok.mpr h)
  | str v => exact bind_of_ok (readStr_eq_ok.mpr h)
  | blob v => exact bind_of_ok (readBlob_eq_ok.mpr h)
  | count n =>
      obtain ⟨hn, h⟩ := spans_count.mp h
      have hto : n.toUInt16.toNat = n := UInt16.toNat_ofNat_of_lt' hn
      have hread := bind_of_ok (f := fun v => (pure (.number v.toNat) : Read Value))
        (readU16_eq_ok.mpr h)
      rwa [hto] at hread

theorem performAll_of_spans {ps : List Piece} (h : Spans ps r r') :
    r.performAll (ps.map Piece.readOp) = (ps.map fun p => .ok p.value, r') := by
  induction ps generalizing r with
  | nil =>
      rw [spans_nil.mp h]
      rfl
  | cons p ps ih =>
      obtain ⟨t, hfirst, hrest⟩ := spans_cons.mp h
      rw [List.map_cons, performAll_cons, perform_of_spans hfirst, ih hrest, List.map_cons]

theorem performAll_append (r : Reader) (before after : List ReadOp) :
    r.performAll (before ++ after) =
      ((r.performAll before).1 ++ ((r.performAll before).2.performAll after).1,
        ((r.performAll before).2.performAll after).2) := by
  induction before generalizing r with
  | nil => rfl
  | cons op before ih =>
      rw [List.cons_append, performAll_cons, ih, performAll_cons, List.cons_append]

end Reader

/-- What was written is read back, up to the end and not beyond. -/
theorem performAll_of_encode {ps : List Piece} {data : Bytes} (h : Piece.encode ps = .ok data) :
    (Reader.start data).performAll (ps.map Piece.readOp ++ [.finish]) =
      (ps.map (fun p => .ok p.value) ++ [.ok .done], ⟨data.length, []⟩) := by
  obtain ⟨r, hend, hspans⟩ := spans_start_iff.mpr h
  have hplace := (Reader.within_start data).performAll (ps.map Piece.readOp)
  have hread := Reader.performAll_of_spans hspans
  have hr : r = ⟨data.length, []⟩ := by
    rw [hread] at hplace
    have htotal := hplace.remaining_add_position
    rw [Reader.remaining, hend, List.length_nil, Nat.zero_add] at htotal
    rw [← htotal, ← hend]
  have hfinish : r.perform .finish = (.ok .done, r) := by
    have hnone : ¬ 0 < r.remaining := by simp [Reader.remaining, hend]
    rw [Reader.perform_finish, if_neg hnone]
  rw [Reader.performAll_append, hread, Reader.performAll_cons, hfinish, hr]
  rfl

/-- Whatever a writer is given, it holds the bytes of the pieces that fit, one after the
other. Each piece is answered by its bytes or its error; the offset after it counts the
bytes of the pieces so far that fit, so one that does not fit leaves it alone; and without
those that do not fit the answers to the others and what is held are the same. What is held
is read back: each piece that fits gives what was written, and then the data ends. -/
theorem Writer.emitAll_read_back (ps : List Piece) :
    let steps := (empty.emitAll ps).1
    let w := (empty.emitAll ps).2
    let written := ps.filter fun p => p.Fits
    steps.length = ps.length ∧
    (∀ before p after, ps = before ++ p :: after →
      steps[before.length]? =
        some (p.bytes, (((before ++ [p]).filter fun p => p.Fits).map Piece.size).sum)) ∧
    (∀ p : Piece, (∃ data, p.bytes = .ok data) ↔ p.Fits) ∧
    w.bytes = (ps.filterMap Piece.written?).flatten ∧
    w.offset = w.bytes.length ∧
    empty.emitAll written = (steps.filter fun step => step.1.isOk, w) ∧
    (Reader.start w.bytes).performAll (written.map Piece.readOp ++ [.finish]) =
      (written.map (fun p => .ok p.value) ++ [.ok .done], ⟨w.bytes.length, []⟩) := by
  intro steps w written
  have hbytes : w.bytes = (ps.filterMap Piece.written?).flatten := empty.bytes_emitAll ps
  have hencode : Piece.encode written = .ok w.bytes := by
    rw [hbytes]
    exact Piece.encode_filter ps
  refine ⟨empty.length_emitAll ps, ?_, fun p => Piece.exists_bytes_iff, hbytes, ?_,
    empty.emitAll_filter ps, performAll_of_encode hencode⟩
  · rintro before p after rfl
    have hstep := empty.getElem?_emitAll before p after
    rwa [show empty.offset = 0 from rfl, Nat.zero_add] at hstep
  · have hoffset := empty.offset_emitAll ps
    rwa [← Piece.length_of_encode hencode, show empty.offset = 0 from rfl, Nat.zero_add] at hoffset

/-- A count that does not fit stands between two pieces that do. -/
theorem Writer.emitAll_read_back_past_count :
    let ps : List Piece := [.u8 7, .count 70000, .str "ab"]
    let data : Bytes := [7, 0, 2, 97, 98]
    (empty.emitAll ps).1[1]? = some (.error (.lengthOverflow 70000 16), 1) ∧
      (empty.emitAll ps).2.bytes = data ∧
      (Reader.start data).performAll [.u8, .str, .finish] =
        ([.ok (.number 7), .ok (.text "ab"), .ok .done], ⟨5, []⟩) := by
  intro ps data
  obtain ⟨-, hsteps, -, hbytes, -, -, hread⟩ := emitAll_read_back ps
  have hdata : (empty.emitAll ps).2.bytes = data := hbytes.trans (by decide +kernel)
  have hfits : (ps.filter fun p => p.Fits) = [.u8 7, .str "ab"] := by decide +kernel
  rw [hfits, hdata] at hread
  exact ⟨hsteps [.u8 7] (.count 70000) [.str "ab"] rfl, hdata, hread⟩

end ClassLoom.Wire
