import ClassLoom.Proofs.ExactWire

/-!
# Where a reader stands after any reading

Reading goes on after a failure, so a reader can have any mixture of successes and failures
behind it, over data that nobody wrote with reading in mind. What holds all the same is that
it stands somewhere in its buffer, and that every operation moves it forward by some of the
bytes that are left (`perform_moves`): nothing is read twice, and nothing beyond the end.

How far a failing operation moves depends on where it fails. `ReadOp.GivesUp` lists the ways:
a number or a length that is cut off costs nothing, a payload that is cut off costs its
length, and a payload that is no text is gone with its length. The list is complete, so an
operation that is in none of these situations succeeds.
-/

namespace ClassLoom.Wire

/-- An operation of a reader. -/
inductive ReadOp where
  | u8
  | u16
  | u32
  | str
  | blob
  | finish
  deriving DecidableEq, Repr

/-- What an operation gives. -/
inductive Value where
  | number (n : Nat)
  | text (t : String)
  | data (d : Bytes)
  /-- The end of the data. -/
  | done
  deriving DecidableEq

namespace ReadOp

/-- The reading action of the operation. -/
def action : ReadOp → Read Value
  | u8 => do return .number (← readU8).toNat
  | u16 => do return .number (← readU16).toNat
  | u32 => do return .number (← readU32).toNat
  | str => do return .text (← readStr)
  | blob => do return .data (← readBlob)
  | finish => do
    Wire.finish
    return .done

/-- The number of bytes of the number that the operation begins with: the one that it gives,
or the length of what it gives. -/
def front : ReadOp → Nat
  | u8 => 1
  | u16 | str => 2
  | u32 | blob => 4
  | finish => 0

/-- The operation reads a length first and then that many bytes. -/
def HasPayload (op : ReadOp) : Prop :=
  op = str ∨ op = blob

end ReadOp

namespace Reader

/-- The reader after the next `n` bytes. -/
def skip (r : Reader) (n : Nat) : Reader := ⟨r.position + n, r.rest.drop n⟩

/-- The number in the next `width` bytes. -/
def number (r : Reader) (width : Nat) : Nat := ofDigits (r.rest.take width)

/-- Does one operation, which leaves a reader behind in any case. -/
def perform (r : Reader) (op : ReadOp) : Except DecodeError Value × Reader :=
  match op.action r with
  | .ok value r' => (.ok value, r')
  | .error e r' => (.error e, r')

/-- Does operations one after the other, whatever becomes of each of them. -/
def performAll (r : Reader) : List ReadOp → List (Except DecodeError Value) × Reader
  | [] => ([], r)
  | op :: ops =>
    let (answer, r) := r.perform op
    let (answers, r) := r.performAll ops
    (answer :: answers, r)

end Reader

/-- The ways in which an operation fails, each with its error and with the reader that it
leaves behind. -/
inductive ReadOp.GivesUp (r : Reader) : ReadOp → DecodeError → Reader → Prop
  /-- The number that the operation begins with is cut off. Nothing is consumed. -/
  | front {op : ReadOp} (hshort : r.remaining < op.front) :
      GivesUp r op (.unexpectedEnd r.position) r
  /-- The payload is cut off. Its length is consumed. -/
  | payload {op : ReadOp} (hop : op.HasPayload) (hfront : op.front ≤ r.remaining)
      (hshort : r.remaining < op.front + r.number op.front) :
      GivesUp r op (.unexpectedEnd (r.position + op.front)) (r.skip op.front)
  /-- The payload is there and is no text. It is consumed with its length. -/
  | noText (hwhole : 2 + r.number 2 ≤ r.remaining)
      (hbad : ∀ text, utf8 text ≠ (r.rest.drop 2).take (r.number 2)) :
      GivesUp r .str (.invalidUtf8 (r.position + 2)) (r.skip (2 + r.number 2))
  /-- There is more to read. -/
  | trailing (hmore : 0 < r.remaining) :
      GivesUp r .finish (.trailingBytes r.remaining) r

/-! ## One operation -/

namespace Reader

section Operations

variable {r : Reader} {n width : Nat}

theorem take_of_le (h : n ≤ r.remaining) : take n r = .ok (r.rest.take n) (r.skip n) := by
  unfold take
  dsimp only
  rw [if_pos (List.length_take_of_le h)]
  rfl

theorem take_of_lt (h : r.remaining < n) : take n r = .error (.unexpectedEnd r.position) r := by
  have hshort : (r.rest.take n).length ≠ n := by
    rw [List.length_take]
    unfold remaining at h
    omega
  unfold take
  dsimp only
  rw [if_neg hshort]

theorem number_lt (h : width ≤ r.remaining) : r.number width < 256 ^ width := by
  have hlt := ofDigits_lt (r.rest.take width)
  rwa [List.length_take_of_le h] at hlt

theorem remaining_skip (r : Reader) (n : Nat) : (r.skip n).remaining = r.remaining - n :=
  List.length_drop

theorem skip_skip (r : Reader) (m n : Nat) : (r.skip m).skip n = r.skip (m + n) := by
  simp [skip, Nat.add_assoc]

theorem perform_of_ok {op : ReadOp} {value : Value} {r' : Reader} (h : op.action r = .ok value r') :
    r.perform op = (.ok value, r') := by
  unfold perform
  rw [h]

theorem perform_of_error {op : ReadOp} {e : DecodeError} {r' : Reader}
    (h : op.action r = .error e r') : r.perform op = (.error e, r') := by
  unfold perform
  rw [h]

/-! ### Numbers -/

section Numbers

variable {α : Type} {ofNat : Nat → α}

/-- All three number actions are of this form. -/
theorem takeNumber_of_le (h : width ≤ r.remaining) :
    (do return ofNat (ofDigits (← take width)) : Read α) r =
      .ok (ofNat (r.number width)) (r.skip width) :=
  bind_of_ok (take_of_le h)

theorem takeNumber_of_lt (h : r.remaining < width) :
    (do return ofNat (ofDigits (← take width)) : Read α) r =
      .error (.unexpectedEnd r.position) r :=
  bind_of_error (take_of_lt h)

end Numbers

theorem toNat_number_two (h : 2 ≤ r.remaining) : (r.number 2).toUInt16.toNat = r.number 2 :=
  UInt16.toNat_ofNat_of_lt' (number_lt h)

theorem toNat_number_four (h : 4 ≤ r.remaining) : (r.number 4).toUInt32.toNat = r.number 4 :=
  UInt32.toNat_ofNat_of_lt' (number_lt h)

theorem perform_u8 (h : 1 ≤ r.remaining) :
    r.perform .u8 = (.ok (.number (r.number 1)), r.skip 1) := by
  have hto : (r.number 1).toUInt8.toNat = r.number 1 := UInt8.toNat_ofNat_of_lt' (number_lt h)
  rw [← hto]
  exact perform_of_ok (bind_of_ok (takeNumber_of_le h))

theorem perform_u16 (h : 2 ≤ r.remaining) :
    r.perform .u16 = (.ok (.number (r.number 2)), r.skip 2) := by
  rw [← toNat_number_two h]
  exact perform_of_ok (bind_of_ok (takeNumber_of_le h))

theorem perform_u32 (h : 4 ≤ r.remaining) :
    r.perform .u32 = (.ok (.number (r.number 4)), r.skip 4) := by
  rw [← toNat_number_four h]
  exact perform_of_ok (bind_of_ok (takeNumber_of_le h))

/-- Every operation begins with its number. -/
theorem perform_of_lt_front {op : ReadOp} (h : r.remaining < op.front) :
    r.perform op = (.error (.unexpectedEnd r.position), r) := by
  refine perform_of_error ?_
  cases op with
  | u8 | u16 | u32 => exact bind_of_error (takeNumber_of_lt h)
  | str | blob => exact bind_of_error (bind_of_error (takeNumber_of_lt h))
  | finish => exact absurd h (Nat.not_lt_zero _)

/-! ### Payloads -/

theorem readStr_of_le (h : 2 ≤ r.remaining) :
    readStr r = (do
      let payload ← take (r.number 2)
      match ofUtf8? payload with
      | some text => return text
      | none => throw (.invalidUtf8 (r.position + 2)) : Read String) (r.skip 2) := by
  have hfront : readU16 r = .ok (r.number 2).toUInt16 (r.skip 2) := takeNumber_of_le h
  rw [← toNat_number_two h]
  exact bind_of_ok hfront

theorem readBlob_of_le (h : 4 ≤ r.remaining) : readBlob r = take (r.number 4) (r.skip 4) := by
  have hfront : readU32 r = .ok (r.number 4).toUInt32 (r.skip 4) := takeNumber_of_le h
  rw [← toNat_number_four h]
  exact bind_of_ok hfront

theorem perform_of_lt_payload {op : ReadOp} (hop : op.HasPayload) (hfront : op.front ≤ r.remaining)
    (hshort : r.remaining < op.front + r.number op.front) :
    r.perform op = (.error (.unexpectedEnd (r.position + op.front)), r.skip op.front) := by
  have hrest : (r.skip op.front).remaining < r.number op.front := by
    rw [remaining_skip]
    omega
  refine perform_of_error ?_
  rcases hop with rfl | rfl
  · refine bind_of_error ((readStr_of_le hfront).trans ?_)
    exact bind_of_error (take_of_lt hrest)
  · exact bind_of_error ((readBlob_of_le hfront).trans (take_of_lt hrest))

theorem take_payload {width : Nat} (h : width + r.number width ≤ r.remaining) :
    take (r.number width) (r.skip width) =
      .ok ((r.rest.drop width).take (r.number width)) (r.skip (width + r.number width)) := by
  have hrest : r.number width ≤ (r.skip width).remaining := by
    rw [remaining_skip]
    omega
  rw [take_of_le hrest, skip_skip]
  rfl

theorem perform_str_of_text (h : 2 + r.number 2 ≤ r.remaining) {text : String}
    (htext : utf8 text = (r.rest.drop 2).take (r.number 2)) :
    r.perform .str = (.ok (.text text), r.skip (2 + r.number 2)) := by
  refine perform_of_ok (bind_of_ok ((readStr_of_le (by omega)).trans ?_))
  rw [bind_of_ok (take_payload h), ofUtf8?_eq_some_iff.mpr htext]
  rfl

theorem perform_str_of_noText (h : 2 + r.number 2 ≤ r.remaining)
    (hbad : ∀ text, utf8 text ≠ (r.rest.drop 2).take (r.number 2)) :
    r.perform .str = (.error (.invalidUtf8 (r.position + 2)), r.skip (2 + r.number 2)) := by
  have hnone : ofUtf8? ((r.rest.drop 2).take (r.number 2)) = none :=
    Option.eq_none_iff_forall_ne_some.mpr fun text htext =>
      hbad text (ofUtf8?_eq_some_iff.mp htext)
  refine perform_of_error (bind_of_error ((readStr_of_le (by omega)).trans ?_))
  rw [bind_of_ok (take_payload h), hnone]
  rfl

theorem perform_blob (h : 4 + r.number 4 ≤ r.remaining) :
    r.perform .blob =
      (.ok (.data ((r.rest.drop 4).take (r.number 4))), r.skip (4 + r.number 4)) := by
  refine perform_of_ok (bind_of_ok ((readBlob_of_le (by omega)).trans ?_))
  exact take_payload h

theorem perform_finish :
    r.perform .finish =
      (if 0 < r.remaining then .error (.trailingBytes r.remaining) else .ok .done, r) := by
  cases hrest : r.remaining with
  | zero =>
      have hend : finish r = .ok () r := by
        unfold finish
        rw [hrest]
        rfl
      exact perform_of_ok (bind_of_ok hend)
  | succ n =>
      have hmore : finish r = .error (.trailingBytes (n + 1)) r := by
        unfold finish
        rw [hrest]
        rfl
      exact perform_of_error (bind_of_error hmore)

/-! ### Every way to end -/

theorem skip_zero (r : Reader) : r.skip 0 = r := rfl

/-- An operation that gives up has moved forward all the same, or not at all. -/
theorem GivesUp.moves {op : ReadOp} {e : DecodeError} {r' : Reader} (h : op.GivesUp r e r') :
    ∃ n ≤ r.remaining, r' = r.skip n := by
  cases h with
  | front => exact ⟨0, Nat.zero_le _, r.skip_zero.symm⟩
  | payload _ hfront => exact ⟨_, hfront, rfl⟩
  | noText hwhole => exact ⟨_, hwhole, rfl⟩
  | trailing => exact ⟨0, Nat.zero_le _, r.skip_zero.symm⟩

theorem GivesUp.perform {op : ReadOp} {e : DecodeError} {r' : Reader} (h : op.GivesUp r e r') :
    r.perform op = (.error e, r') := by
  cases h with
  | front hshort => exact perform_of_lt_front hshort
  | payload hop hfront hshort => exact perform_of_lt_payload hop hfront hshort
  | noText hwhole hbad => exact perform_str_of_noText hwhole hbad
  | trailing hmore => rw [perform_finish, if_pos hmore]

/-- An operation succeeds and moves forward, or it gives up in one of the listed ways. -/
theorem perform_cases (r : Reader) (op : ReadOp) :
    (∃ value n, n ≤ r.remaining ∧ r.perform op = (.ok value, r.skip n)) ∨
      ∃ e r', op.GivesUp r e r' ∧ r.perform op = (.error e, r') := by
  rcases Nat.lt_or_ge r.remaining op.front with hshort | hfront
  · exact .inr ⟨_, _, .front hshort, perform_of_lt_front hshort⟩
  cases op with
  | u8 => exact .inl ⟨_, _, hfront, perform_u8 hfront⟩
  | u16 => exact .inl ⟨_, _, hfront, perform_u16 hfront⟩
  | u32 => exact .inl ⟨_, _, hfront, perform_u32 hfront⟩
  | str =>
      rcases Nat.lt_or_ge r.remaining (2 + r.number 2) with hshort | hwhole
      · exact .inr ⟨_, _, .payload (.inl rfl) hfront hshort,
          perform_of_lt_payload (.inl rfl) hfront hshort⟩
      · by_cases htext : ∃ text, utf8 text = (r.rest.drop 2).take (r.number 2)
        · obtain ⟨text, htext⟩ := htext
          exact .inl ⟨_, _, hwhole, perform_str_of_text hwhole htext⟩
        · have hbad := not_exists.mp htext
          exact .inr ⟨_, _, .noText hwhole hbad, perform_str_of_noText hwhole hbad⟩
  | blob =>
      rcases Nat.lt_or_ge r.remaining (4 + r.number 4) with hshort | hwhole
      · exact .inr ⟨_, _, .payload (.inr rfl) hfront hshort,
          perform_of_lt_payload (.inr rfl) hfront hshort⟩
      · exact .inl ⟨_, _, hwhole, perform_blob hwhole⟩
  | finish =>
      by_cases hmore : 0 < r.remaining
      · exact .inr ⟨_, _, .trailing hmore, by rw [perform_finish, if_pos hmore]⟩
      · refine .inl ⟨.done, 0, Nat.zero_le _, ?_⟩
        rw [perform_finish, if_neg hmore, skip_zero]

theorem perform_eq_error_iff {op : ReadOp} {e : DecodeError} {r' : Reader} :
    r.perform op = (.error e, r') ↔ op.GivesUp r e r' := by
  refine ⟨fun h => ?_, GivesUp.perform⟩
  rcases r.perform_cases op with ⟨_, _, -, hok⟩ | ⟨_, _, hgives, herror⟩
  · rw [hok] at h
    cases h
  · rw [herror] at h
    cases h
    exact hgives

theorem perform_moves (r : Reader) (op : ReadOp) :
    ∃ n ≤ r.remaining, (r.perform op).2 = r.skip n := by
  rcases r.perform_cases op with ⟨_, n, hn, hok⟩ | ⟨_, _, hgives, herror⟩
  · exact ⟨n, hn, by rw [hok]⟩
  · rw [herror]
    exact GivesUp.moves hgives

end Operations

/-! ## Any number of operations -/

/-- The reader stands at a place in the buffer. -/
structure Within (r : Reader) (data : Bytes) : Prop where
  rest_eq : r.rest = data.drop r.position
  position_le : r.position ≤ data.length

section Histories

variable {r : Reader} {data : Bytes}

theorem performAll_cons (r : Reader) (op : ReadOp) (ops : List ReadOp) :
    r.performAll (op :: ops) =
      ((r.perform op).1 :: ((r.perform op).2.performAll ops).1,
        ((r.perform op).2.performAll ops).2) := rfl

theorem within_start (data : Bytes) : (start data).Within data :=
  ⟨rfl, Nat.zero_le _⟩

theorem Within.remaining_add_position (h : r.Within data) :
    r.remaining + r.position = data.length := by
  unfold remaining
  rw [h.rest_eq, List.length_drop]
  exact Nat.sub_add_cancel h.position_le

theorem Within.skip (h : r.Within data) {n : Nat} (hn : n ≤ r.remaining) :
    (r.skip n).Within data := by
  have htotal := h.remaining_add_position
  refine ⟨?_, ?_⟩
  · show r.rest.drop n = data.drop (r.position + n)
    rw [h.rest_eq, List.drop_drop]
  · show r.position + n ≤ data.length
    omega

theorem Within.perform (h : r.Within data) (op : ReadOp) : (r.perform op).2.Within data := by
  obtain ⟨n, hn, hmoved⟩ := r.perform_moves op
  rw [hmoved]
  exact h.skip hn

theorem Within.performAll (h : r.Within data) (ops : List ReadOp) :
    (r.performAll ops).2.Within data := by
  induction ops generalizing r with
  | nil => exact h
  | cons op ops ih => exact ih (h.perform op)

theorem hasMore_iff : r.hasMore = true ↔ 0 < r.remaining := by
  unfold hasMore remaining
  rw [List.length_pos_iff]
  simp

end Histories

/-- Whatever was read from a buffer before, with or without success, the reader stands at a
place in the buffer and knows how much is left. The next operation moves it forward, and not
beyond the end. It fails in the listed ways and in no other, the check for the end of the
data just when there is more. -/
theorem performAll_within (data : Bytes) (past : List ReadOp) :
    let r := ((start data).performAll past).2
    r.rest = data.drop r.position ∧ r.position ≤ data.length ∧
    r.remaining + r.position = data.length ∧
    (r.hasMore = true ↔ 0 < r.remaining) ∧
    (∀ op, r.position ≤ (r.perform op).2.position ∧
      (r.perform op).2.position ≤ data.length) ∧
    (∀ op e r', r.perform op = (.error e, r') ↔ op.GivesUp r e r') ∧
    r.perform .finish =
      (if 0 < r.remaining then .error (.trailingBytes r.remaining) else .ok .done, r) := by
  intro r
  have h : r.Within data := (within_start data).performAll past
  refine ⟨h.rest_eq, h.position_le, h.remaining_add_position, hasMore_iff, fun op => ?_,
    fun op e r' => perform_eq_error_iff, perform_finish⟩
  obtain ⟨n, hn, hmoved⟩ := r.perform_moves op
  refine ⟨?_, (h.perform op).position_le⟩
  rw [hmoved]
  exact Nat.le_add_right _ _

-- A number that is cut off leaves the last byte for the next operation, a text that is none
-- is gone.
example : ((start [1, 2, 3]).performAll [.u16, .u16, .u8, .finish]).1 =
    [.ok (.number 258), .error (.unexpectedEnd 2), .ok (.number 3), .ok .done] := by decide
example : (start [0, 2, 0xC3, 0x28]).performAll [.str, .str] =
    ([.error (.invalidUtf8 2), .error (.unexpectedEnd 4)], ⟨4, []⟩) := by decide +kernel

end Reader

end ClassLoom.Wire
