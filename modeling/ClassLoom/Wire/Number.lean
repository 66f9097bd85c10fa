/-!
# Numbers as bytes

Numbers are written to base 256 with a fixed number of digits, the most
significant first. Reading digits back gives the number again, up to the multiple
of the base's power that the digits could not hold.
-/

namespace ClassLoom

/-- Binary data. -/
abbrev Bytes := List UInt8

namespace Wire

/-- The lowest `width` digits of `n` to base 256, the most significant first. -/
def digits : Nat → Nat → Bytes
  | 0, _ => []
  | width + 1, n => digits width (n / 256) ++ [n.toUInt8]

/-- The number whose digits to base 256 are given, the most significant first. -/
def ofDigits (ds : Bytes) : Nat :=
  ds.foldl (fun n d => n * 256 + d.toNat) 0

@[simp] theorem length_digits (width n : Nat) : (digits width n).length = width := by
  induction width generalizing n with
  | zero => rfl
  | succ width ih => simp [digits, ih]

theorem ofDigits_append_singleton (ds : Bytes) (d : UInt8) :
    ofDigits (ds ++ [d]) = ofDigits ds * 256 + d.toNat := by
  simp [ofDigits]

end Wire

end ClassLoom
