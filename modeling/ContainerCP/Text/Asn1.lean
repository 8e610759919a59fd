import ContainerCP.Text.Bytes

/-! Numbers in bytes, and the two forms of ASN.1 that a signature is made of. -/
namespace ContainerCP.Asn1

/-- A number in so many bytes, the highest one first. What has no room is left out. -/
def bigEndian : Nat → Nat → Bytes
  | 0, _ => []
  | width + 1, n => UInt8.ofNat (n / 256 ^ width) :: bigEndian width n

/-- The bytes that a number needs with a bit for its sign. -/
def integerWidth (n : Nat) : Nat := (n.log2 + 1) / 8 + 1

/-- An INTEGER of less than 128 bytes. -/
def integer (n : Nat) : Bytes := 0x02 :: UInt8.ofNat (integerWidth n) :: bigEndian (integerWidth n) n

/-- A SEQUENCE of less than 128 bytes. -/
def sequence (content : Bytes) : Bytes := 0x30 :: UInt8.ofNat content.length :: content

@[simp]
theorem length_bigEndian (width n : Nat) : (bigEndian width n).length = width := by
  induction width with
  | zero => rfl
  | succ width ih => rw [bigEndian, List.length_cons, ih]

@[simp]
theorem length_integer (n : Nat) : (integer n).length = integerWidth n + 2 := by
  simp [integer]

/-- The width is the least that has room for the sign. -/
theorem integerWidth_le_iff {width : Nat} (h : 0 < width) (n : Nat) : integerWidth n ≤ width ↔ n < 2 ^ (8 * width - 1) := by
  have hPow : 0 < 2 ^ (8 * width - 1) := Nat.two_pow_pos _
  rcases Nat.eq_zero_or_pos n with rfl | hPos
  · simp [integerWidth, hPow]
    omega
  · rw [← Nat.log2_lt (Nat.pos_iff_ne_zero.mp hPos), integerWidth]
    omega

/-- A number of so many bytes needs one more for the sign, at most. -/
theorem integerWidth_le {width n : Nat} (h : n < 2 ^ (8 * width)) : integerWidth n ≤ width + 1 := by
  rw [integerWidth_le_iff (Nat.succ_pos _)]
  exact h.trans_le (Nat.pow_le_pow_right (by decide) (by omega))

end ContainerCP.Asn1
