import ContainerCP.Text.Asn1

/-! The signature of a request to the certificate authority: from the form that the signing
function returns to the two numbers that the request carries. -/
namespace ContainerCP.Ssl

open Asn1 (integerWidth)

/-- One of the two numbers: where the next one starts, and the bytes that are taken. A number
of 33 bytes is taken without the first of them. -/
def takeInteger (sig : Bytes) (off : Nat) : Nat × Bytes :=
  if off + 2 < sig.length ∧ sig.getD off 0 = 0x02 then
    let len := (sig.getD (off + 1) 0).toNat
    let start := if len = 33 then off + 3 else off + 2
    let len := if len = 33 then 32 else len
    if start + len ≤ sig.length then (start + len, (sig.drop start).take len) else (start, [])
  else (off, [])

/-- The conversion of a signature before it is written into the request. -/
def rawSignature (sig : Bytes) : Bytes :=
  if 8 ≤ sig.length ∧ sig.getD 0 0 = 0x30 then
    let r := takeInteger sig 2
    r.2 ++ (takeInteger sig r.1).2
  else sig

/-- What is taken of a number. -/
def takenOf (n : Nat) : Bytes := if integerWidth n = 33 then Asn1.bigEndian 32 n else Asn1.bigEndian (integerWidth n) n

section Integers

variable {n : Nat}

/-- A number in front of the rest of a signature is taken whole. -/
theorem takeInteger_integer (h : n < 2 ^ 256) (front behind : Bytes) :
    takeInteger (front ++ (Asn1.integer n ++ behind)) front.length =
      (front.length + (Asn1.integer n).length, takenOf n) := by
  have hWidth : integerWidth n ≤ 33 := Asn1.integerWidth_le h
  have hPos : 0 < integerWidth n := Nat.succ_pos _
  have hLen : (UInt8.ofNat (integerWidth n)).toNat = integerWidth n := by
    rw [UInt8.toNat_ofNat']
    omega
  have hSig : front ++ (Asn1.integer n ++ behind) =
      front ++ 0x02 :: UInt8.ofNat (integerWidth n) :: (Asn1.bigEndian (integerWidth n) n ++ behind) := rfl
  have hFirst : (front ++ (Asn1.integer n ++ behind)).getD front.length 0 = 0x02 := by
    simp [hSig]
  have hSecond : (front ++ (Asn1.integer n ++ behind)).getD (front.length + 1) 0 = UInt8.ofNat (integerWidth n) := by
    simp [hSig]
  have hBehind : ∀ k, (front ++ (Asn1.integer n ++ behind)).drop (front.length + 2 + k) =
      (Asn1.bigEndian (integerWidth n) n ++ behind).drop k := by
    intro k
    rw [hSig, Nat.add_assoc, List.drop_length_add_append, Nat.add_comm 2 k]
    rfl
  have hLength : (front ++ (Asn1.integer n ++ behind)).length = front.length + (integerWidth n + 2) + behind.length := by
    simp
    omega
  rw [takeInteger, if_pos ⟨by omega, hFirst⟩, hSecond]
  simp only [hLen, takenOf, Asn1.length_integer]
  split
  · next hLong =>
    rw [if_pos (by omega), hBehind 1, hLong, List.drop_append_of_le_length (by simp)]
    simp only [Asn1.bigEndian, List.drop_succ_cons, List.drop_zero]
    rw [List.take_left' (by simp)]
  · rw [if_pos (by omega), ← Nat.add_zero (front.length + 2), hBehind 0, List.drop_zero]
    rw [List.take_left' (Asn1.length_bigEndian _ _)]
    simp
    omega

theorem length_takenOf (h : n < 2 ^ 256) : (takenOf n).length = min (integerWidth n) 32 := by
  have hWidth : integerWidth n ≤ 33 := Asn1.integerWidth_le h
  rw [takenOf]
  split
  · simp [*]
  · simp
    omega

/-- What is taken has 32 bytes from 2^247 on, and else it is shorter. -/
theorem length_takenOf_iff (h : n < 2 ^ 256) : (takenOf n).length = 32 ↔ 2 ^ 247 ≤ n := by
  have hShort : integerWidth n ≤ 31 ↔ n < 2 ^ 247 := Asn1.integerWidth_le_iff (by decide) n
  rw [length_takenOf h, ← not_lt, ← hShort]
  omega

theorem takenOf_eq (h : n < 2 ^ 256) (hLong : 2 ^ 247 ≤ n) : takenOf n = Asn1.bigEndian 32 n := by
  have hLength := (length_takenOf_iff h).mpr hLong
  rw [takenOf] at hLength ⊢
  split
  · rfl
  · next hWidth =>
    rw [if_neg hWidth, Asn1.length_bigEndian] at hLength
    rw [hLength]

end Integers

/-- The signature as the signing function returns it. -/
def derSignature (r s : Nat) : Bytes := Asn1.sequence (Asn1.integer r ++ Asn1.integer s)

theorem rawSignature_derSignature {r s : Nat} (hr : r < 2 ^ 256) (hs : s < 2 ^ 256) :
    rawSignature (derSignature r s) = takenOf r ++ takenOf s := by
  have hLength : 8 ≤ (derSignature r s).length := by
    simp [derSignature, Asn1.sequence, integerWidth]
    omega
  have hFirst : takeInteger (derSignature r s) 2 = (2 + (Asn1.integer r).length, takenOf r) :=
    takeInteger_integer hr [0x30, UInt8.ofNat (Asn1.integer r ++ Asn1.integer s).length] (Asn1.integer s)
  have hSecond := takeInteger_integer hs (0x30 :: UInt8.ofNat (Asn1.integer r ++ Asn1.integer s).length :: Asn1.integer r) []
  have hStart : (0x30 :: UInt8.ofNat (Asn1.integer r ++ Asn1.integer s).length :: Asn1.integer r).length =
      2 + (Asn1.integer r).length := by
    rw [List.length_cons, List.length_cons, Nat.add_assoc, Nat.add_comm]
  have hSig : 0x30 :: UInt8.ofNat (Asn1.integer r ++ Asn1.integer s).length :: Asn1.integer r ++ (Asn1.integer s ++ []) =
      derSignature r s := by
    rw [List.append_nil]
    rfl
  rw [hStart, hSig] at hSecond
  rw [rawSignature, if_pos ⟨hLength, rfl⟩]
  simp only [hFirst, hSecond]

/-- The conversion is right from 2^247 on, for both numbers. A smaller number has less than 32
bytes, and nothing is put in front of them. -/
theorem rawSignature_iff {r s : Nat} (hr : r < 2 ^ 256) (hs : s < 2 ^ 256) :
    rawSignature (derSignature r s) = Asn1.bigEndian 32 r ++ Asn1.bigEndian 32 s ↔ 2 ^ 247 ≤ r ∧ 2 ^ 247 ≤ s := by
  rw [rawSignature_derSignature hr hs]
  constructor
  · intro h
    have hLength := congrArg List.length h
    have hFirst := length_takenOf hr
    have hSecond := length_takenOf hs
    simp only [List.length_append, Asn1.length_bigEndian] at hLength
    rw [← length_takenOf_iff hr, ← length_takenOf_iff hs]
    omega
  · rintro ⟨hFirst, hSecond⟩
    rw [takenOf_eq hr hFirst, takenOf_eq hs hSecond]

theorem rawSignature_iff_sample :
    rawSignature (derSignature (2 ^ 247) (2 ^ 255)) = Asn1.bigEndian 32 (2 ^ 247) ++ Asn1.bigEndian 32 (2 ^ 255) :=
  (rawSignature_iff (by decide) (by decide)).mpr (by decide)

theorem rawSignature_short :
    rawSignature (derSignature (2 ^ 246) (2 ^ 255)) ≠ Asn1.bigEndian 32 (2 ^ 246) ++ Asn1.bigEndian 32 (2 ^ 255) := by
  decide

end ContainerCP.Ssl
