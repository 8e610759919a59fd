import ContainerCP.Access.SshKeyValidator
import ContainerCP.Text.Base64

/-! `base64_decode` against the encoding that it is to undo. It skips the padding like
every other byte without a place in its table, so a last group with padding stays short. -/
namespace ContainerCP.Access

open Base64

/-- The table gives each character of the alphabet its place. -/
theorem base64Value_letter {n : Nat} (h : n < 64) : base64Value (letter n) = some n := by
  have hTable : ∀ n : Fin 64, base64Value (letter n) = some n.val := by
    unfold letter alphabet
    rw [bytes_ofList]
    decide
  exact hTable ⟨n, h⟩

theorem base64Value_pad : base64Value (ascii '=') = none := by
  decide

/-- What the loop collects of an encoded text. -/
theorem filterMap_base64Value_encode (data : Bytes) : (encode data).filterMap base64Value = sextets data := by
  have hLetters : ((sextets data).map letter).filterMap base64Value = sextets data := by
    rw [List.filterMap_map]
    calc (sextets data).filterMap (base64Value ∘ letter) = (sextets data).filterMap some := by
          apply List.filterMap_congr
          intro n hMem
          exact base64Value_letter (sextets_lt data n hMem)
      _ = sextets data := List.filterMap_some
  have hPadding : (padding data.length).filterMap base64Value = [] := by
    rw [List.filterMap_eq_nil_iff]
    intro c hMem
    rw [List.eq_of_mem_replicate hMem, base64Value_pad]
  rw [encode, List.filterMap_append, hLetters, hPadding, List.append_nil]

/-- The first byte of a group is in its first two numbers. -/
theorem byte_first (a b : UInt8) :
    UInt8.ofNat ((a.toNat / 4) <<< 2 ||| (a.toNat % 4 * 16 + b.toNat / 16) >>> 4) = a := by
  have hB := b.toNat_lt
  have hHigh : (a.toNat % 4 * 16 + b.toNat / 16) / 2 ^ 4 = a.toNat % 4 := by omega
  rw [Nat.shiftRight_eq_div_pow, hHigh, ← Nat.shiftLeft_add_eq_or_of_lt (by omega), Nat.shiftLeft_eq]
  have hWhole : a.toNat / 4 * 2 ^ 2 + a.toNat % 4 = a.toNat := by omega
  rw [hWhole, UInt8.ofNat_toNat]

/-- The second byte is in the second and the third number. -/
theorem byte_second (high : Nat) (b c : UInt8) :
    UInt8.ofNat ((high * 16 + b.toNat / 16) <<< 4 ||| (b.toNat % 16 * 4 + c.toNat / 64) >>> 2) = b := by
  have hB := b.toNat_lt
  have hC := c.toNat_lt
  have hLow : (b.toNat % 16 * 4 + c.toNat / 64) / 2 ^ 2 = b.toNat % 16 := by omega
  rw [Nat.shiftRight_eq_div_pow, hLow, ← Nat.shiftLeft_add_eq_or_of_lt (by omega), Nat.shiftLeft_eq]
  apply UInt8.toNat_inj.mp
  rw [UInt8.toNat_ofNat']
  omega

/-- The third byte is in the last two numbers. -/
theorem byte_third (high : Nat) (c : UInt8) :
    UInt8.ofNat ((high * 4 + c.toNat / 64) <<< 6 ||| c.toNat % 64) = c := by
  have hC := c.toNat_lt
  rw [← Nat.shiftLeft_add_eq_or_of_lt (by omega), Nat.shiftLeft_eq]
  apply UInt8.toNat_inj.mp
  rw [UInt8.toNat_ofNat']
  omega

/-- Whole groups come back as they were. -/
theorem decodeGroups_sextets (data : Bytes) (h : data.length % 3 = 0) : decodeGroups (sextets data) = some data := by
  fun_induction sextets data with
  | case1 => rfl
  | case2 => simp at h
  | case3 => simp at h
  | case4 a b c rest ih =>
      have hRest : decodeGroups (sextets rest) = some rest := by
        apply ih
        simp only [List.length_cons] at h
        omega
      rw [decodeGroups, hRest, byte_first, byte_second, byte_third]
      rfl

/-- A group that is not complete makes the whole text nothing. -/
theorem decodeGroups_eq_none (values : List Nat) (h : values.length % 4 ≠ 0) : decodeGroups values = none := by
  fun_induction decodeGroups values with
  | case1 => simp at h
  | case2 a b c d rest ih =>
      have hRest : decodeGroups rest = none := by
        apply ih
        simp only [List.length_cons] at h
        omega
      rw [hRest]
      rfl
  | case3 => rfl

/-- The decoder undoes the encoding of exactly the byte strings that need no padding. -/
theorem base64Decode_encode_iff (data : Bytes) : base64Decode (encode data) = data ↔ data.length % 3 = 0 := by
  rw [base64Decode, filterMap_base64Value_encode]
  constructor
  · intro hSame
    by_contra hLength
    rw [decodeGroups_eq_none _ (mt (length_sextets_mod data).mp hLength), Option.getD_none] at hSame
    subst hSame
    exact hLength rfl
  · intro hLength
    rw [decodeGroups_sextets data hLength, Option.getD_some]

/-- A single byte is lost. -/
theorem base64Decode_encode_byte : base64Decode (encode [77]) ≠ [77] := by
  decide

end ContainerCP.Access
