import ContainerCP.Text.Bytes

/-! The base64 encoding: three bytes become four characters of six bits each. A last
group that is not full is filled with padding characters. -/
namespace ContainerCP.Base64

def alphabet : Bytes := bytes "ABCDEFGHIJKLMNOPQRSTUVWXYZabcdefghijklmnopqrstuvwxyz0123456789+/"

/-- The character of six bits. -/
def letter (n : Nat) : UInt8 := alphabet.getD n 0

/-- The bits in groups of six, the last group filled up with zeros. -/
def sextets : Bytes → List Nat
  | [] => []
  | [a] => [a.toNat / 4, a.toNat % 4 * 16]
  | [a, b] => [a.toNat / 4, a.toNat % 4 * 16 + b.toNat / 16, b.toNat % 16 * 4]
  | a :: b :: c :: rest =>
      a.toNat / 4 :: (a.toNat % 4 * 16 + b.toNat / 16) :: (b.toNat % 16 * 4 + c.toNat / 64) ::
        c.toNat % 64 :: sextets rest

/-- The padding behind the characters of so many bytes. -/
def padding (length : Nat) : Bytes := List.replicate ((3 - length % 3) % 3) (ascii '=')

def encode (data : Bytes) : Bytes := (sextets data).map letter ++ padding data.length

theorem sextets_lt (data : Bytes) : ∀ n ∈ sextets data, n < 64 := by
  fun_induction sextets data with
  | case1 => simp
  | case2 a =>
      have hA := a.toNat_lt
      simp only [List.forall_mem_cons, List.not_mem_nil, false_imp_iff, implies_true, and_true]
      omega
  | case3 a b =>
      have hA := a.toNat_lt
      have hB := b.toNat_lt
      simp only [List.forall_mem_cons, List.not_mem_nil, false_imp_iff, implies_true, and_true]
      omega
  | case4 a b c rest ih =>
      have hA := a.toNat_lt
      have hB := b.toNat_lt
      have hC := c.toNat_lt
      simp only [List.forall_mem_cons]
      exact ⟨by omega, by omega, by omega, by omega, ih⟩

/-- Only whole groups of bytes make whole groups of characters. -/
theorem length_sextets_mod (data : Bytes) : (sextets data).length % 4 = 0 ↔ data.length % 3 = 0 := by
  fun_induction sextets data with
  | case1 => simp
  | case2 => simp
  | case3 => simp
  | case4 a b c rest ih =>
      simp only [List.length_cons]
      omega

end ContainerCP.Base64
