import ContainerCP.Text.Bytes

/-! Texts in a row, each with its length in front, so that the row can be cut up
again. -/
namespace ContainerCP

/-- Eight bytes, the highest one first. -/
def bigEndian (n : Nat) : Bytes := [7, 6, 5, 4, 3, 2, 1, 0].map fun i => UInt8.ofNat (n >>> (i * 8))

/-- A text behind its length. -/
def frame (text : Bytes) : Bytes := bigEndian text.length ++ text

/-- Short enough for the length to be exact. -/
def Framable (text : Bytes) : Prop := text.length < 2 ^ 64

instance (text : Bytes) : Decidable (Framable text) := inferInstanceAs (Decidable (_ < _))

theorem length_bigEndian (n : Nat) : (bigEndian n).length = 8 := rfl

theorem bigEndian_inj {n m : Nat} (hN : n < 2 ^ 64) (hM : m < 2 ^ 64) (h : bigEndian n = bigEndian m) : n = m := by
  have hByte : ∀ i ∈ [7, 6, 5, 4, 3, 2, 1, 0], n / 2 ^ (i * 8) % 256 = m / 2 ^ (i * 8) % 256 := by
    intro i hi
    have hSame := congrArg UInt8.toNat (List.map_inj_left.mp h i hi)
    simpa [Nat.shiftRight_eq_div_pow] using hSame
  simp only [List.forall_mem_cons, Nat.reduceMul, Nat.reducePow, Nat.div_one] at hByte
  omega

/-- What stands behind a framed text does not take part in reading it. -/
theorem frame_append_inj {first second restFirst restSecond : Bytes} (hFirst : Framable first)
    (hSecond : Framable second) (h : frame first ++ restFirst = frame second ++ restSecond) :
    first = second ∧ restFirst = restSecond := by
  rw [frame, frame, List.append_assoc, List.append_assoc] at h
  obtain ⟨hLength, hRest⟩ := List.append_inj h (by rw [length_bigEndian, length_bigEndian])
  exact List.append_inj hRest (bigEndian_inj hFirst hSecond hLength)

theorem frame_ne_nil (text : Bytes) : frame text ≠ [] := by
  simp [frame, bigEndian]

/-- A row of framed texts determines the texts. -/
theorem flatMap_frame_inj {firsts seconds : List Bytes} (hFirsts : ∀ text ∈ firsts, Framable text)
    (hSeconds : ∀ text ∈ seconds, Framable text) (h : firsts.flatMap frame = seconds.flatMap frame) :
    firsts = seconds := by
  induction firsts generalizing seconds with
  | nil =>
      cases seconds with
      | nil => rfl
      | cons second others => simp [frame_ne_nil] at h
  | cons first rest ih =>
      cases seconds with
      | nil => simp [frame_ne_nil] at h
      | cons second others =>
          rw [List.flatMap_cons, List.flatMap_cons] at h
          rw [List.forall_mem_cons] at hFirsts hSeconds
          obtain ⟨rfl, hRest⟩ := frame_append_inj hFirsts.1 hSeconds.1 h
          rw [ih hFirsts.2 hSeconds.2 hRest]

/-- Pieces of one positive length in a row determine the pieces. -/
theorem map_eq_map_of_flatMap {α β γ : Type} {f : α → List γ} {g : β → List γ} {width : Nat}
    {firsts : List α} {seconds : List β} (hWidth : 0 < width) (hF : ∀ a, (f a).length = width)
    (hG : ∀ b, (g b).length = width) (h : firsts.flatMap f = seconds.flatMap g) :
    firsts.map f = seconds.map g := by
  induction firsts generalizing seconds with
  | nil =>
      cases seconds with
      | nil => rfl
      | cons second others =>
          have hEmpty := congrArg List.length h
          simp [hG] at hEmpty
          omega
  | cons first rest ih =>
      cases seconds with
      | nil =>
          have hEmpty := congrArg List.length h
          simp [hF] at hEmpty
          omega
      | cons second others =>
          rw [List.flatMap_cons, List.flatMap_cons] at h
          obtain ⟨hFirst, hRest⟩ := List.append_inj h (by rw [hF, hG])
          rw [List.map_cons, List.map_cons, hFirst, ih hRest]

end ContainerCP
