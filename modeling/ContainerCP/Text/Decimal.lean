import ContainerCP.Text.Bytes

/-! Decimal numerals, as `std::to_string` writes them and as the C library scans
them. -/
namespace ContainerCP

/-- `std::to_string` of an unsigned number. -/
def decimal (n : Nat) : Bytes := (Nat.toDigits 10 n).map ascii

/-- `std::to_string` of a signed number. -/
def decimalInt (n : Int) : Bytes :=
  if n < 0 then ascii '-' :: decimal n.natAbs else decimal n.natAbs

/-- The value of a run of digits. -/
def digitsValue (digits : Bytes) : Nat := digits.foldl (fun n c => 10 * n + (c.toNat - 48)) 0

/-- What the C library takes from the front of a text: a sign, the value of the
digits behind it, and the rest of the text. -/
structure Numeral where
  negative : Bool
  magnitude : Nat
  rest : Bytes
  deriving DecidableEq

def Numeral.value (numeral : Numeral) : Int :=
  if numeral.negative then -numeral.magnitude else numeral.magnitude

/-- The sign in front of the digits, if there is one. -/
def splitSign : Bytes → Bool × Bytes
  | [] => (false, [])
  | c :: rest =>
      if c = ascii '-' then (true, rest)
      else if c = ascii '+' then (false, rest)
      else (false, c :: rest)

/-- The scan of `strtoull` and `strtol` with base 10, up to the first NUL byte.
Without a digit there is no conversion. -/
def scanNumeral (text : Bytes) : Option Numeral :=
  let signed := splitSign ((text.takeWhile (· ≠ 0)).dropWhile isSpace)
  if (signed.2.takeWhile isDigit).isEmpty then none
  else some ⟨signed.1, digitsValue (signed.2.takeWhile isDigit), signed.2.dropWhile isDigit⟩

/-- The result of `strtoull` on a magnitude without `ERANGE`: a minus sign
negates the unsigned number. -/
def Numeral.toUInt64 (numeral : Numeral) : UInt64 :=
  if numeral.negative then -UInt64.ofNat numeral.magnitude else UInt64.ofNat numeral.magnitude

/-- `std::stoull`. Nothing stands for the exception. -/
def stoull (text : Bytes) : Option UInt64 :=
  match scanNumeral text with
  | none => none
  | some numeral => if numeral.magnitude < 2 ^ 64 then some numeral.toUInt64 else none

/-- `std::stoi`. Nothing stands for the exception. -/
def stoi (text : Bytes) : Option Int32 :=
  match scanNumeral text with
  | none => none
  | some numeral =>
      if Int32.minValue.toInt ≤ numeral.value ∧ numeral.value ≤ Int32.maxValue.toInt then
        some (Int32.ofInt numeral.value)
      else none

/-- `std::stoll`. Nothing stands for the exception. -/
def stoll (text : Bytes) : Option Int64 :=
  match scanNumeral text with
  | none => none
  | some numeral =>
      if Int64.minValue.toInt ≤ numeral.value ∧ numeral.value ≤ Int64.maxValue.toInt then
        some (Int64.ofInt numeral.value)
      else none

theorem ascii_toNat {c : Char} (h : c.toNat < 256) : (ascii c).toNat = c.toNat := by
  simp [ascii, Nat.mod_eq_of_lt h]

theorem isDigit_ascii {c : Char} (h : c.isDigit = true) : isDigit (ascii c) = true := by
  have hRange : 48 ≤ c.toNat ∧ c.toNat ≤ 57 := by simpa [Char.isDigit, UInt32.le_iff_toNat_le] using h
  have hCode := ascii_toNat (c := c) (by omega)
  simp only [isDigit, Bool.and_eq_true, decide_eq_true_eq, UInt8.le_iff_toNat_le, hCode]
  exact hRange

theorem isDigit_of_mem_decimal {n : Nat} {c : UInt8} (h : c ∈ decimal n) : isDigit c = true := by
  obtain ⟨d, hDigit, rfl⟩ := List.mem_map.mp h
  exact isDigit_ascii (Nat.isDigit_of_mem_toDigits (by decide) (by decide) hDigit)

theorem decimal_ne_nil (n : Nat) : decimal n ≠ [] := by
  simp [decimal]

theorem decimalInt_ne_nil (n : Int) : decimalInt n ≠ [] := by
  rw [decimalInt]
  split
  · exact List.cons_ne_nil _ _
  · exact decimal_ne_nil _

/-- A byte that is no digit stands in no unsigned numeral. -/
theorem not_mem_decimal {n : Nat} {c : UInt8} (h : isDigit c = false) : c ∉ decimal n := by
  intro hMem
  rw [isDigit_of_mem_decimal hMem] at h
  exact Bool.noConfusion h

theorem not_mem_decimalInt {n : Int} {c : UInt8} (hDigit : isDigit c = false) (hSign : c ≠ ascii '-') :
    c ∉ decimalInt n := by
  rw [decimalInt]
  split <;> simp [hSign, not_mem_decimal hDigit]

theorem digitsValue_decimal (n : Nat) : digitsValue (decimal n) = n := by
  have hFold : ∀ (chars : List Char) (start : Nat), (∀ c ∈ chars, c.isDigit = true) →
      (chars.map ascii).foldl (fun n c => 10 * n + (c.toNat - 48)) start =
        Nat.ofDigitChars 10 chars start := by
    intro chars
    induction chars with
    | nil => simp
    | cons c rest ih =>
        intro start hDigits
        have hDigit := hDigits c List.mem_cons_self
        have hCode : (ascii c).toNat = c.toNat := by
          apply ascii_toNat
          have hRange : 48 ≤ c.toNat ∧ c.toNat ≤ 57 := by
            simpa [Char.isDigit, UInt32.le_iff_toNat_le] using hDigit
          omega
        rw [List.map_cons, List.foldl_cons, Nat.ofDigitChars_cons, hCode,
          ih _ fun d hd => hDigits d (List.mem_cons_of_mem _ hd)]
        rfl
  rw [digitsValue, decimal, hFold _ _ fun c hc => Nat.isDigit_of_mem_toDigits (by decide) (by decide) hc]
  exact Nat.ofDigitChars_ten_toDigits

theorem decimal_injective : Function.Injective decimal := Function.LeftInverse.injective digitsValue_decimal

theorem splitSign_of_isDigit {c : UInt8} {rest : Bytes} (h : isDigit c = true) :
    splitSign (c :: rest) = (false, c :: rest) := by
  have hMinus : c ≠ ascii '-' := by rintro rfl; exact absurd h (by decide)
  have hPlus : c ≠ ascii '+' := by rintro rfl; exact absurd h (by decide)
  simp [splitSign, hMinus, hPlus]

theorem isDigit_imp_not_isSpace {c : UInt8} (h : isDigit c = true) : isSpace c = false := by
  simp only [isDigit, isSpace, Bool.and_eq_true, decide_eq_true_eq, Bool.or_eq_false_iff, beq_eq_false_iff_ne,
    Bool.and_eq_false_iff, decide_eq_false_iff_not, UInt8.le_iff_toNat_le] at h ⊢
  refine ⟨?_, .inr ?_⟩
  · rintro rfl
    exact absurd h.1 (by decide)
  · intro hLe
    have hUpper : c.toNat ≤ 13 := hLe
    have hLower : 48 ≤ c.toNat := h.1
    omega

theorem isDigit_imp_ne_zero {c : UInt8} (h : isDigit c = true) : c ≠ 0 := by
  rintro rfl
  exact absurd h (by decide)

theorem takeWhile_eq_self {p : UInt8 → Bool} {text : Bytes} (h : ∀ c ∈ text, p c = true) :
    text.takeWhile p = text := by
  rw [List.takeWhile_eq_self_iff]
  exact h

theorem dropWhile_eq_nil {p : UInt8 → Bool} {text : Bytes} (h : ∀ c ∈ text, p c = true) :
    text.dropWhile p = [] := by
  rw [List.dropWhile_eq_nil_iff]
  exact h

/-- Scanning digits with an optional minus sign in front and nothing behind. -/
theorem scanNumeral_digits {digits : Bytes} (hNe : digits ≠ []) (hDigits : ∀ c ∈ digits, isDigit c = true) :
    scanNumeral digits = some ⟨false, digitsValue digits, []⟩ := by
  obtain ⟨first, rest, rfl⟩ := List.exists_cons_of_ne_nil hNe
  have hFirst := hDigits first List.mem_cons_self
  have hText : ((first :: rest).takeWhile (· ≠ 0)).dropWhile isSpace = first :: rest := by
    rw [takeWhile_eq_self fun c hc => by simpa using isDigit_imp_ne_zero (hDigits c hc)]
    exact dropWhile_eq_self_of_head (isDigit_imp_not_isSpace hFirst)
  simp only [scanNumeral, hText, splitSign_of_isDigit hFirst]
  rw [takeWhile_eq_self hDigits, dropWhile_eq_nil hDigits]
  rfl

theorem scanNumeral_minus_digits {digits : Bytes} (hNe : digits ≠ [])
    (hDigits : ∀ c ∈ digits, isDigit c = true) :
    scanNumeral (ascii '-' :: digits) = some ⟨true, digitsValue digits, []⟩ := by
  have hText : ((ascii '-' :: digits).takeWhile (· ≠ 0)).dropWhile isSpace = ascii '-' :: digits := by
    rw [takeWhile_eq_self]
    · exact dropWhile_eq_self_of_head (by decide)
    · intro c hc
      rcases List.mem_cons.mp hc with rfl | hc
      · decide
      · simpa using isDigit_imp_ne_zero (hDigits c hc)
  have hSign : splitSign (ascii '-' :: digits) = (true, digits) := by simp [splitSign]
  simp only [scanNumeral, hText, hSign]
  rw [takeWhile_eq_self hDigits, dropWhile_eq_nil hDigits]
  simp [hNe]

/-- Digits alone are read as their value, if that fits. -/
theorem stoi_digits {digits : Bytes} (hNe : digits ≠ []) (hDigits : ∀ c ∈ digits, isDigit c = true) :
    stoi digits = if digitsValue digits < 2 ^ 31 then some (Int32.ofNat (digitsValue digits)) else none := by
  have hMax : Int32.maxValue.toInt = 2 ^ 31 - 1 := rfl
  have hMin : Int32.minValue.toInt = -2 ^ 31 := rfl
  rw [stoi, scanNumeral_digits hNe hDigits]
  simp only [Numeral.value, Bool.false_eq_true, if_false]
  by_cases hFits : digitsValue digits < 2 ^ 31
  · rw [if_pos hFits, if_pos (by omega), Int32.ofInt_eq_ofNat]
  · rw [if_neg hFits, if_neg (by omega)]

/-- A text that starts with neither a space, a sign nor a digit is no number. -/
theorem scanNumeral_eq_none {c : UInt8} (hZero : c ≠ 0) (hSpace : isSpace c = false)
    (hSign : c ≠ ascii '-' ∧ c ≠ ascii '+') (hDigit : isDigit c = false) (rest : Bytes) :
    scanNumeral (c :: rest) = none := by
  have hText : (c :: rest).takeWhile (· ≠ 0) = c :: rest.takeWhile (· ≠ 0) := by simp [hZero]
  rw [scanNumeral, hText, dropWhile_eq_self_of_head hSpace, splitSign, if_neg hSign.1, if_neg hSign.2]
  simp [hDigit]

@[simp]
theorem scanNumeral_decimal (n : Nat) : scanNumeral (decimal n) = some ⟨false, n, []⟩ := by
  rw [scanNumeral_digits (decimal_ne_nil n) fun c hc => isDigit_of_mem_decimal hc, digitsValue_decimal]

@[simp]
theorem stoull_decimal (v : UInt64) : stoull (decimal v.toNat) = some v := by
  have hBound : v.toNat < 2 ^ 64 := v.toNat_lt
  simp only [stoull, scanNumeral_decimal, if_pos hBound, Numeral.toUInt64, Bool.false_eq_true, if_false]
  rw [UInt64.ofNat_toNat]

/-- A written number is scanned back. -/
theorem scanNumeral_decimalInt (n : Int) :
    ∃ numeral, scanNumeral (decimalInt n) = some numeral ∧ numeral.value = n := by
  by_cases hSign : n < 0
  · refine ⟨⟨true, n.natAbs, []⟩, ?_, ?_⟩
    · rw [decimalInt, if_pos hSign,
        scanNumeral_minus_digits (decimal_ne_nil _) fun c hc => isDigit_of_mem_decimal hc, digitsValue_decimal]
    · simp only [Numeral.value, if_true]
      omega
  · refine ⟨⟨false, n.natAbs, []⟩, ?_, ?_⟩
    · rw [decimalInt, if_neg hSign, scanNumeral_decimal]
    · simp only [Numeral.value]
      split
      · contradiction
      · omega

@[simp]
theorem stoi_decimalInt (v : Int32) : stoi (decimalInt v.toInt) = some v := by
  have hLower := v.minValue_le_toInt
  have hUpper := v.toInt_le
  obtain ⟨numeral, hNumeral, hValue⟩ := scanNumeral_decimalInt v.toInt
  simp only [stoi, hNumeral, hValue]
  rw [if_pos ⟨hLower, by simpa using hUpper⟩]
  simp

@[simp]
theorem stoll_decimalInt (v : Int64) : stoll (decimalInt v.toInt) = some v := by
  have hLower := v.minValue_le_toInt
  have hUpper := v.toInt_le
  obtain ⟨numeral, hNumeral, hValue⟩ := scanNumeral_decimalInt v.toInt
  simp only [stoll, hNumeral, hValue]
  rw [if_pos ⟨hLower, by simpa using hUpper⟩]
  simp

/-- A digit more makes a numeral at least ten times as large. -/
theorem digitsValue_append_le (digits : Bytes) {extra : Bytes} (h : extra ≠ []) :
    10 * digitsValue digits ≤ digitsValue (digits ++ extra) := by
  have hGrows : ∀ (rest : Bytes) (start : Nat), start ≤ rest.foldl (fun n c => 10 * n + (c.toNat - 48)) start := by
    intro rest
    induction rest with
    | nil => exact fun _ => Nat.le_refl _
    | cons c rest ih => exact fun start => Nat.le_trans (by dsimp only; omega) (ih _)
  obtain ⟨c, rest, rfl⟩ := List.exists_cons_of_ne_nil h
  rw [digitsValue, digitsValue, List.foldl_append, List.foldl_cons]
  exact Nat.le_trans (Nat.le_add_right _ _) (hGrows rest _)

/-- A numeral that is cut off behind a digit. -/
theorem scanNumeral_cut {n : Int} {front extra : Bytes} (h : front ++ extra = decimalInt n) (hExtra : extra ≠ [])
    (hNe : front ≠ []) (hSign : front ≠ [ascii '-']) :
    n ≠ 0 ∧ ∃ numeral, scanNumeral front = some numeral ∧ 10 * numeral.value.natAbs ≤ n.natAbs := by
  have hZero : n ≠ 0 := by
    rintro rfl
    have hLength : (front ++ extra).length = 1 := by rw [h]; rfl
    have hFront := List.length_pos_of_ne_nil hNe
    have hRest := List.length_pos_of_ne_nil hExtra
    rw [List.length_append] at hLength
    omega
  have hCut : ∀ digits, digits ++ extra = decimal n.natAbs →
      (∀ c ∈ digits, isDigit c = true) ∧ 10 * digitsValue digits ≤ n.natAbs := by
    intro digits hDigits
    refine ⟨fun c hc => isDigit_of_mem_decimal (hDigits ▸ List.mem_append_left _ hc), ?_⟩
    have hLe := digitsValue_append_le digits hExtra
    rwa [hDigits, digitsValue_decimal] at hLe
  refine ⟨hZero, ?_⟩
  rw [decimalInt] at h
  split at h
  · obtain ⟨c, digits, rfl⟩ := List.exists_cons_of_ne_nil hNe
    obtain ⟨rfl, hDigits⟩ := List.cons.inj h
    obtain ⟨hAll, hLe⟩ := hCut digits hDigits
    refine ⟨_, scanNumeral_minus_digits (by rintro rfl; exact hSign rfl) hAll, ?_⟩
    simpa [Numeral.value] using hLe
  · obtain ⟨hAll, hLe⟩ := hCut front h
    refine ⟨_, scanNumeral_digits hNe hAll, ?_⟩
    simpa [Numeral.value] using hLe

end ContainerCP
