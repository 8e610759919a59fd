import ContainerCP.Text.Base64
import ContainerCP.Text.Decimal
import ContainerCP.Text.Lines

/-! `security::PasswordHasher` in the build with PBKDF2: how a hash is written, and how a
password is checked against it. The accumulators of the two base64 loops have 32 bits and
wrap. -/
namespace ContainerCP.Security

open Base64 (alphabet letter sextets padding)

/-! ## base64 -/

/-- The inner loop of `base64_encode`: what it writes, and what it leaves in `valb`. -/
def drain (val : BitVec 32) (valb : Int) : Bytes × Int :=
  if 0 ≤ valb then
    let drained := drain val (valb - 6)
    (letter ((val.sshiftRight valb.toNat) &&& 0x3f).toNat :: drained.1, drained.2)
  else ([], valb)
termination_by (valb + 6).toNat

/-- The loop of `base64_encode`, with the last character. -/
def encodeLoop (val : BitVec 32) (valb : Int) : Bytes → Bytes
  | [] => if -6 < valb then [letter (((val <<< 8).sshiftRight (valb + 8).toNat) &&& 0x3f).toNat] else []
  | c :: rest =>
      let val := (val <<< 8) + BitVec.ofNat 32 c.toNat
      let drained := drain val (valb + 8)
      drained.1 ++ encodeLoop val drained.2 rest

/-- The loop that fills the last group. -/
def pad (out : Bytes) : Bytes := if out.length % 4 ≠ 0 then pad (out ++ [ascii '=']) else out
termination_by (4 - out.length % 4) % 4
decreasing_by
  rw [List.length_append, List.length_singleton]
  omega

def base64Encode (data : Bytes) : Bytes := pad (encodeLoop 0 (-6) data)

/-- The table of `base64_decode`. Nothing stands for -1. -/
def table (c : UInt8) : Option Nat := if c ∈ alphabet then some (alphabet.idxOf c) else none

/-- The loop of `base64_decode`. Nothing stands for the return on a byte outside the table. -/
def decodeLoop (val : BitVec 32) (valb : Int) : Bytes → Option Bytes
  | [] => some []
  | c :: rest =>
      if c = ascii '=' then some []
      else
        match table c with
        | none => none
        | some n =>
            let val := (val <<< 6) + BitVec.ofNat 32 n
            let valb := valb + 6
            if 0 ≤ valb then
              (decodeLoop val (valb - 8) rest).map (UInt8.ofNat ((val.sshiftRight valb.toNat) &&& 0xff).toNat :: ·)
            else decodeLoop val valb rest

def base64Decode (input : Bytes) : Bytes := (decodeLoop 0 (-8) input).getD []

/-! ## The bits of an accumulator -/

/-- A mask reads bits of the accumulator, and nothing of the bits above them. -/
theorem toNat_mask {s k : Nat} (h : s + k ≤ 32) (val : BitVec 32) :
    (val.sshiftRight s &&& BitVec.ofNat 32 (2 ^ k - 1)).toNat = val.toNat / 2 ^ s % 2 ^ k := by
  have hSame : val.sshiftRight s &&& BitVec.ofNat 32 (2 ^ k - 1) = (val >>> s) &&& BitVec.ofNat 32 (2 ^ k - 1) := by
    apply BitVec.eq_of_getLsbD_eq
    intro i hi
    simp only [BitVec.getLsbD_and, BitVec.getLsbD_sshiftRight, BitVec.getLsbD_ushiftRight, BitVec.getLsbD_ofNat,
      Nat.testBit_two_pow_sub_one]
    by_cases hIn : i < k
    · have hBound : s + i < 32 := by omega
      have hWord : ¬32 ≤ i := by omega
      simp [hBound, hWord]
    · simp [hIn]
  have hMask : 2 ^ k - 1 < 2 ^ 32 := by
    have hPower := Nat.pow_le_pow_right (show 0 < 2 by decide) (show k ≤ 32 by omega)
    have hPositive := Nat.two_pow_pos k
    omega
  rw [hSame, BitVec.toNat_and, BitVec.toNat_ushiftRight, BitVec.toNat_ofNat, Nat.mod_eq_of_lt hMask,
    Nat.and_two_pow_sub_one_eq_mod, Nat.shiftRight_eq_div_pow]

theorem toNat_sextet {s : Nat} (h : s ≤ 26) (val : BitVec 32) :
    (val.sshiftRight s &&& 0x3f).toNat = val.toNat / 2 ^ s % 64 := toNat_mask (show s + 6 ≤ 32 by omega) val

theorem toNat_octet {s : Nat} (h : s ≤ 24) (val : BitVec 32) :
    (val.sshiftRight s &&& 0xff).toNat = val.toNat / 2 ^ s % 256 := toNat_mask (show s + 8 ≤ 32 by omega) val

/-- A turn of a loop pushes the accumulator to the left and puts a number into its low bits. -/
theorem toNat_push (val : BitVec 32) (s n : Nat) :
    ((val <<< s) + BitVec.ofNat 32 n).toNat = (val.toNat * 2 ^ s + n) % 2 ^ 32 := by
  rw [BitVec.toNat_add, BitVec.toNat_shiftLeft, BitVec.toNat_ofNat, Nat.shiftLeft_eq, ← Nat.add_mod]

/-! ## The encoder -/

theorem drain_once {val : BitVec 32} {valb : Nat} (h : valb < 6) :
    drain val valb = ([letter (val.toNat / 2 ^ valb % 64)], (valb : Int) - 6) := by
  have hDone : ¬(0 : Int) ≤ (valb : Int) - 6 := by omega
  have hStop : drain val ((valb : Int) - 6) = ([], (valb : Int) - 6) := by
    rw [drain, if_neg hDone]
  rw [drain, if_pos (by omega), hStop, Int.toNat_natCast, toNat_sextet (by omega)]

theorem drain_twice (val : BitVec 32) : drain val 6 = ([letter (val.toNat / 64 % 64), letter (val.toNat % 64)], -6) := by
  have hLast : drain val (6 - 6) = ([letter (val.toNat % 64)], -6) := by
    have hOnce := @drain_once val 0 (by decide)
    rwa [Nat.pow_zero, Nat.div_one] at hOnce
  rw [drain, if_pos (by decide), hLast]
  simp only
  rw [show Int.toNat 6 = 6 from rfl, toNat_sextet (by decide)]
  rfl

/-- A turn of the loop where less than six bits are left over behind it. -/
theorem encodeLoop_once (val : BitVec 32) {valb : Int} {left : Nat} (hLeft : valb + 8 = left) (h : left < 6) (c : UInt8)
    (rest : Bytes) :
    encodeLoop val valb (c :: rest) =
      letter (((val <<< 8) + BitVec.ofNat 32 c.toNat).toNat / 2 ^ left % 64) ::
        encodeLoop ((val <<< 8) + BitVec.ofNat 32 c.toNat) ((left : Int) - 6) rest := by
  rw [encodeLoop, hLeft, drain_once h]
  rfl

theorem encodeLoop_twice (val : BitVec 32) {valb : Int} (hLeft : valb + 8 = 6) (c : UInt8) (rest : Bytes) :
    encodeLoop val valb (c :: rest) =
      letter (((val <<< 8) + BitVec.ofNat 32 c.toNat).toNat / 64 % 64) ::
        letter (((val <<< 8) + BitVec.ofNat 32 c.toNat).toNat % 64) ::
          encodeLoop ((val <<< 8) + BitVec.ofNat 32 c.toNat) (-6) rest := by
  rw [encodeLoop, hLeft, drain_twice]
  rfl

/-- The character behind the loop, for the bits that are left over. -/
theorem encodeLoop_last (val : BitVec 32) {valb : Int} {left : Nat} (hLeft : valb + 8 = left) (h : 2 < left) (hBits : left ≤ 26) :
    encodeLoop val valb [] = [letter (val.toNat * 256 % 2 ^ 32 / 2 ^ left % 64)] := by
  have hShift : (val <<< 8).toNat = val.toNat * 256 % 2 ^ 32 := by rw [BitVec.toNat_shiftLeft, Nat.shiftLeft_eq]
  rw [encodeLoop, if_pos (by omega), hLeft, Int.toNat_natCast, toNat_sextet (by omega), hShift]

/-- The loop writes the sextets of the data, whatever the accumulator holds above them. -/
theorem encodeLoop_eq (data : Bytes) (val : BitVec 32) : encodeLoop val (-6) data = (sextets data).map letter := by
  fun_induction sextets data generalizing val with
  | case1 => rfl
  | case2 a =>
      have hA := toNat_push val 8 a.toNat
      have hByte := a.toNat_lt
      rw [@encodeLoop_once val _ 2 rfl (by decide), @encodeLoop_last _ _ 4 rfl (by decide) (by decide)]
      generalize (val <<< 8) + BitVec.ofNat 32 a.toNat = first at hA ⊢
      have hFirst : first.toNat / 2 ^ 2 % 64 = a.toNat / 4 := by omega
      have hLast : first.toNat * 256 % 2 ^ 32 / 2 ^ 4 % 64 = a.toNat % 4 * 16 := by omega
      rw [hFirst, hLast]
      rfl
  | case3 a b =>
      have hA := toNat_push val 8 a.toNat
      have hByte := a.toNat_lt
      have hNext := b.toNat_lt
      rw [@encodeLoop_once val _ 2 rfl (by decide), @encodeLoop_once _ _ 4 rfl (by decide),
        @encodeLoop_last _ _ 6 rfl (by decide) (by decide)]
      generalize (val <<< 8) + BitVec.ofNat 32 a.toNat = first at hA ⊢
      have hB := toNat_push first 8 b.toNat
      generalize (first <<< 8) + BitVec.ofNat 32 b.toNat = second at hB ⊢
      have hOne : first.toNat / 2 ^ 2 % 64 = a.toNat / 4 := by omega
      have hTwo : second.toNat / 2 ^ 4 % 64 = a.toNat % 4 * 16 + b.toNat / 16 := by omega
      have hLast : second.toNat * 256 % 2 ^ 32 / 2 ^ 6 % 64 = b.toNat % 16 * 4 := by omega
      rw [hOne, hTwo, hLast]
      rfl
  | case4 a b c rest ih =>
      have hA := toNat_push val 8 a.toNat
      have hByte := a.toNat_lt
      have hMiddle := b.toNat_lt
      have hThird := c.toNat_lt
      rw [@encodeLoop_once val _ 2 rfl (by decide), @encodeLoop_once _ _ 4 rfl (by decide), @encodeLoop_twice _ _ rfl, ih]
      generalize (val <<< 8) + BitVec.ofNat 32 a.toNat = first at hA ⊢
      have hB := toNat_push first 8 b.toNat
      generalize (first <<< 8) + BitVec.ofNat 32 b.toNat = second at hB ⊢
      have hC := toNat_push second 8 c.toNat
      generalize (second <<< 8) + BitVec.ofNat 32 c.toNat = third at hC ⊢
      have hOne : first.toNat / 2 ^ 2 % 64 = a.toNat / 4 := by omega
      have hTwo : second.toNat / 2 ^ 4 % 64 = a.toNat % 4 * 16 + b.toNat / 16 := by omega
      have hThree : third.toNat / 64 % 64 = b.toNat % 16 * 4 + c.toNat / 64 := by omega
      have hFour : third.toNat % 64 = c.toNat % 64 := by omega
      rw [hOne, hTwo, hThree, hFour]
      rfl

theorem pad_eq (out : Bytes) : pad out = out ++ List.replicate ((4 - out.length % 4) % 4) (ascii '=') := by
  fun_induction pad out with
  | case1 out hLength ih =>
      have hCount : (4 - out.length % 4) % 4 = (4 - (out ++ [ascii '=']).length % 4) % 4 + 1 := by
        rw [List.length_append, List.length_singleton]
        omega
      rw [ih, hCount, List.replicate_succ, List.append_assoc, List.singleton_append]
  | case2 out hLength =>
      have hNone : (4 - out.length % 4) % 4 = 0 := by omega
      rw [hNone, List.replicate_zero, List.append_nil]

/-- The characters of the last group and the padding fill it. -/
theorem length_sextets_padding (data : Bytes) : (4 - (sextets data).length % 4) % 4 = (3 - data.length % 3) % 3 := by
  fun_induction sextets data with
  | case1 => rfl
  | case2 => rfl
  | case3 => rfl
  | case4 a b c rest ih =>
      simp only [List.length_cons]
      omega

/-- The loops write the base64 encoding. -/
theorem base64Encode_eq (data : Bytes) : base64Encode data = Base64.encode data := by
  rw [base64Encode, encodeLoop_eq, pad_eq, List.length_map, length_sextets_padding]
  rfl

/-! ## The decoder -/

theorem table_letter {n : Nat} (h : n < 64) : table (letter n) = some n ∧ letter n ≠ ascii '=' ∧ letter n ≠ ascii '$' := by
  have hTable : ∀ n : Fin 64, table (letter n) = some n.val ∧ letter n ≠ ascii '=' ∧ letter n ≠ ascii '$' := by
    unfold table letter alphabet
    rw [bytes_ofList]
    decide +kernel
  exact hTable ⟨n, h⟩

/-- A turn of the loop that completes no byte. -/
theorem decodeLoop_skip (val : BitVec 32) {valb : Int} (hValb : valb + 6 < 0) {n : Nat} (h : n < 64) (rest : Bytes) :
    decodeLoop val valb (letter n :: rest) = decodeLoop ((val <<< 6) + BitVec.ofNat 32 n) (valb + 6) rest := by
  obtain ⟨hTable, hEnd, -⟩ := table_letter h
  rw [decodeLoop, if_neg hEnd]
  simp only [hTable]
  exact if_neg (by omega)

/-- A turn that completes one. -/
theorem decodeLoop_push (val : BitVec 32) {valb : Int} {left : Nat} (hLeft : valb + 6 = left) (hBits : left ≤ 24) {n : Nat}
    (h : n < 64) (rest : Bytes) :
    decodeLoop val valb (letter n :: rest) =
      (decodeLoop ((val <<< 6) + BitVec.ofNat 32 n) ((left : Int) - 8) rest).map
        (UInt8.ofNat (((val <<< 6) + BitVec.ofNat 32 n).toNat / 2 ^ left % 256) :: ·) := by
  obtain ⟨hTable, hEnd, -⟩ := table_letter h
  rw [decodeLoop, if_neg hEnd]
  simp only [hTable, hLeft]
  rw [if_pos (by omega), Int.toNat_natCast, toNat_octet hBits]

/-- The loop ends at the padding. -/
theorem decodeLoop_padding (val : BitVec 32) (valb : Int) (count : Nat) :
    decodeLoop val valb (List.replicate count (ascii '=')) = some [] := by
  cases count with
  | zero => rfl
  | succ count => rw [List.replicate_succ, decodeLoop, if_pos rfl]

/-- The loop reads the data in the sextets, whatever the accumulator holds above them. -/
theorem decodeLoop_sextets (data : Bytes) (val : BitVec 32) (count : Nat) :
    decodeLoop val (-8) ((sextets data).map letter ++ List.replicate count (ascii '=')) = some data := by
  fun_induction sextets data generalizing val with
  | case1 => exact decodeLoop_padding val (-8) count
  | case2 a =>
      have hByte := a.toNat_lt
      have hOne := toNat_push val 6 (a.toNat / 4)
      simp only [List.map_cons, List.map_nil, List.cons_append, List.nil_append]
      rw [decodeLoop_skip val (by decide) (by omega), @decodeLoop_push _ _ 4 rfl (by decide) _ (by omega), decodeLoop_padding]
      generalize (val <<< 6) + BitVec.ofNat 32 (a.toNat / 4) = first at hOne ⊢
      have hTwo := toNat_push first 6 (a.toNat % 4 * 16)
      generalize (first <<< 6) + BitVec.ofNat 32 (a.toNat % 4 * 16) = second at hTwo ⊢
      have hA : second.toNat / 2 ^ 4 % 256 = a.toNat := by omega
      rw [hA, UInt8.ofNat_toNat]
      rfl
  | case3 a b =>
      have hByte := a.toNat_lt
      have hNext := b.toNat_lt
      have hOne := toNat_push val 6 (a.toNat / 4)
      simp only [List.map_cons, List.map_nil, List.cons_append, List.nil_append]
      rw [decodeLoop_skip val (by decide) (by omega), @decodeLoop_push _ _ 4 rfl (by decide) _ (by omega),
        @decodeLoop_push _ _ 2 rfl (by decide) _ (by omega), decodeLoop_padding]
      generalize (val <<< 6) + BitVec.ofNat 32 (a.toNat / 4) = first at hOne ⊢
      have hTwo := toNat_push first 6 (a.toNat % 4 * 16 + b.toNat / 16)
      generalize (first <<< 6) + BitVec.ofNat 32 (a.toNat % 4 * 16 + b.toNat / 16) = second at hTwo ⊢
      have hThree := toNat_push second 6 (b.toNat % 16 * 4)
      generalize (second <<< 6) + BitVec.ofNat 32 (b.toNat % 16 * 4) = third at hThree ⊢
      have hA : second.toNat / 2 ^ 4 % 256 = a.toNat := by omega
      have hB : third.toNat / 2 ^ 2 % 256 = b.toNat := by omega
      rw [hA, hB, UInt8.ofNat_toNat, UInt8.ofNat_toNat]
      rfl
  | case4 a b c rest ih =>
      have hByte := a.toNat_lt
      have hMiddle := b.toNat_lt
      have hThird := c.toNat_lt
      have hOne := toNat_push val 6 (a.toNat / 4)
      simp only [List.map_cons, List.cons_append]
      rw [decodeLoop_skip val (by decide) (by omega), @decodeLoop_push _ _ 4 rfl (by decide) _ (by omega),
        @decodeLoop_push _ _ 2 rfl (by decide) _ (by omega), @decodeLoop_push _ _ 0 rfl (by decide) _ (by omega)]
      generalize (val <<< 6) + BitVec.ofNat 32 (a.toNat / 4) = first at hOne ⊢
      have hTwo := toNat_push first 6 (a.toNat % 4 * 16 + b.toNat / 16)
      generalize (first <<< 6) + BitVec.ofNat 32 (a.toNat % 4 * 16 + b.toNat / 16) = second at hTwo ⊢
      have hThree := toNat_push second 6 (b.toNat % 16 * 4 + c.toNat / 64)
      generalize (second <<< 6) + BitVec.ofNat 32 (b.toNat % 16 * 4 + c.toNat / 64) = third at hThree ⊢
      have hFour := toNat_push third 6 (c.toNat % 64)
      generalize (third <<< 6) + BitVec.ofNat 32 (c.toNat % 64) = fourth at hFour ⊢
      have hA : second.toNat / 2 ^ 4 % 256 = a.toNat := by omega
      have hB : third.toNat / 2 ^ 2 % 256 = b.toNat := by omega
      have hC : fourth.toNat / 2 ^ 0 % 256 = c.toNat := by omega
      have hRest : decodeLoop fourth (((0 : Nat) : Int) - 8) ((sextets rest).map letter ++ List.replicate count (ascii '=')) =
          some rest := ih fourth
      rw [hA, hB, hC, hRest, UInt8.ofNat_toNat, UInt8.ofNat_toNat, UInt8.ofNat_toNat]
      rfl

theorem base64Decode_base64Encode (data : Bytes) : base64Decode (base64Encode data) = data := by
  have hLoop := decodeLoop_sextets data 0 ((3 - data.length % 3) % 3)
  rw [base64Encode_eq, base64Decode, Base64.encode, padding, hLoop]
  rfl

/-! ## `PasswordHasher` -/

/-- `PKCS5_PBKDF2_HMAC` with SHA-256. Nothing stands for its failure; a digest has the length
that was asked for. -/
structure Pbkdf2 where
  derive : (password : Bytes) → (passlen : Int32) → (salt : Bytes) → (saltlen iterations keylen : Int32) → Option Bytes
  length : ∀ {password passlen salt saltlen iterations keylen digest},
    derive password passlen salt saltlen iterations keylen = some digest → digest.length = keylen.toInt.toNat

/-- What `SecureRandom::bytes` gives for a salt. -/
structure Salt where
  bytes : Bytes
  length : bytes.length = 16

def pbkdf2Iterations : Nat := 210000

def pbkdf2HashBytes : Nat := 32

def pbkdf2Prefix : Bytes := bytes "$containercp-pbkdf2-sha256$v=1$i="

def dollar : UInt8 := ascii '$'

/-- `PasswordHasher::hash`. The empty text stands for a failure. -/
def hash (pbkdf2 : Pbkdf2) (salt : Option Salt) (password : Bytes) : Bytes :=
  match salt with
  | none => []
  | some salt =>
      match pbkdf2.derive password (Int32.ofNat password.length) salt.bytes (Int32.ofNat salt.bytes.length)
          (Int32.ofNat pbkdf2Iterations) (Int32.ofNat pbkdf2HashBytes) with
      | none => []
      | some digest =>
          pbkdf2Prefix ++ decimal pbkdf2Iterations ++ bytes "$l=" ++ decimal pbkdf2HashBytes ++ bytes "$" ++
            base64Encode salt.bytes ++ bytes "$" ++ base64Encode digest

/-- `PasswordHasher::is_supported_hash`. -/
def isSupportedHash (encodedHash : Bytes) : Bool := pbkdf2Prefix.isPrefixOf encodedHash

/-- `std::from_chars` for an `int`: the number, and the text behind it. Nothing stands for an
error. -/
def fromChars (text : Bytes) : Option (Int × Bytes) :=
  let negative := text.head? = some (ascii '-')
  let behind := if negative then text.tail else text
  let digits := behind.takeWhile isDigit
  if digits = [] then none
  else
    let value : Int := if negative then -digitsValue digits else digitsValue digits
    if Int32.minValue.toInt ≤ value ∧ value ≤ Int32.maxValue.toInt then some (value, behind.dropWhile isDigit) else none

/-- `parse_positive_int`. -/
def parsePositiveInt (text : Bytes) : Option Int :=
  match fromChars text with
  | none => none
  | some (value, rest) => if rest ≠ [] ∨ value ≤ 0 then none else some value

/-- `substr` of a `std::string_view`, which has to start in the text. -/
def substr (text : Bytes) (pos : Nat) : Option Bytes := if pos ≤ text.length then some (text.drop pos) else none

/-- `verify` behind the split into parts. Nothing stands for an index outside of them. -/
def verifyParts (pbkdf2 : Pbkdf2) (password : Bytes) (parts : List Bytes) : Option Bool := do
  if parts.length ≠ 7 then return false
  if (← parts[0]?) ≠ [] then return false
  if (← parts[1]?) ≠ bytes "containercp-pbkdf2-sha256" then return false
  if (← parts[2]?) ≠ bytes "v=1" then return false
  if !(bytes "i=").isPrefixOf (← parts[3]?) then return false
  if !(bytes "l=").isPrefixOf (← parts[4]?) then return false
  match parsePositiveInt (← substr (← parts[3]?) 2) with
  | none => return false
  | some iterations =>
      match parsePositiveInt (← substr (← parts[4]?) 2) with
      | none => return false
      | some length =>
          let salt := base64Decode (← parts[5]?)
          let expected := base64Decode (← parts[6]?)
          if salt = [] ∨ expected = [] ∨ (expected.length : Int) ≠ length then return false
          match pbkdf2.derive password (Int32.ofNat password.length) salt (Int32.ofNat salt.length) (Int32.ofInt iterations)
              (Int32.ofNat expected.length) with
          | none => return false
          | some actual => return actual = expected

/-- `PasswordHasher::verify`. -/
def verify (pbkdf2 : Pbkdf2) (password encodedHash : Bytes) : Option Bool :=
  if !isSupportedHash encodedHash then some false else verifyParts pbkdf2 password (getlines dollar encodedHash)

/-! ## Indices -/

theorem substr_eq {front text : Bytes} (h : front.isPrefixOf text = true) :
    substr text front.length = some (text.drop front.length) :=
  if_pos (List.isPrefixOf_iff_prefix.mp h).length_le

/-- Every index is behind the check of the number of parts, and every `substr` behind the search
for what it drops. -/
theorem verifyParts_isSome (pbkdf2 : Pbkdf2) (password : Bytes) (parts : List Bytes) :
    (verifyParts pbkdf2 password parts).isSome = true := by
  by_cases hCount : parts.length ≠ 7
  · rw [verifyParts, if_pos hCount]
    rfl
  obtain ⟨a, b, c, d, e, f, g, rfl⟩ : ∃ a b c d e f g, parts = [a, b, c, d, e, f, g] := by
    match parts, not_not.mp hCount with
    | [a, b, c, d, e, f, g], _ => exact ⟨a, b, c, d, e, f, g, rfl⟩
  rw [verifyParts, if_neg hCount]
  simp only [List.getElem?_cons_zero, List.getElem?_cons_succ, Option.bind_eq_bind, Option.bind_some]
  by_cases hFirst : a ≠ []
  · rw [if_pos hFirst]
    rfl
  by_cases hName : b ≠ bytes "containercp-pbkdf2-sha256"
  · rw [if_neg hFirst, if_pos hName]
    rfl
  by_cases hVersion : c ≠ bytes "v=1"
  · rw [if_neg hFirst, if_neg hName, if_pos hVersion]
    rfl
  by_cases hIterations : (!(bytes "i=").isPrefixOf d) = true
  · rw [if_neg hFirst, if_neg hName, if_neg hVersion, if_pos hIterations]
    rfl
  by_cases hLength : (!(bytes "l=").isPrefixOf e) = true
  · rw [if_neg hFirst, if_neg hName, if_neg hVersion, if_neg hIterations, if_pos hLength]
    rfl
  have hFourth : substr d 2 = some (d.drop 2) := @substr_eq (bytes "i=") d (by simpa using hIterations)
  have hFifth : substr e 2 = some (e.drop 2) := @substr_eq (bytes "l=") e (by simpa using hLength)
  rw [if_neg hFirst, if_neg hName, if_neg hVersion, if_neg hIterations, if_neg hLength, hFourth, hFifth]
  simp only [Option.bind_some]
  cases parsePositiveInt (d.drop 2) with
  | none => rfl
  | some iterations =>
      cases parsePositiveInt (e.drop 2) with
      | none => rfl
      | some length =>
          simp only
          by_cases hSizes : base64Decode f = [] ∨ base64Decode g = [] ∨ ((base64Decode g).length : Int) ≠ length
          · rw [if_pos hSizes]
            rfl
          · rw [if_neg hSizes]
            cases pbkdf2.derive password (Int32.ofNat password.length) (base64Decode f) (Int32.ofNat (base64Decode f).length)
                (Int32.ofInt iterations) (Int32.ofNat (base64Decode g).length) with
            | none => rfl
            | some actual => rfl

theorem verify_isSome (pbkdf2 : Pbkdf2) (password encodedHash : Bytes) : (verify pbkdf2 password encodedHash).isSome = true := by
  unfold verify
  split
  · rfl
  · exact verifyParts_isSome pbkdf2 password _

/-! ## The round trip -/

theorem base64Encode_ne_nil {data : Bytes} (h : data ≠ []) : base64Encode data ≠ [] := by
  intro hNil
  have hSame := base64Decode_base64Encode data
  rw [hNil] at hSame
  exact h hSame.symm

theorem dollar_notMem_base64Encode (data : Bytes) : dollar ∉ base64Encode data := by
  rw [base64Encode_eq, Base64.encode]
  intro hMem
  rcases List.mem_append.mp hMem with hMem | hMem
  · obtain ⟨n, hn, hLetter⟩ := List.mem_map.mp hMem
    exact (table_letter (Base64.sextets_lt data n hn)).2.2 hLetter
  · exact absurd (List.eq_of_mem_replicate hMem) (by decide)

/-- The parts of a hash that are always the same. -/
def fixedParts : List Bytes := [[], bytes "containercp-pbkdf2-sha256", bytes "v=1", bytes "i=210000", bytes "l=32"]

/-- The parts that `getline` finds in a hash. -/
theorem getlines_hash {salt digest : Bytes} (hDigest : digest ≠ []) :
    getlines dollar (pbkdf2Prefix ++ decimal pbkdf2Iterations ++ bytes "$l=" ++ decimal pbkdf2HashBytes ++ bytes "$" ++
        base64Encode salt ++ bytes "$" ++ base64Encode digest) =
      fixedParts ++ [base64Encode salt, base64Encode digest] := by
  have hFront : pbkdf2Prefix ++ decimal pbkdf2Iterations ++ bytes "$l=" ++ decimal pbkdf2HashBytes ++ bytes "$" =
      [dollar].intercalate fixedParts ++ [dollar] := by decide
  have hDollar : bytes "$" = [dollar] := rfl
  have hText : pbkdf2Prefix ++ decimal pbkdf2Iterations ++ bytes "$l=" ++ decimal pbkdf2HashBytes ++ bytes "$" ++
        base64Encode salt ++ bytes "$" ++ base64Encode digest =
      [dollar].intercalate (fixedParts ++ [base64Encode salt, base64Encode digest]) := by
    rw [hFront, hDollar]
    simp [List.intercalate, fixedParts]
  have hPieces : ∀ piece ∈ fixedParts ++ [base64Encode salt, base64Encode digest], dollar ∉ piece := by
    have hFixed : ∀ piece ∈ fixedParts, dollar ∉ piece := by decide
    intro piece hPiece
    rcases List.mem_append.mp hPiece with hPiece | hPiece
    · exact hFixed piece hPiece
    · rcases List.mem_pair.mp hPiece with rfl | rfl
      · exact dollar_notMem_base64Encode salt
      · exact dollar_notMem_base64Encode digest
  rw [hText, getlines_intercalate (by simp) hPieces]
  exact dropEmptyLast_concat (fixedParts ++ [base64Encode salt]) (base64Encode_ne_nil hDigest)

theorem verify_hash (pbkdf2 : Pbkdf2) (salt : Salt) (password : Bytes) {digest : Bytes}
    (h : pbkdf2.derive password (Int32.ofNat password.length) salt.bytes (Int32.ofNat salt.bytes.length)
      (Int32.ofNat pbkdf2Iterations) (Int32.ofNat pbkdf2HashBytes) = some digest) :
    verify pbkdf2 password (hash pbkdf2 (some salt) password) = some true := by
  have hLength : digest.length = 32 := pbkdf2.length h
  have hDigest : digest ≠ [] := by
    rintro rfl
    cases hLength
  have hSalt : salt.bytes ≠ [] := by
    intro hNil
    have hSixteen := salt.length
    rw [hNil] at hSixteen
    cases hSixteen
  have hSupported : isSupportedHash (hash pbkdf2 (some salt) password) = true := by
    rw [hash]
    simp only [h, List.append_assoc]
    exact List.isPrefixOf_iff_prefix.mpr (List.prefix_append _ _)
  have hIterations : parsePositiveInt ((bytes "i=210000").drop 2) = some 210000 := by decide
  have hSize : parsePositiveInt ((bytes "l=32").drop 2) = some 32 := by decide
  have hFourth : substr (bytes "i=210000") 2 = some ((bytes "i=210000").drop 2) := by decide
  have hFifth : substr (bytes "l=32") 2 = some ((bytes "l=32").drop 2) := by decide
  have hSizes : ¬(salt.bytes = [] ∨ digest = [] ∨ (digest.length : Int) ≠ 32) := by
    rw [hLength]
    simp [hSalt, hDigest]
  have hDerive : pbkdf2.derive password (Int32.ofNat password.length) salt.bytes (Int32.ofNat salt.bytes.length)
      (Int32.ofInt 210000) (Int32.ofNat digest.length) = some digest := by
    rw [hLength]
    exact h
  rw [verify, if_neg (by rw [hSupported]; decide), hash]
  simp only [h]
  rw [getlines_hash hDigest, verifyParts, if_neg (by simp [fixedParts])]
  simp only [fixedParts, List.cons_append, List.nil_append, List.getElem?_cons_zero, List.getElem?_cons_succ,
    Option.bind_eq_bind, Option.bind_some]
  rw [if_neg (by decide), if_neg (by decide), if_neg (by decide), if_neg (by decide), if_neg (by decide), hFourth, hFifth]
  simp only [Option.bind_some, hIterations, hSize, base64Decode_base64Encode]
  rw [if_neg hSizes, hDerive]
  exact congrArg some (decide_eq_true rfl)

/-- A password passes with its own hash, the base64 loops undo each other, and no index leaves
the parts. -/
theorem passwordHasher_round_trip (pbkdf2 : Pbkdf2) :
    (∀ (salt : Salt) (password digest : Bytes),
      pbkdf2.derive password (Int32.ofNat password.length) salt.bytes (Int32.ofNat salt.bytes.length)
          (Int32.ofNat pbkdf2Iterations) (Int32.ofNat pbkdf2HashBytes) = some digest →
        verify pbkdf2 password (hash pbkdf2 (some salt) password) = some true) ∧
      (∀ data, base64Decode (base64Encode data) = data) ∧
      ∀ password encodedHash, (verify pbkdf2 password encodedHash).isSome = true :=
  ⟨fun salt password _ h => verify_hash pbkdf2 salt password h, base64Decode_base64Encode, verify_isSome pbkdf2⟩

def sampleSalt : Salt := ⟨List.replicate 16 7, rfl⟩

/-- What PBKDF2 derives from the password and the salt below. -/
def sampleDigest : Bytes :=
  [158, 38, 88, 225, 219, 37, 190, 44, 179, 112, 36, 62, 229, 88, 174, 100, 113, 111, 240, 171, 244, 195, 27, 181, 205,
    246, 152, 254, 62, 249, 184, 37]

/-- The derivation on that one input. -/
def samplePbkdf2 : Pbkdf2 where
  derive password passlen salt saltlen iterations keylen :=
    if password = bytes "secret" ∧ passlen = 6 ∧ salt = sampleSalt.bytes ∧ saltlen = 16 ∧ iterations = 210000 ∧ keylen = 32 then
      some sampleDigest
    else none
  length h := by
    split at h
    · next hInput =>
      obtain ⟨-, -, -, -, -, rfl⟩ := hInput
      obtain rfl := Option.some.inj h
      rfl
    · cases h

theorem passwordHasher_round_trip_secret :
    verify samplePbkdf2 (bytes "secret") (hash samplePbkdf2 (some sampleSalt) (bytes "secret")) = some true :=
  (passwordHasher_round_trip samplePbkdf2).1 sampleSalt (bytes "secret") sampleDigest (by decide)

end ContainerCP.Security
