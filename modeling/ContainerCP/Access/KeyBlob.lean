import ContainerCP.Access.SshKeyValidator
import Mathlib.Algebra.Group.Int.Defs

/-! `validate_key_blob` with its pointers: `keyBlobError` reads lists, here every access
goes through a position in the blob and is recorded. -/
namespace ContainerCP.Access

/-! ## Reading through a pointer -/

/-- The pointer, and the positions that were read, the latest first. -/
structure Cursor where
  position : Nat := 0
  reads : List Nat := []
  deriving DecidableEq

section Pointer

variable (blob : Bytes)

/-- The byte under the pointer, which moves on. -/
def Cursor.next (cursor : Cursor) : UInt8 × Cursor :=
  (blob.getD cursor.position 0, ⟨cursor.position + 1, cursor.position :: cursor.reads⟩)

/-- `read_uint32_be`: nothing is read if the four bytes are not there. -/
def Cursor.uint32 (cursor : Cursor) : Nat × Cursor :=
  if cursor.position + 4 > blob.length then (0, cursor)
  else
    let (a, cursor) := cursor.next blob
    let (b, cursor) := cursor.next blob
    let (c, cursor) := cursor.next blob
    let (d, cursor) := cursor.next blob
    (((a.toNat * 256 + b.toNat) * 256 + c.toNat) * 256 + d.toNat, cursor)

/-- So many bytes under the pointer. -/
def Cursor.take : Nat → Cursor → Bytes × Cursor
  | 0, cursor => ([], cursor)
  | n + 1, cursor =>
      let (c, cursor) := cursor.next blob
      let (rest, cursor) := Cursor.take n cursor
      (c :: rest, cursor)

/-- `read_string`. The pointer never stands behind the end, so `p - 4 == end` never holds. -/
def Cursor.string (cursor : Cursor) : Bytes × Cursor :=
  let (length, cursor) := cursor.uint32 blob
  if length = 0 ∧ cursor.position = blob.length + 4 then ([], cursor)
  else if cursor.position + length > blob.length then ([], cursor)
  else cursor.take blob length

/-- `validate_ed25519`. -/
def Cursor.validateEd25519 (cursor : Cursor) : Bool × Cursor :=
  let (key, cursor) := cursor.string blob
  (key ≠ [] ∧ key.length = 32 ∧ cursor.position = blob.length, cursor)

/-- `validate_rsa`. -/
def Cursor.validateRsa (cursor : Cursor) : Bool × Cursor :=
  let (e, cursor) := cursor.string blob
  let (n, cursor) := cursor.string blob
  (e ≠ [] ∧ n ≠ [] ∧ cursor.position = blob.length ∧ 256 ≤ n.length, cursor)

/-- `validate_ecdsa`. -/
def Cursor.validateEcdsa (cursor : Cursor) : Bool × Cursor :=
  let (curve, cursor) := cursor.string blob
  let (point, cursor) := cursor.string blob
  (curve ≠ [] ∧ point ≠ [] ∧ cursor.position = blob.length, cursor)

/-- `validate_key_blob`: the text of its error, and the pointer at its end. -/
def validateKeyBlob (keyType : Bytes) : Option Bytes × Cursor :=
  let (embedded, cursor) := ({} : Cursor).string blob
  if embedded = [] then (some (bytes "malformed key blob: cannot read key type"), cursor)
  else if embedded ≠ keyType then
    (some (bytes "key type mismatch: expected " ++ keyType ++ bytes ", blob contains " ++ embedded), cursor)
  else if keyType = bytes "ssh-ed25519" then
    let (valid, cursor) := cursor.validateEd25519 blob
    (if valid then none else some (bytes "invalid ed25519 key: expected 32-byte public key"), cursor)
  else if keyType = bytes "ssh-rsa" then
    let (valid, cursor) := cursor.validateRsa blob
    (if valid then none else some (bytes "invalid RSA key: key too short (minimum 2048 bits)"), cursor)
  else if (bytes "ecdsa-sha2-").isPrefixOf keyType then
    let (valid, cursor) := cursor.validateEcdsa blob
    (if valid then none else some (bytes "invalid ECDSA key: malformed curve or point data"), cursor)
  else (none, cursor)

/-! ## No read is outside -/

/-- The pointer is in the blob, and so was every read. -/
structure Cursor.Inside (cursor : Cursor) : Prop where
  position : cursor.position ≤ blob.length
  reads : ∀ i ∈ cursor.reads, i < blob.length

variable {blob} {cursor : Cursor}

theorem Cursor.Inside.next (h : cursor.Inside blob) (hRoom : cursor.position < blob.length) :
    (cursor.next blob).2.Inside blob := by
  refine ⟨hRoom, ?_⟩
  intro i hMem
  rcases List.mem_cons.mp hMem with rfl | hMem
  · exact hRoom
  · exact h.reads i hMem

theorem Cursor.drop_eq_next (cursor : Cursor) (hRoom : cursor.position < blob.length) :
    blob.drop cursor.position = (cursor.next blob).1 :: blob.drop (cursor.next blob).2.position := by
  have hByte : blob.getD cursor.position 0 = blob[cursor.position] := by simp [List.getD, hRoom]
  rw [List.drop_eq_getElem_cons hRoom, Cursor.next, hByte]

/-- What a read through the pointer returns is what the list model reads of the rest. -/
structure Cursor.Agrees (blob : Bytes) {α : Type} (read : α × Cursor) (model : α × Bytes) : Prop where
  inside : read.2.Inside blob
  result : read.1 = model.1
  rest : blob.drop read.2.position = model.2

theorem Cursor.Inside.uint32 (h : cursor.Inside blob) :
    Agrees blob (cursor.uint32 blob) (readUInt32 (blob.drop cursor.position)) := by
  unfold Cursor.uint32
  split
  · -- fewer than four bytes are left
    next hShort =>
    have hLength : (blob.drop cursor.position).length < 4 := by
      rw [List.length_drop]
      omega
    refine ⟨h, ?_, ?_⟩ <;>
      · generalize blob.drop cursor.position = rest at hLength
        match rest, hLength with
        | [], _ => rfl
        | [_], _ => rfl
        | [_, _], _ => rfl
        | [_, _, _], _ => rfl
  · next hRoom =>
    have hFirst : cursor.position < blob.length := by omega
    have hSecond : cursor.position + 1 < blob.length := by omega
    have hThird : cursor.position + 1 + 1 < blob.length := by omega
    have hFourth : cursor.position + 1 + 1 + 1 < blob.length := by omega
    refine ⟨(((h.next hFirst).next hSecond).next hThird).next hFourth, ?_, ?_⟩ <;>
      rw [Cursor.drop_eq_next cursor hFirst, Cursor.drop_eq_next (cursor.next blob).2 hSecond,
        Cursor.drop_eq_next ((cursor.next blob).2.next blob).2 hThird,
        Cursor.drop_eq_next (((cursor.next blob).2.next blob).2.next blob).2 hFourth] <;>
      rfl

theorem Cursor.Inside.take (h : cursor.Inside blob) (n : Nat) (hRoom : cursor.position + n ≤ blob.length) :
    Agrees blob (cursor.take blob n) ((blob.drop cursor.position).take n, (blob.drop cursor.position).drop n) := by
  induction n generalizing cursor with
  | zero => exact ⟨h, rfl, rfl⟩
  | succ n ih =>
      have hFirst : cursor.position < blob.length := by omega
      have hRest := ih (h.next hFirst) (by simp only [Cursor.next]; omega)
      rw [Cursor.drop_eq_next cursor hFirst]
      exact ⟨hRest.inside, congrArg (_ :: ·) hRest.result, hRest.rest⟩

theorem Cursor.Inside.string (h : cursor.Inside blob) :
    Agrees blob (cursor.string blob) (readString (blob.drop cursor.position)) := by
  have hLength := h.uint32
  have hPosition := hLength.inside.position
  have hRest : (blob.drop (cursor.uint32 blob).2.position).length = blob.length - (cursor.uint32 blob).2.position :=
    List.length_drop
  simp only [Cursor.string, readString, ← hLength.result, ← hLength.rest, hRest]
  rw [if_neg (by omega)]
  split
  · next hOutside =>
    rw [if_pos (by omega)]
    exact ⟨hLength.inside, rfl, rfl⟩
  · next hRoom =>
    rw [if_neg (by omega)]
    exact hLength.inside.take _ (by omega)

theorem Cursor.Inside.atEnd (h : cursor.Inside blob) : cursor.position = blob.length ↔ blob.drop cursor.position = [] := by
  have hPosition := h.position
  rw [List.drop_eq_nil_iff]
  omega

/-- The pointers do what the lists do, and stay in the blob. -/
theorem validateKeyBlob_spec (keyType blob : Bytes) :
    (validateKeyBlob blob keyType).2.Inside blob ∧ (validateKeyBlob blob keyType).1 = keyBlobError keyType blob := by
  have hStart : ({} : Cursor).Inside blob := ⟨Nat.zero_le _, by simp⟩
  have hType := hStart.string
  have hFirst := hType.inside.string
  have hSecond := hFirst.inside.string
  have hFirstEnd := hFirst.inside.atEnd
  have hSecondEnd := hSecond.inside.atEnd
  rw [hType.rest] at hFirst
  rw [hFirst.rest] at hSecond hFirstEnd
  rw [hSecond.rest] at hSecondEnd
  simp only [List.drop_zero] at hType hFirst hSecond hFirstEnd hSecondEnd
  simp only [validateKeyBlob, keyBlobError, Cursor.validateEd25519, Cursor.validateRsa, Cursor.validateEcdsa,
    hType.result, hFirst.result, hSecond.result, hFirstEnd, hSecondEnd]
  generalize (readString (readString blob).2).1 = first
  generalize (readString (readString blob).2).2 = behind
  split
  · exact ⟨hType.inside, rfl⟩
  split
  · exact ⟨hType.inside, rfl⟩
  split
  · refine ⟨hFirst.inside, ?_⟩
    have hKey : (first ≠ [] ∧ first.length = 32 ∧ behind = []) ↔ first.length = 32 ∧ behind = [] := by
      constructor
      · exact And.right
      · rintro ⟨hLength, hBehind⟩
        refine ⟨?_, hLength, hBehind⟩
        rintro rfl
        cases hLength
    simp only [decide_eq_true_eq, hKey]
  split
  · refine ⟨hSecond.inside, ?_⟩
    simp only [decide_eq_true_eq]
  split
  · refine ⟨hSecond.inside, ?_⟩
    simp only [decide_eq_true_eq]
  · exact ⟨hType.inside, rfl⟩

end Pointer

/-! ## What an accepted blob is made of -/

/-- A text behind its length in four bytes. -/
def field (text : Bytes) : Bytes := [24, 16, 8, 0].map (fun shift => UInt8.ofNat (text.length >>> shift)) ++ text

/-- The whole number of a byte string, the highest byte first. -/
def magnitude (digits : Bytes) : Nat := digits.foldl (fun value c => value * 256 + c.toNat) 0

/-- The value of an `mpint`: two's complement, so the highest bit is the sign. -/
def mpint (digits : Bytes) : Int :=
  if digits.head?.any (128 ≤ ·) then magnitude digits - 256 ^ digits.length else magnitude digits

/-- The curves, each with the length of an uncompressed point. -/
def curves : List (Bytes × Nat) := [(bytes "nistp256", 65), (bytes "nistp384", 97), (bytes "nistp521", 133)]

/-- A key of an algorithm, as its fields in a row with nothing behind them. -/
inductive KeyBlob : Bytes → Bytes → Prop where
  | ed25519 {key : Bytes} (hKey : key.length = 32) :
      KeyBlob (bytes "ssh-ed25519") (field (bytes "ssh-ed25519") ++ field key)
  | rsa {e n : Bytes} (hE : e.length < 2 ^ 32) (hN : n.length < 2 ^ 32) (hModulus : 2 ^ 2047 ≤ mpint n) :
      KeyBlob (bytes "ssh-rsa") (field (bytes "ssh-rsa") ++ (field e ++ field n))
  | ecdsa {curve point : Bytes} (hCurve : (curve, point.length) ∈ curves) :
      KeyBlob (bytes "ecdsa-sha2-" ++ curve) (field (bytes "ecdsa-sha2-" ++ curve) ++ (field curve ++ field point))

/-- In a blob of three fields that are not empty, a long modulus is a large number, and the
point is one of the curve that the algorithm names. -/
def Strong (keyType blob : Bytes) : Prop :=
  ∀ first second : Bytes, first ≠ [] → second ≠ [] → first.length < 2 ^ 32 → second.length < 2 ^ 32 →
    blob = field keyType ++ (field first ++ field second) →
      (keyType = bytes "ssh-rsa" → 256 ≤ second.length → 2 ^ 2047 ≤ mpint second) ∧
      ∀ curve, keyType = bytes "ecdsa-sha2-" ++ curve → first = curve ∧ (first, second.length) ∈ curves

theorem readUInt32_bytes {n : Nat} (h : n < 2 ^ 32) (rest : Bytes) :
    readUInt32 ([24, 16, 8, 0].map (fun shift => UInt8.ofNat (n >>> shift)) ++ rest) = (n, rest) := by
  simp only [List.map_cons, List.map_nil, List.cons_append, List.nil_append, readUInt32, UInt8.toNat_ofNat',
    Nat.shiftRight_eq_div_pow]
  congr 1
  omega

/-- A field is read back, whatever stands behind it. -/
theorem readString_field {text : Bytes} (h : text.length < 2 ^ 32) (rest : Bytes) :
    readString (field text ++ rest) = (text, rest) := by
  simp only [readString, field, List.append_assoc, readUInt32_bytes h]
  rw [if_neg (by simp), List.take_left, List.drop_left]

theorem readUInt32_lt (blob : Bytes) : (readUInt32 blob).1 < 2 ^ 32 := by
  fun_cases readUInt32 blob with
  | case1 a b c d rest =>
      have hA := a.toNat_lt
      have hB := b.toNat_lt
      have hC := c.toNat_lt
      have hD := d.toNat_lt
      omega
  | case2 => exact Nat.two_pow_pos 32

/-- A number that is not zero was written in four bytes. -/
theorem bytes_of_readUInt32 {blob : Bytes} (h : (readUInt32 blob).1 ≠ 0) :
    blob = [24, 16, 8, 0].map (fun shift => UInt8.ofNat ((readUInt32 blob).1 >>> shift)) ++ (readUInt32 blob).2 := by
  revert h
  fun_cases readUInt32 blob with
  | case1 a b c d rest =>
      have hA := a.toNat_lt
      have hB := b.toNat_lt
      have hC := c.toNat_lt
      have hD := d.toNat_lt
      intro _
      simp only [List.map_cons, List.map_nil, List.cons_append, List.nil_append, Nat.shiftRight_eq_div_pow]
      have hByte : ∀ {m : Nat} {x : UInt8}, m % 256 = x.toNat → x = UInt8.ofNat m := by
        intro m x hMod
        apply UInt8.toNat_inj.mp
        rw [UInt8.toNat_ofNat', hMod]
      rw [← hByte (x := a) (by omega), ← hByte (x := b) (by omega), ← hByte (x := c) (by omega),
        ← hByte (x := d) (by omega)]
  | case2 => exact fun h => absurd rfl h

/-- What was read and is not empty stands in front as a field. -/
theorem eq_field_of_readString {blob text rest : Bytes} (h : readString blob = (text, rest)) (hText : text ≠ []) :
    blob = field text ++ rest ∧ text.length < 2 ^ 32 := by
  simp only [readString] at h
  split at h
  · cases h
    exact absurd rfl hText
  · next hLength =>
    cases h
    have hTaken : ((readUInt32 blob).2.take (readUInt32 blob).1).length = (readUInt32 blob).1 := by
      rw [List.length_take]
      omega
    have hNumber : (readUInt32 blob).1 ≠ 0 := by
      intro hZero
      rw [hZero] at hText
      exact hText rfl
    constructor
    · rw [field, hTaken, List.append_assoc, List.take_append_drop]
      exact bytes_of_readUInt32 hNumber
    · rw [hTaken]
      exact readUInt32_lt blob

section Accepted

variable {keyType blob first second : Bytes}

/-- The number in front of a field is the only way to read the fields. -/
theorem fields_inj {first' second' : Bytes} (hFirst : first.length < 2 ^ 32) (hSecond : second.length < 2 ^ 32)
    (hFirst' : first'.length < 2 ^ 32) (hSecond' : second'.length < 2 ^ 32)
    (h : field keyType ++ (field first ++ field second) = field keyType ++ (field first' ++ field second')) :
    first = first' ∧ second = second' := by
  have hFields := List.append_cancel_left h
  have hReadFirst := congrArg readString hFields
  rw [readString_field hFirst, readString_field hFirst', Prod.mk.injEq] at hReadFirst
  have hReadSecond := congrArg readString hReadFirst.2
  rw [← List.append_nil (field second), ← List.append_nil (field second'), readString_field hSecond,
    readString_field hSecond', Prod.mk.injEq] at hReadSecond
  exact ⟨hReadFirst.1, hReadSecond.1⟩

/-- An accepted key of the two families with three fields. -/
theorem eq_fields_of_accepted (hFamily : keyType = bytes "ssh-rsa" ∨ (bytes "ecdsa-sha2-").isPrefixOf keyType = true)
    (h : keyBlobError keyType blob = none) :
    ∃ first second, first ≠ [] ∧ second ≠ [] ∧ first.length < 2 ^ 32 ∧ second.length < 2 ^ 32 ∧
      blob = field keyType ++ (field first ++ field second) ∧ (keyType = bytes "ssh-rsa" → 256 ≤ second.length) := by
  have hNotEd : keyType ≠ bytes "ssh-ed25519" := by
    rintro rfl
    revert hFamily
    decide
  obtain ⟨embedded, rest, hEmbedded⟩ : ∃ text rest, readString blob = (text, rest) := ⟨_, _, rfl⟩
  obtain ⟨first, behind, hFirst⟩ : ∃ text behind, readString rest = (text, behind) := ⟨_, _, rfl⟩
  obtain ⟨second, last, hSecond⟩ : ∃ text last, readString behind = (text, last) := ⟨_, _, rfl⟩
  simp only [keyBlobError, hEmbedded, hFirst, hSecond, if_neg hNotEd] at h
  split at h
  · cases h
  next hSome =>
  split at h
  · cases h
  next hType =>
  have hParts : first ≠ [] ∧ second ≠ [] ∧ last = [] ∧ (keyType = bytes "ssh-rsa" → 256 ≤ second.length) := by
    split at h
    · split at h
      · next hParts => exact ⟨hParts.1, hParts.2.1, hParts.2.2.1, fun _ => hParts.2.2.2⟩
      · cases h
    · next hNotRsa =>
      rw [if_pos (hFamily.resolve_left hNotRsa)] at h
      split at h
      · next hParts => exact ⟨hParts.1, hParts.2.1, hParts.2.2, fun hRsa => absurd hRsa hNotRsa⟩
      · cases h
  obtain ⟨hFirstSome, hSecondSome, rfl, hRsa⟩ := hParts
  obtain ⟨rfl, -⟩ := eq_field_of_readString hEmbedded hSome
  obtain ⟨rfl, hFirstLt⟩ := eq_field_of_readString hFirst hFirstSome
  obtain ⟨rfl, hSecondLt⟩ := eq_field_of_readString hSecond hSecondSome
  refine ⟨first, second, hFirstSome, hSecondSome, hFirstLt, hSecondLt, ?_, hRsa⟩
  rw [List.append_nil, not_not.mp hType]

/-- Three fields that are not empty are enough, and for RSA the length of the last. -/
theorem accepted_of_fields (hType : keyType ≠ []) (hTypeLt : keyType.length < 2 ^ 32)
    (hFamily : keyType = bytes "ssh-rsa" ∨ (bytes "ecdsa-sha2-").isPrefixOf keyType = true)
    (hFirst : first ≠ []) (hSecond : second ≠ []) (hFirstLt : first.length < 2 ^ 32) (hSecondLt : second.length < 2 ^ 32)
    (hRsa : keyType = bytes "ssh-rsa" → 256 ≤ second.length) :
    keyBlobError keyType (field keyType ++ (field first ++ field second)) = none := by
  have hNotEd : keyType ≠ bytes "ssh-ed25519" := by
    rintro rfl
    revert hFamily
    decide
  have hLast : readString (field second) = (second, []) := by
    simpa using readString_field hSecondLt []
  simp only [keyBlobError, readString_field hTypeLt, readString_field hFirstLt, hLast, if_neg hType, if_neg hNotEd,
    ne_eq, not_true_eq_false, if_false]
  split
  · next hIsRsa => rw [if_pos ⟨hFirst, hSecond, trivial, hRsa hIsRsa⟩]
  · next hNotRsa =>
    rw [if_pos (hFamily.resolve_left hNotRsa), if_pos ⟨hFirst, hSecond, trivial⟩]

theorem eq_fields_of_accepted_ed25519 (h : keyBlobError (bytes "ssh-ed25519") blob = none) :
    ∃ key : Bytes, key.length = 32 ∧ blob = field (bytes "ssh-ed25519") ++ field key := by
  obtain ⟨embedded, rest, hEmbedded⟩ : ∃ text rest, readString blob = (text, rest) := ⟨_, _, rfl⟩
  obtain ⟨first, behind, hFirst⟩ : ∃ text behind, readString rest = (text, behind) := ⟨_, _, rfl⟩
  simp only [keyBlobError, hEmbedded, hFirst, if_true] at h
  split at h
  · cases h
  next hSome =>
  split at h
  · cases h
  next hType =>
  split at h
  · next hKey =>
    obtain ⟨hLength, rfl⟩ := hKey
    have hFirstSome : first ≠ [] := by
      rintro rfl
      cases hLength
    obtain ⟨rfl, -⟩ := eq_field_of_readString hEmbedded hSome
    obtain ⟨rfl, -⟩ := eq_field_of_readString hFirst hFirstSome
    refine ⟨first, hLength, ?_⟩
    rw [List.append_nil, not_not.mp hType]
  · cases h

theorem ne_ecdsa_append (hPrefix : (bytes "ecdsa-sha2-").isPrefixOf keyType = false) (curve : Bytes) :
    keyType ≠ bytes "ecdsa-sha2-" ++ curve := by
  rintro rfl
  rw [List.isPrefixOf_iff_prefix.mpr (List.prefix_append _ _)] at hPrefix
  cases hPrefix

theorem KeyBlob.mpint_le (h : KeyBlob keyType blob) (hType : keyType = bytes "ssh-rsa")
    (hFirst : first.length < 2 ^ 32) (hSecond : second.length < 2 ^ 32)
    (hBlob : blob = field keyType ++ (field first ++ field second)) : 2 ^ 2047 ≤ mpint second := by
  cases h with
  | ed25519 => exact absurd hType (by decide)
  | rsa hE hN hModulus =>
      obtain ⟨rfl, rfl⟩ := fields_inj hE hN hFirst hSecond hBlob
      exact hModulus
  | ecdsa => exact absurd hType.symm (ne_ecdsa_append (by decide) _)

theorem curves_lt {entry : Bytes × Nat} (h : entry ∈ curves) : entry.1.length < 2 ^ 32 ∧ entry.2 < 2 ^ 32 := by
  revert entry
  decide

theorem KeyBlob.curve_eq (h : KeyBlob keyType blob) {curve : Bytes} (hType : keyType = bytes "ecdsa-sha2-" ++ curve)
    (hFirst : first.length < 2 ^ 32) (hSecond : second.length < 2 ^ 32)
    (hBlob : blob = field keyType ++ (field first ++ field second)) : first = curve ∧ (first, second.length) ∈ curves := by
  cases h with
  | ed25519 => exact absurd hType (ne_ecdsa_append (by decide) _)
  | rsa => exact absurd hType (ne_ecdsa_append (by decide) _)
  | ecdsa hCurve =>
      obtain ⟨rfl, rfl⟩ := fields_inj (curves_lt hCurve).1 (curves_lt hCurve).2 hFirst hSecond hBlob
      exact ⟨List.append_cancel_left hType, hCurve⟩

/-- No read leaves the blob. What is accepted is a key of the algorithm, where a blob that
looks like one has a large modulus or a point of the curve: neither is looked at. -/
theorem validateKeyBlob_iff (keyType blob : Bytes) (h : keyType ∈ supportedAlgorithms) :
    (∀ i ∈ (validateKeyBlob blob keyType).2.reads, i < blob.length) ∧
      (((validateKeyBlob blob keyType).1 = none → KeyBlob keyType blob) ↔ Strong keyType blob) := by
  obtain ⟨hInside, hError⟩ := validateKeyBlob_spec keyType blob
  refine ⟨hInside.reads, ?_⟩
  rw [hError]
  have hSupported : ∀ keyType ∈ supportedAlgorithms, keyType ≠ [] ∧ keyType.length < 2 ^ 32 ∧
      (keyType = bytes "ssh-ed25519" ∨ keyType = bytes "ssh-rsa" ∨ (bytes "ecdsa-sha2-").isPrefixOf keyType = true) := by
    decide
  obtain ⟨hSome, hLt, hKind⟩ := hSupported keyType h
  constructor
  · intro hSound first second hFirst hSecond hFirstLt hSecondLt hBlob
    constructor
    · intro hRsa hLength
      have hAccepted : keyBlobError keyType blob = none := by
        rw [hBlob]
        exact accepted_of_fields hSome hLt (.inl hRsa) hFirst hSecond hFirstLt hSecondLt fun _ => hLength
      exact (hSound hAccepted).mpint_le hRsa hFirstLt hSecondLt hBlob
    · rintro curve hCurve
      have hFamily : (bytes "ecdsa-sha2-").isPrefixOf keyType = true := by
        rw [hCurve, List.isPrefixOf_iff_prefix]
        exact List.prefix_append _ _
      have hNotRsa : keyType ≠ bytes "ssh-rsa" := by
        rintro rfl
        revert hFamily
        decide
      have hAccepted : keyBlobError keyType blob = none := by
        rw [hBlob]
        exact accepted_of_fields hSome hLt (.inr hFamily) hFirst hSecond hFirstLt hSecondLt fun hRsa => absurd hRsa hNotRsa
      exact (hSound hAccepted).curve_eq hCurve hFirstLt hSecondLt hBlob
  · intro hStrong hAccepted
    rcases hKind with rfl | rfl | hFamily
    · obtain ⟨key, hKey, rfl⟩ := eq_fields_of_accepted_ed25519 hAccepted
      exact .ed25519 hKey
    · obtain ⟨e, n, hE, hN, hELt, hNLt, rfl, hLength⟩ := eq_fields_of_accepted (.inl rfl) hAccepted
      exact .rsa hELt hNLt ((hStrong e n hE hN hELt hNLt rfl).1 rfl (hLength rfl))
    · obtain ⟨curve, rfl⟩ := List.isPrefixOf_iff_prefix.mp hFamily
      obtain ⟨first, second, hFirst, hSecond, hFirstLt, hSecondLt, rfl, -⟩ :=
        eq_fields_of_accepted (.inr hFamily) hAccepted
      obtain ⟨rfl, hCurve⟩ := (hStrong first second hFirst hSecond hFirstLt hSecondLt rfl).2 curve rfl
      exact .ecdsa hCurve

end Accepted

/-- A key of 32 bytes, and one with a byte more behind it. -/
theorem validateKeyBlob_iff_sample :
    ((validateKeyBlob (field (bytes "ssh-ed25519") ++ field (List.replicate 32 7)) (bytes "ssh-ed25519")).1 = none →
      KeyBlob (bytes "ssh-ed25519") (field (bytes "ssh-ed25519") ++ field (List.replicate 32 7))) ∧
    ∀ i ∈ (validateKeyBlob (field (bytes "ssh-ed25519") ++ field (List.replicate 32 7) ++ [0])
      (bytes "ssh-ed25519")).2.reads, i < 52 := by
  have hStrong : Strong (bytes "ssh-ed25519") (field (bytes "ssh-ed25519") ++ field (List.replicate 32 7)) := by
    intro first second _ _ _ _ _
    exact ⟨fun h => absurd h (by decide), fun curve h => absurd h (ne_ecdsa_append (by decide) _)⟩
  exact ⟨(validateKeyBlob_iff _ _ (by decide)).2.mpr hStrong, (validateKeyBlob_iff _ _ (by decide)).1⟩

theorem mpint_zeros (n : Nat) : mpint (List.replicate n 0) = 0 := by
  have hMagnitude : magnitude (List.replicate n 0) = 0 := by
    induction n with
    | zero => rfl
    | succ n ih => exact ih
  rw [mpint, hMagnitude, if_neg]
  · rfl
  · cases n with
    | zero => exact Bool.false_ne_true
    | succ n => exact Bool.false_ne_true

/-- An RSA modulus of 256 zeros, and a point of one byte under the name of another curve. -/
theorem validateKeyBlob_weak :
    ((validateKeyBlob (field (bytes "ssh-rsa") ++ (field [3] ++ field (List.replicate 256 0))) (bytes "ssh-rsa")).1 =
        none ∧
      ¬ KeyBlob (bytes "ssh-rsa") (field (bytes "ssh-rsa") ++ (field [3] ++ field (List.replicate 256 0)))) ∧
    (validateKeyBlob (field (bytes "ecdsa-sha2-nistp256") ++ (field (bytes "nistp521") ++ field [4]))
        (bytes "ecdsa-sha2-nistp256")).1 = none ∧
      ¬ KeyBlob (bytes "ecdsa-sha2-nistp256")
        (field (bytes "ecdsa-sha2-nistp256") ++ (field (bytes "nistp521") ++ field [4])) := by
  have hLength : (List.replicate 256 (0 : UInt8)).length = 256 := List.length_replicate
  refine ⟨⟨?_, ?_⟩, ?_, ?_⟩
  · rw [(validateKeyBlob_spec _ _).2]
    exact accepted_of_fields (by decide) (by decide) (.inl rfl) (by decide) (by decide) (by decide)
      (by rw [hLength]; decide) fun _ => hLength.ge
  · intro hKey
    have hModulus := hKey.mpint_le rfl (by decide) (by rw [hLength]; decide) rfl
    rw [mpint_zeros] at hModulus
    exact absurd hModulus (Int.not_le.mpr (Int.pow_pos (by decide)))
  · rw [(validateKeyBlob_spec _ _).2]
    exact accepted_of_fields (by decide) (by decide) (.inr (by decide)) (by decide) (by decide) (by decide) (by decide)
      fun h => absurd h (by decide)
  · intro hKey
    have hType : bytes "ecdsa-sha2-nistp256" = bytes "ecdsa-sha2-" ++ bytes "nistp256" := by decide
    exact absurd (hKey.curve_eq hType (by decide) (by decide) rfl).1 (by decide)

end ContainerCP.Access
