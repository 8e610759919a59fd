import ContainerCP.Dns.SpfAnalyzer

/-! The address blocks of `ip4` and `ip6`: an address matches when it is read as the network
is, up to the bits behind the prefix. -/
namespace ContainerCP.Dns

/-! ## Bits from the front -/

/-- A mask of leading ones compares the bits in front. -/
theorem and_mask_eq_iff {w n : Nat} {a b mask : BitVec w} (hMask : ∀ i, mask.getMsbD i = decide (i < n)) :
    a &&& mask = b &&& mask ↔ ∀ i < n, a.getMsbD i = b.getMsbD i := by
  constructor
  · intro h i hi
    have hBit := congrArg (BitVec.getMsbD · i) h
    simpa [BitVec.getMsbD_and, hMask, hi] using hBit
  · intro h
    refine BitVec.eq_of_getMsbD_eq fun i _ => ?_
    rw [BitVec.getMsbD_and, BitVec.getMsbD_and, hMask]
    by_cases hi : i < n
    · rw [h i hi]
    · simp [hi]

theorem getMsbD_not_low {w k i : Nat} (hk : k < w) :
    (~~~((1#w <<< k) - 1#w)).getMsbD i = decide (i < w - k) := by
  have hLow : ((1#w <<< k) - 1#w).toNat = 2 ^ k - 1 := by
    have hPow : 2 ^ k < 2 ^ w := Nat.pow_lt_pow_right (by decide) hk
    have hOne : (1#w).toNat = 1 := by
      rw [BitVec.toNat_ofNat, Nat.mod_eq_of_lt (Nat.one_lt_two_pow (by omega))]
    have hShift : (1#w <<< k).toNat = 2 ^ k := by
      rw [BitVec.toNat_shiftLeft, hOne, Nat.shiftLeft_eq, Nat.one_mul, Nat.mod_eq_of_lt hPow]
    have hPos : 1 ≤ 2 ^ k := Nat.one_le_two_pow
    rw [BitVec.toNat_sub_of_le (by rw [BitVec.le_def, hOne, hShift]; exact hPos), hOne, hShift]
  rw [BitVec.getMsbD_not, BitVec.getMsbD_eq_getLsbD, BitVec.getLsbD, hLow, Nat.testBit_two_pow_sub_one]
  by_cases hi : i < w
  · simp only [hi, decide_true, Bool.true_and, ← decide_not]
    exact decide_eq_decide.mpr (by omega)
  · simp [hi]
    omega

/-- The mask of `check_ip4_mechanism`. -/
theorem getMsbD_mask4 {prefixLen i : Nat} (h : prefixLen ≤ 32) :
    (mask4 prefixLen).toBitVec.getMsbD i = decide (i < prefixLen) := by
  unfold mask4
  by_cases hZero : prefixLen = 0
  · simp [hZero]
  · have hWidth : 32 - (32 - prefixLen) = prefixLen := by omega
    have hMask : (~~~((1 <<< UInt32.ofNat (32 - prefixLen)) - 1) : UInt32).toBitVec =
        ~~~((1#32 <<< (32 - prefixLen)) - 1#32) := by
      have hShift : (UInt32.ofNat (32 - prefixLen)).toBitVec % 32 = BitVec.ofNat 32 (32 - prefixLen) := by
        apply BitVec.eq_of_toNat_eq
        rw [BitVec.toNat_umod]
        simp
        omega
      rw [UInt32.toBitVec_not, UInt32.toBitVec_sub, UInt32.toBitVec_shiftLeft, hShift]
      rw [BitVec.shiftLeft_eq', BitVec.toNat_ofNat, Nat.mod_eq_of_lt (by omega)]
      rfl
    rw [if_neg hZero, hMask, getMsbD_not_low (by omega), hWidth]

/-- The mask of the byte behind the full ones. -/
theorem getMsbD_mask8 {remainingBits i : Nat} (hPos : remainingBits ≠ 0) (hLt : remainingBits < 8) :
    ((0xFF : UInt8) <<< UInt8.ofNat (8 - remainingBits)).toBitVec.getMsbD i = decide (i < remainingBits) := by
  have hShift : (UInt8.ofNat (8 - remainingBits)).toBitVec % 8 = BitVec.ofNat 8 (8 - remainingBits) := by
    apply BitVec.eq_of_toNat_eq
    rw [BitVec.toNat_umod]
    simp
    omega
  have hOnes : UInt8.toBitVec 0xFF = BitVec.allOnes 8 := rfl
  rw [UInt8.toBitVec_shiftLeft, hShift, BitVec.shiftLeft_eq', BitVec.toNat_ofNat, Nat.mod_eq_of_lt (by omega), hOnes,
    BitVec.getMsbD_shiftLeft, BitVec.getMsbD_allOnes]
  exact decide_eq_decide.mpr (by omega)

/-- The bits of an IPv4 address. -/
def bit4 (addr : UInt32) (i : Nat) : Bool := addr.toBitVec.getMsbD i

/-- The bits of an IPv6 address. -/
def bit6 (addr : Vector UInt8 16) (i : Nat) : Bool := (addr.toList.getD (i / 8) 0).toBitVec.getMsbD (i % 8)

theorem masked4_iff {addr net : UInt32} {prefixLen : Nat} (h : prefixLen ≤ 32) :
    (addr &&& mask4 prefixLen == net &&& mask4 prefixLen) = true ↔ ∀ i < prefixLen, bit4 addr i = bit4 net i := by
  rw [beq_iff_eq, ← UInt32.toBitVec_inj, UInt32.toBitVec_and, UInt32.toBitVec_and]
  exact and_mask_eq_iff fun i => getMsbD_mask4 h

theorem take_eq_take_iff {addr net : List UInt8} {count : Nat} (hAddr : count ≤ addr.length) (hNet : count ≤ net.length) :
    addr.take count = net.take count ↔ ∀ k < count, addr.getD k 0 = net.getD k 0 := by
  have hAt : ∀ {bytes : List UInt8} {k : Nat}, k < count → count ≤ bytes.length →
      (bytes.take count)[k]? = some (bytes.getD k 0) := by
    intro bytes k hk hLength
    rw [List.getElem?_take_of_lt hk, List.getD_eq_getElem?_getD, List.getElem?_eq_getElem (by omega), Option.getD_some]
  constructor
  · intro h k hk
    have hSame := congrArg (·[k]?) h
    simpa only [hAt hk hAddr, hAt hk hNet, Option.some.injEq] using hSame
  · intro h
    refine List.ext_getElem? fun k => ?_
    by_cases hk : k < count
    · rw [hAt hk hAddr, hAt hk hNet, h k hk]
    · rw [List.getElem?_eq_none (by simp; omega), List.getElem?_eq_none (by simp; omega)]

theorem byte_eq_iff {a b : UInt8} : a = b ↔ ∀ j < 8, a.toBitVec.getMsbD j = b.toBitVec.getMsbD j :=
  ⟨fun h _ _ => by rw [h], fun h => UInt8.toBitVec_inj.mp (BitVec.eq_of_getMsbD_eq fun j hj => h j hj)⟩

/-- Bits in front, by whole bytes and the bits of the next one. -/
theorem forall_bits_iff {p : Nat → Nat → Prop} {n : Nat} :
    (∀ i < n, p (i / 8) (i % 8)) ↔ (∀ k < n / 8, ∀ j < 8, p k j) ∧ ∀ j < n % 8, p (n / 8) j := by
  constructor
  · intro h
    constructor
    · intro k hk j hj
      have hBit := h (8 * k + j) (by omega)
      rwa [show (8 * k + j) / 8 = k by omega, show (8 * k + j) % 8 = j by omega] at hBit
    · intro j hj
      have hBit := h (8 * (n / 8) + j) (by omega)
      rwa [show (8 * (n / 8) + j) / 8 = n / 8 by omega, show (8 * (n / 8) + j) % 8 = j by omega] at hBit
  · rintro ⟨hFull, hRest⟩ i hi
    by_cases hByte : i / 8 < n / 8
    · exact hFull _ hByte _ (Nat.mod_lt i (by decide))
    · have hSame : i / 8 = n / 8 := by omega
      rw [hSame]
      exact hRest _ (by omega)

theorem samePrefix6_iff {addr net : Vector UInt8 16} {prefixLen : Nat} (h : prefixLen ≤ 128) :
    samePrefix6 addr.toList net.toList prefixLen = true ↔ ∀ i < prefixLen, bit6 addr i = bit6 net i := by
  have hBits := @forall_bits_iff
    (fun k j => (addr.toList.getD k 0).toBitVec.getMsbD j = (net.toList.getD k 0).toBitVec.getMsbD j) prefixLen
  have hFull : addr.toList.take (prefixLen / 8) = net.toList.take (prefixLen / 8) ↔
      ∀ k < prefixLen / 8, ∀ j < 8, (addr.toList.getD k 0).toBitVec.getMsbD j = (net.toList.getD k 0).toBitVec.getMsbD j := by
    rw [take_eq_take_iff (by simp; omega) (by simp; omega)]
    exact forall₂_congr fun k _ => byte_eq_iff
  rw [samePrefix6, Bool.and_eq_true, beq_iff_eq, hFull]
  simp only [bit6]
  rw [hBits]
  refine and_congr_right fun _ => ?_
  by_cases hZero : prefixLen % 8 = 0
  · simp [hZero]
  · have hMask := fun i => @getMsbD_mask8 (prefixLen % 8) i hZero (Nat.mod_lt _ (by decide))
    rw [Bool.or_eq_true, beq_iff_eq, beq_iff_eq, or_iff_right hZero, ← UInt8.toBitVec_inj, UInt8.toBitVec_and,
      UInt8.toBitVec_and, and_mask_eq_iff hMask]

/-! ## Blocks and addresses as texts -/

/-- The text of a block: a network, and how many bits of it count. -/
inductive CidrText (width : Nat) : Bytes → Bytes → Nat → Prop
  | whole {network : Bytes} (hNetwork : ascii '/' ∉ network) : CidrText width network network width
  | prefixed {network digits : Bytes} (hNetwork : ascii '/' ∉ network) (hNe : digits ≠ [])
      (hDigits : ∀ c ∈ digits, isDigit c = true) (hWidth : digitsValue digits ≤ width) :
      CidrText width (network ++ ascii '/' :: digits) network (digitsValue digits)

section Blocks

variable {Address : Type} (read : Bytes → Option Address) (bit : Address → Nat → Bool) (width : Nat)

/-- The address is in the block. -/
def Matches (cidr ip : Bytes) : Prop :=
  ∃ network n addr net, CidrText width cidr network n ∧ 0 ∉ ip ∧ read ip = some addr ∧ 0 ∉ network ∧
    read network = some net ∧ ∀ i < n, bit addr i = bit net i

/-- What the C functions read: a text up to its first NUL byte, and a number up to the first
byte behind its digits. -/
def ReadsEqual (cidr ip network : Bytes) : Prop :=
  ∃ n addr net, splitCidr cidr width = some (network, n) ∧ read (cString ip) = some addr ∧
    read (cString network) = some net ∧ ∀ i < n, bit addr i = bit net i

/-- The addresses agree, and one of the texts is more than what is read of it. -/
def Misread (cidr ip : Bytes) : Prop :=
  ∃ network, ReadsEqual read bit width cidr ip network ∧
    (0 ∈ ip ∨ 0 ∈ network ∨
      ∃ length, cidr = network ++ ascii '/' :: length ∧ (length = [] ∨ ∃ c ∈ length, isDigit c = false))

end Blocks

theorem cString_of_notMem {text : Bytes} (h : 0 ∉ text) : cString text = text :=
  takeWhile_eq_self fun c hc => by
    simpa using ne_of_mem_of_not_mem hc h

theorem splitCidr_whole {cidr : Bytes} (h : ascii '/' ∉ cidr) (width : Nat) : splitCidr cidr width = some (cidr, width) := by
  rw [splitCidr, dropWhile_eq_nil fun c hc => by simpa using ne_of_mem_of_not_mem hc h]

theorem splitCidr_prefixed {network : Bytes} (h : ascii '/' ∉ network) (length : Bytes) (width : Nat) :
    splitCidr (network ++ ascii '/' :: length) width =
      (stoi length).bind fun n => if 0 ≤ n.toInt ∧ n.toInt ≤ width then some (network, n.toInt.toNat) else none := by
  have hFront : ∀ c ∈ network, decide (c ≠ ascii '/') = true := fun c hc => by simpa using ne_of_mem_of_not_mem hc h
  have hDrop : (network ++ ascii '/' :: length).dropWhile (· ≠ ascii '/') = ascii '/' :: length := by
    rw [List.dropWhile_append_of_pos hFront]
    simp
  have hTake : (network ++ ascii '/' :: length).takeWhile (· ≠ ascii '/') = network := by
    rw [List.takeWhile_append_of_pos hFront]
    simp
  rw [splitCidr, hDrop, hTake]
  dsimp only
  cases stoi length <;> rfl

theorem splitCidr_le {cidr network : Bytes} {width n : Nat} (h : splitCidr cidr width = some (network, n)) : n ≤ width := by
  by_cases hSlash : ascii '/' ∈ cidr
  · obtain ⟨front, length, rfl, hFront⟩ := List.eq_append_cons_of_mem hSlash
    rw [splitCidr_prefixed hFront] at h
    obtain ⟨v, -, hRange⟩ := Option.bind_eq_some_iff.mp h
    by_cases hBounds : 0 ≤ v.toInt ∧ v.toInt ≤ width
    · rw [if_pos hBounds, Option.some.injEq, Prod.mk.injEq] at hRange
      omega
    · rw [if_neg hBounds] at hRange
      cases hRange
  · rw [splitCidr_whole hSlash, Option.some.injEq, Prod.mk.injEq] at h
    omega

theorem splitCidr_of_text {cidr network : Bytes} {width n : Nat} (hWidth : width < 2 ^ 31)
    (h : CidrText width cidr network n) : splitCidr cidr width = some (network, n) := by
  cases h with
  | whole hNetwork => exact splitCidr_whole hNetwork width
  | @prefixed _ digits hNetwork hNe hDigits hLe =>
      have hFits : digitsValue digits < 2 ^ 31 := by omega
      rw [splitCidr_prefixed hNetwork, stoi_digits hNe hDigits, if_pos hFits, Option.bind_some,
        Int32.toInt_ofNat_of_lt hFits, if_pos (by omega), Int.toNat_natCast]

/-- A block that is read is written as one, or there is more behind its slash than digits, or
nothing. -/
theorem text_of_splitCidr {cidr network : Bytes} {width n : Nat} (h : splitCidr cidr width = some (network, n)) :
    ascii '/' ∉ network ∧ (CidrText width cidr network n ∨
      ∃ length, cidr = network ++ ascii '/' :: length ∧ (length = [] ∨ ∃ c ∈ length, isDigit c = false)) := by
  by_cases hSlash : ascii '/' ∈ cidr
  · obtain ⟨front, length, rfl, hFront⟩ := List.eq_append_cons_of_mem hSlash
    rw [splitCidr_prefixed hFront] at h
    obtain ⟨v, hStoi, hRange⟩ := Option.bind_eq_some_iff.mp h
    by_cases hBounds : 0 ≤ v.toInt ∧ v.toInt ≤ width
    · rw [if_pos hBounds, Option.some.injEq, Prod.mk.injEq] at hRange
      obtain ⟨rfl, rfl⟩ := hRange
      refine ⟨hFront, or_iff_not_imp_right.mpr fun hDigits => ?_⟩
      have hNe : length ≠ [] := fun hNil => hDigits ⟨length, rfl, .inl hNil⟩
      have hAll : ∀ c ∈ length, isDigit c = true := by
        intro c hc
        by_contra hOther
        exact hDigits ⟨length, rfl, .inr ⟨c, hc, by simpa using hOther⟩⟩
      rw [stoi_digits hNe hAll] at hStoi
      by_cases hFits : digitsValue length < 2 ^ 31
      · rw [if_pos hFits, Option.some.injEq] at hStoi
        subst hStoi
        rw [Int32.toInt_ofNat_of_lt hFits] at hBounds ⊢
        exact .prefixed hFront hNe hAll (by omega)
      · rw [if_neg hFits] at hStoi
        cases hStoi
    · rw [if_neg hBounds] at hRange
      cases hRange
  · rw [splitCidr_whole hSlash, Option.some.injEq, Prod.mk.injEq] at h
    obtain ⟨rfl, rfl⟩ := h
    exact ⟨hSlash, .inl (.whole hSlash)⟩

section Blocks

variable {Address : Type} {read : Bytes → Option Address} {bit : Address → Nat → Bool} {width : Nat} {cidr ip : Bytes}

theorem readsEqual_of_matches (hWidth : width < 2 ^ 31) (h : Matches read bit width cidr ip) :
    ∃ network, ReadsEqual read bit width cidr ip network := by
  obtain ⟨network, n, addr, net, hText, hIp, hAddr, hNetwork, hNet, hBits⟩ := h
  refine ⟨network, n, addr, net, splitCidr_of_text hWidth hText, ?_, ?_, hBits⟩
  · rwa [cString_of_notMem hIp]
  · rwa [cString_of_notMem hNetwork]

theorem matches_of_readsEqual {network : Bytes} (h : ReadsEqual read bit width cidr ip network)
    (hNot : ¬Misread read bit width cidr ip) : Matches read bit width cidr ip := by
  have hWhole : ¬(0 ∈ ip ∨ 0 ∈ network ∨
      ∃ length, cidr = network ++ ascii '/' :: length ∧ (length = [] ∨ ∃ c ∈ length, isDigit c = false)) := fun hMore =>
    hNot ⟨network, h, hMore⟩
  rw [not_or, not_or] at hWhole
  obtain ⟨n, addr, net, hSplit, hAddr, hNet, hBits⟩ := h
  rw [cString_of_notMem hWhole.1] at hAddr
  rw [cString_of_notMem hWhole.2.1] at hNet
  exact ⟨network, n, addr, net, (text_of_splitCidr hSplit).2.resolve_right hWhole.2.2, hWhole.1, hAddr, hWhole.2.1, hNet, hBits⟩

theorem not_matches_of_misread (hWidth : width < 2 ^ 31) (h : Misread read bit width cidr ip) :
    ¬Matches read bit width cidr ip := by
  rintro ⟨network', n', _, _, hText, hIp, _, hNetwork, _⟩
  obtain ⟨network, ⟨n, _, _, hSplit, -⟩, hMore⟩ := h
  have hSame := splitCidr_of_text hWidth hText
  rw [hSplit, Option.some.injEq, Prod.mk.injEq] at hSame
  obtain ⟨rfl, rfl⟩ := hSame
  rcases hMore with hZero | hZero | ⟨length, hCidr, hLength⟩
  · exact hIp hZero
  · exact hNetwork hZero
  · cases hText with
    | whole hNone => exact hNone (by rw [hCidr]; simp)
    | prefixed _ hNe hDigits _ =>
        rw [List.append_cancel_left_eq, List.cons.injEq] at hCidr
        obtain rfl := hCidr.2
        rcases hLength with hNil | ⟨c, hc, hOther⟩
        · exact hNe hNil
        · rw [hDigits c hc] at hOther
          cases hOther

/-- What the C functions read is compared, so that it comes out as it should but for texts of
which not all is read. -/
theorem readsEqual_iff_matches (hWidth : width < 2 ^ 31) :
    ((∃ network, ReadsEqual read bit width cidr ip network) ↔ Matches read bit width cidr ip) ↔
      ¬Misread read bit width cidr ip := by
  constructor
  · intro h hMisread
    obtain ⟨network, hReads, -⟩ := id hMisread
    exact not_matches_of_misread hWidth hMisread (h.mp ⟨network, hReads⟩)
  · intro hNot
    exact ⟨fun ⟨_, hReads⟩ => matches_of_readsEqual hReads hNot, readsEqual_of_matches hWidth⟩

end Blocks

/-! ## The two checks -/

section Checks

variable {Event : Type} (env : Surroundings Event) (cidr ip : Bytes)

theorem checkIp4Mechanism_iff :
    checkIp4Mechanism env cidr ip = true ↔ ∃ network, ReadsEqual env.inetPton4 bit4 32 cidr ip network := by
  unfold checkIp4Mechanism
  constructor
  · intro h
    cases hAddr : env.inetPton4 (cString ip) with
    | none => simp [hAddr] at h
    | some addr =>
        cases hSplit : splitCidr cidr 32 with
        | none => simp [hAddr, hSplit] at h
        | some split =>
            cases hNet : env.inetPton4 (cString split.1) with
            | none => simp [hAddr, hSplit, hNet] at h
            | some net =>
                simp only [hAddr, hSplit, hNet] at h
                exact ⟨split.1, split.2, addr, net, hSplit, hAddr, hNet, (masked4_iff (splitCidr_le hSplit)).mp h⟩
  · rintro ⟨network, n, addr, net, hSplit, hAddr, hNet, hBits⟩
    simp only [hAddr, hSplit, hNet]
    exact (masked4_iff (splitCidr_le hSplit)).mpr hBits

theorem checkIp6Mechanism_iff :
    checkIp6Mechanism env cidr ip = true ↔ ∃ network, ReadsEqual env.inetPton6 bit6 128 cidr ip network := by
  unfold checkIp6Mechanism
  constructor
  · intro h
    cases hAddr : env.inetPton6 (cString ip) with
    | none => simp [hAddr] at h
    | some addr =>
        cases hSplit : splitCidr cidr 128 with
        | none => simp [hAddr, hSplit] at h
        | some split =>
            cases hNet : env.inetPton6 (cString split.1) with
            | none => simp [hAddr, hSplit, hNet] at h
            | some net =>
                simp only [hAddr, hSplit, hNet] at h
                exact ⟨split.1, split.2, addr, net, hSplit, hAddr, hNet, (samePrefix6_iff (splitCidr_le hSplit)).mp h⟩
  · rintro ⟨network, n, addr, net, hSplit, hAddr, hNet, hBits⟩
    simp only [hAddr, hSplit, hNet]
    exact (samePrefix6_iff (splitCidr_le hSplit)).mpr hBits

/-- An address is found in a block just when the bits in front agree, but for texts that are
read in part. -/
theorem checkMechanism_iff :
    ((checkIp4Mechanism env cidr ip = true ↔ Matches env.inetPton4 bit4 32 cidr ip) ↔
        ¬Misread env.inetPton4 bit4 32 cidr ip) ∧
      ((checkIp6Mechanism env cidr ip = true ↔ Matches env.inetPton6 bit6 128 cidr ip) ↔
        ¬Misread env.inetPton6 bit6 128 cidr ip) := by
  rw [checkIp4Mechanism_iff, checkIp6Mechanism_iff]
  exact ⟨readsEqual_iff_matches (by decide), readsEqual_iff_matches (by decide)⟩

end Checks

/-- Two addresses that the C library reads. -/
def blockSurroundings : Surroundings Event where
  check _ _ _ := ⟨false, []⟩
  inetPton4 text := if text = bytes "10.0.0.0" then some 0x0A000000 else if text = bytes "10.1.2.3" then some 0x0A010203 else none
  inetPton6 _ := none

/-- A length with a letter behind it matches. -/
theorem checkIp4Mechanism_misread :
    ¬(checkIp4Mechanism blockSurroundings (bytes "10.0.0.0/8x") (bytes "10.1.2.3") = true ↔
      Matches blockSurroundings.inetPton4 bit4 32 (bytes "10.0.0.0/8x") (bytes "10.1.2.3")) := by
  have hMisread : Misread blockSurroundings.inetPton4 bit4 32 (bytes "10.0.0.0/8x") (bytes "10.1.2.3") :=
    ⟨bytes "10.0.0.0", ⟨8, 0x0A010203, 0x0A000000, by decide, by decide, by decide, by decide⟩,
      .inr (.inr ⟨bytes "8x", by decide, .inr ⟨ascii 'x', by decide, by decide⟩⟩)⟩
  exact fun h => not_matches_of_misread (by decide) hMisread (h.mp (by decide))

end ContainerCP.Dns
