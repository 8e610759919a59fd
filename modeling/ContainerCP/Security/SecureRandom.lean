import Mathlib.Data.Int.CardIntervalMod
import ContainerCP.Text.Bytes
import ContainerCP.Data.Rejection

/-! `SecureRandom`: random texts over an alphabet. Bytes from the last, shorter stretch of values are
passed over, so that no letter is likelier than another. -/
namespace ContainerCP.Security.SecureRandom

open Rejection

/-! ## Random bytes -/

/-- What a call of `getrandom`, or of `read` on `/dev/urandom`, comes to. An `open` that
fails is a read that fails. -/
inductive Answer where
  | interrupted
  | failed
  | got (count : Nat)
  deriving DecidableEq

/-- What the calls to come will come to, and the random bytes that they give. -/
structure Kernel where
  script : List Answer
  pool : Bytes
  deriving DecidableEq

/-- A result and the kernel behind it, or `none` where more is waited for than is known here. -/
abbrev Draw := Option (Option Bytes × Kernel)

/-- `fill_from_getrandom` and `fill_from_urandom`, which has `out` so far. -/
def fill (count : Nat) (out pool : Bytes) : List Answer → Draw
  | [] => if count ≤ out.length then some (some out, ⟨[], pool⟩) else none
  | answer :: rest =>
      if count ≤ out.length then some (some out, ⟨answer :: rest, pool⟩)
      else
        match answer with
        | .interrupted => fill count out pool rest
        | .failed => some (none, ⟨rest, pool⟩)
        | .got n =>
            let taken := min n (count - out.length)
            if taken = 0 then some (none, ⟨rest, pool⟩)
            else if pool.length < taken then none
            else fill count (out ++ pool.take taken) (pool.drop taken) rest

/-- `SecureRandom::bytes`. -/
def bytes (count : Nat) (kernel : Kernel) : Draw :=
  if count = 0 then some (some [], kernel)
  else
    match fill count [] kernel.pool kernel.script with
    | some (none, rest) => fill count [] rest.pool rest.script
    | draw => draw

/-! ## Random texts -/

/-- The bytes from here on are passed over. -/
def limit (size : Nat) : Nat := 256 - 256 % size

/-- The letter that a byte stands for. -/
def letter (alphabet : Bytes) (b : UInt8) : Option UInt8 :=
  if b.toNat < limit alphabet.length then alphabet[b.toNat % alphabet.length]? else none

/-- The loop of `SecureRandom::string`. Every turn takes an answer. -/
def stringLoop (alphabet : Bytes) (length : Nat) : Nat → Bytes → Kernel → Draw
  | 0, _, _ => none
  | turns + 1, out, kernel =>
      if length ≤ out.length then some (some out, kernel)
      else
        match bytes (length - out.length) kernel with
        | none => none
        | some (none, rest) => some (none, rest)
        | some (some block, rest) =>
            stringLoop alphabet length turns (out ++ (block.filterMap (letter alphabet)).take (length - out.length)) rest

/-- `SecureRandom::string`. -/
def string (length : Nat) (alphabet : Bytes) (kernel : Kernel) : Draw :=
  if alphabet = [] then some (none, kernel)
  else if length = 0 then some (some [], kernel)
  else if 256 < alphabet.length then some (none, kernel)
  else stringLoop alphabet length (kernel.script.length + 1) [] kernel

/-! ## Turns -/

theorem length_of_fill_rest {count : Nat} {out pool : Bytes} {script : List Answer} {block : Option Bytes} {rest : Kernel}
    (h : fill count out pool script = some (block, rest)) :
    rest.script.length ≤ script.length ∧ (out.length < count → rest.script.length < script.length) := by
  induction script generalizing out pool with
  | nil =>
      rw [fill] at h
      split at h
      · next hDone =>
          cases h
          exact ⟨Nat.le_refl _, fun hLess => absurd hDone (Nat.not_le.mpr hLess)⟩
      · cases h
  | cons answer script ih =>
      unfold fill at h
      rw [List.length_cons]
      split at h
      · next hDone =>
          cases h
          exact ⟨Nat.le_refl _, fun hLess => absurd hDone (Nat.not_le.mpr hLess)⟩
      · have hTaken : rest.script.length ≤ script.length := by
          cases answer with
          | interrupted => exact (ih h).1
          | failed =>
              cases h
              exact Nat.le_refl _
          | got n =>
              dsimp only at h
              split at h
              · cases h
                exact Nat.le_refl _
              · split at h
                · cases h
                · exact (ih h).1
        exact ⟨Nat.le_succ_of_le hTaken, fun _ => Nat.lt_succ_of_le hTaken⟩

/-- A block that is not empty takes an answer. -/
theorem length_of_bytes_rest {count : Nat} (hCount : 0 < count) {kernel rest : Kernel} {block : Option Bytes}
    (h : bytes count kernel = some (block, rest)) : rest.script.length < kernel.script.length := by
  rw [bytes, if_neg (Nat.ne_of_gt hCount)] at h
  split at h
  · next left hFirst =>
      have hLeft := (length_of_fill_rest hFirst).2 hCount
      exact Nat.lt_of_le_of_lt (length_of_fill_rest h).1 hLeft
  · exact (length_of_fill_rest h).2 hCount

/-- More turns than there are answers change nothing. -/
theorem stringLoop_turns (alphabet : Bytes) (length : Nat) {turns turns' : Nat} (out : Bytes) {kernel : Kernel}
    (h : kernel.script.length < turns) (h' : kernel.script.length < turns') :
    stringLoop alphabet length turns out kernel = stringLoop alphabet length turns' out kernel := by
  induction turns generalizing turns' out kernel with
  | zero => exact absurd h (Nat.not_lt_zero _)
  | succ turns ih =>
      obtain ⟨turns', rfl⟩ := Nat.exists_eq_succ_of_ne_zero (Nat.ne_of_gt (Nat.zero_lt_of_lt h'))
      rw [stringLoop, stringLoop]
      split
      · rfl
      · next hMore =>
        cases hBytes : bytes (length - out.length) kernel with
        | none => rfl
        | some draw =>
            obtain ⟨block, rest⟩ := draw
            have hRest := length_of_bytes_rest (by omega) hBytes
            cases block with
            | none => rfl
            | some block => exact ih _ (by omega) (by omega)

theorem length_of_stringLoop {alphabet out text : Bytes} {length turns : Nat} {kernel rest : Kernel}
    (hOut : out.length ≤ length) (h : stringLoop alphabet length turns out kernel = some (some text, rest)) :
    text.length = length := by
  induction turns generalizing out kernel with
  | zero => cases h
  | succ turns ih =>
      rw [stringLoop] at h
      split at h
      · next hDone =>
          cases h
          exact Nat.le_antisymm hOut hDone
      · split at h
        · cases h
        · cases h
        · refine ih ?_ h
          rw [List.length_append, List.length_take]
          omega

/-! ## Calls do not look at the bytes -/

/-- Whether a call waits, fails or gives a block, and where the block is found, is settled
by the number of the bytes. -/
def Blind (draw : Bytes → Bytes → Draw) (count done n : Nat) : Prop :=
  (∀ out pool, out.length = done → pool.length = n → draw out pool = none) ∨
  (∃ rest used, used ≤ n ∧ ∀ out pool, out.length = done → pool.length = n →
    draw out pool = some (none, ⟨rest, pool.drop used⟩)) ∨
  ∃ rest, count - done ≤ n ∧ ∀ out pool, out.length = done → pool.length = n →
    draw out pool = some (some (out ++ pool.take (count - done)), ⟨rest, pool.drop (count - done)⟩)

/-- A call that takes some bytes and then goes on as another one. -/
theorem Blind.behind {draw next : Bytes → Bytes → Draw} {count done n taken : Nat} (hTaken : taken ≤ n)
    (hCount : done + taken ≤ count) (hNext : Blind next count (done + taken) (n - taken))
    (hStep : ∀ out pool, out.length = done → pool.length = n →
      draw out pool = next (out ++ pool.take taken) (pool.drop taken)) : Blind draw count done n := by
  have hOut : ∀ out pool : Bytes, out.length = done → pool.length = n →
      (out ++ pool.take taken).length = done + taken := by
    rintro out pool rfl rfl
    rw [List.length_append, List.length_take, Nat.min_eq_left hTaken]
  have hPool : ∀ pool : Bytes, pool.length = n → (pool.drop taken).length = n - taken := by
    rintro pool rfl
    rw [List.length_drop]
  obtain hWaits | ⟨rest, used, hUsed, hFails⟩ | ⟨rest, hUsed, hGives⟩ := hNext
  · exact .inl fun out pool h h' => (hStep out pool h h').trans (hWaits _ _ (hOut out pool h h') (hPool pool h'))
  · refine .inr (.inl ⟨rest, taken + used, by omega, fun out pool h h' => ?_⟩)
    rw [hStep out pool h h', hFails _ _ (hOut out pool h h') (hPool pool h'), List.drop_drop]
  · refine .inr (.inr ⟨rest, by omega, fun out pool h h' => ?_⟩)
    have hLeft : count - done = taken + (count - (done + taken)) := by omega
    rw [hStep out pool h h', hGives _ _ (hOut out pool h h') (hPool pool h'), List.drop_drop,
      List.append_assoc, ← List.take_add, ← hLeft]

/-- A call that has all it needs. -/
theorem blind_of_le {count done : Nat} (hFull : count ≤ done) (script : List Answer) (n : Nat) :
    Blind (fun out pool => fill count out pool script) count done n := by
  have hNone : count - done = 0 := Nat.sub_eq_zero_of_le hFull
  refine .inr (.inr ⟨script, by omega, ?_⟩)
  rintro out pool rfl -
  have hFill : fill count out pool script = some (some out, ⟨script, pool⟩) := by
    cases script <;> exact if_pos hFull
  rw [hNone, List.take_zero, List.append_nil, List.drop_zero]
  exact hFill

theorem fill_blind (script : List Answer) {count done : Nat} (hDone : done ≤ count) (n : Nat) :
    Blind (fun out pool => fill count out pool script) count done n := by
  induction script generalizing done n with
  | nil =>
      by_cases hFull : count ≤ done
      · exact blind_of_le hFull [] n
      · refine .inl ?_
        rintro out pool rfl -
        exact if_neg hFull
  | cons answer script ih =>
      by_cases hFull : count ≤ done
      · exact blind_of_le hFull (answer :: script) n
      · cases answer with
        | interrupted =>
            refine .behind (Nat.zero_le n) hDone (ih hDone n) ?_
            rintro out pool rfl -
            rw [List.take_zero, List.append_nil, List.drop_zero]
            exact if_neg hFull
        | failed =>
            refine .inr (.inl ⟨script, 0, Nat.zero_le n, ?_⟩)
            rintro out pool rfl -
            exact if_neg hFull
        | got m =>
            by_cases hNothing : min m (count - done) = 0
            · refine .inr (.inl ⟨script, 0, Nat.zero_le n, ?_⟩)
              rintro out pool rfl -
              exact (if_neg hFull).trans (if_pos hNothing)
            · by_cases hShort : n < min m (count - done)
              · refine .inl ?_
                rintro out pool rfl rfl
                exact (if_neg hFull).trans ((if_neg hNothing).trans (if_pos hShort))
              · have hMore : done + min m (count - done) ≤ count := by omega
                refine .behind (Nat.le_of_not_lt hShort) hMore (ih hMore _) ?_
                rintro out pool rfl rfl
                exact (if_neg hFull).trans ((if_neg hNothing).trans (if_neg hShort))

theorem bytes_blind (script : List Answer) (count n : Nat) :
    (∀ pool, pool.length = n → ∀ block rest, bytes count ⟨script, pool⟩ ≠ some (some block, rest)) ∨
    ∃ rest skipped, skipped + count ≤ n ∧ ∀ pool, pool.length = n → bytes count ⟨script, pool⟩ =
      some (some ((pool.drop skipped).take count), ⟨rest, pool.drop (skipped + count)⟩) := by
  by_cases hCount : count = 0
  · subst hCount
    exact .inr ⟨script, 0, Nat.zero_le n, fun pool _ => by rw [bytes, if_pos rfl]; rfl⟩
  · have hFill := fill_blind script (Nat.zero_le count) n
    simp only [Blind, Nat.sub_zero] at hFill
    obtain hWaits | ⟨rest, used, hUsed, hFails⟩ | ⟨rest, hUsed, hGives⟩ := hFill
    · refine .inl fun pool hPool block left hBlock => ?_
      rw [bytes, if_neg hCount, hWaits [] pool rfl hPool] at hBlock
      cases hBlock
    · have hFirst : ∀ pool : Bytes, pool.length = n →
          bytes count ⟨script, pool⟩ = fill count [] (pool.drop used) rest := by
        intro pool hPool
        rw [bytes, if_neg hCount, hFails [] pool rfl hPool]
      have hDrop : ∀ pool : Bytes, pool.length = n → (pool.drop used).length = n - used := by
        rintro pool rfl
        rw [List.length_drop]
      have hFill := fill_blind rest (Nat.zero_le count) (n - used)
      simp only [Blind, Nat.sub_zero] at hFill
      obtain hWaits | ⟨last, more, -, hFails⟩ | ⟨last, hMore, hGives⟩ := hFill
      · refine .inl fun pool hPool block left hBlock => ?_
        rw [hFirst pool hPool, hWaits [] _ rfl (hDrop pool hPool)] at hBlock
        cases hBlock
      · refine .inl fun pool hPool block left hBlock => ?_
        rw [hFirst pool hPool, hFails [] _ rfl (hDrop pool hPool)] at hBlock
        cases hBlock
      · refine .inr ⟨last, used, by omega, fun pool hPool => ?_⟩
        rw [hFirst pool hPool, hGives [] _ rfl (hDrop pool hPool), List.drop_drop]
        rfl
    · refine .inr ⟨rest, 0, by omega, fun pool hPool => ?_⟩
      rw [bytes, if_neg hCount, hGives [] pool rfl hPool, Nat.zero_add]
      rfl

/-! ## How often a byte stands for a letter -/

instance byteFintype : Fintype UInt8 := .ofEquiv (Fin 256) ⟨UInt8.ofFin, UInt8.toFin, fun _ => rfl, fun _ => rfl⟩

theorem card_byte : Fintype.card UInt8 = 256 := (Fintype.ofEquiv_card _).trans (Fintype.card_fin 256)

theorem card_filter_toNat (p : Nat → Prop) [DecidablePred p] :
    (Finset.univ.filter fun b : UInt8 => p b.toNat).card = ((Finset.range 256).filter p).card := by
  refine Finset.card_bij (fun b _ => b.toNat) ?_ ?_ ?_
  · intro b hMem
    rw [Finset.mem_filter] at hMem ⊢
    exact ⟨Finset.mem_range.mpr b.toNat_lt, hMem.2⟩
  · exact fun first _ second _ hSame => UInt8.toNat_inj.mp hSame
  · intro value hMem
    rw [Finset.mem_filter, Finset.mem_range] at hMem
    refine ⟨UInt8.ofNat value, Finset.mem_filter.mpr ⟨Finset.mem_univ _, ?_⟩, UInt8.toNat_ofNat_of_lt' hMem.1⟩
    rw [UInt8.toNat_ofNat_of_lt' hMem.1]
    exact hMem.2

theorem limit_eq (size : Nat) : limit size = size * (256 / size) := by
  have hDivision := Nat.div_add_mod 256 size
  rw [limit]
  omega

theorem card_places (alphabet : Bytes) (c : UInt8) :
    ((Finset.range alphabet.length).filter fun place => alphabet[place]? = some c).card = alphabet.count c := by
  induction alphabet with
  | nil => rfl
  | cons d alphabet ih =>
      rw [Finset.card_filter, List.length_cons, Finset.sum_range_succ', List.count_cons, ← ih, Finset.card_filter]
      simp

/-- Every place of the alphabet has the same number of bytes. -/
theorem fibre_letter (alphabet : Bytes) (c : UInt8) :
    fibre (letter alphabet) (some c) = 256 / alphabet.length * alphabet.count c := by
  by_cases hAlphabet : alphabet = []
  · subst hAlphabet
    have hNone : ∀ b : UInt8, ¬letter [] b = some c := by
      intro b h
      cases h.symm.trans (if_neg (Nat.not_lt_zero b.toNat))
    rw [fibre, Finset.filter_false_of_mem fun b _ => hNone b]
    rfl
  have hSize : 0 < alphabet.length := List.length_pos_iff.mpr hAlphabet
  have hLimit : limit alphabet.length ≤ 256 := Nat.sub_le _ _
  have hSome : ∀ b : UInt8, letter alphabet b = some c ↔
      b.toNat < limit alphabet.length ∧ alphabet[b.toNat % alphabet.length]? = some c := by
    intro b
    rw [letter]
    split
    · next hBelow => exact ⟨fun h => ⟨hBelow, h⟩, fun h => h.2⟩
    · next hAbove => exact ⟨by rintro ⟨⟩, fun h => absurd h.1 hAbove⟩
  have hBelow : (Finset.range 256).filter (fun value => value < limit alphabet.length ∧
        alphabet[value % alphabet.length]? = some c) =
      (Finset.range (limit alphabet.length)).filter fun value => alphabet[value % alphabet.length]? = some c := by
    ext value
    rw [Finset.mem_filter, Finset.mem_filter, Finset.mem_range, Finset.mem_range]
    exact ⟨fun h => h.2, fun h => ⟨Nat.lt_of_lt_of_le h.1 hLimit, h⟩⟩
  have hMaps : ∀ value ∈ (Finset.range (limit alphabet.length)).filter
        (fun value => alphabet[value % alphabet.length]? = some c),
      value % alphabet.length ∈ (Finset.range alphabet.length).filter fun place => alphabet[place]? = some c := by
    intro value hMem
    exact Finset.mem_filter.mpr ⟨Finset.mem_range.mpr (Nat.mod_lt _ hSize), (Finset.mem_filter.mp hMem).2⟩
  unfold fibre
  simp only [hSome]
  rw [card_filter_toNat fun value => value < limit alphabet.length ∧ alphabet[value % alphabet.length]? = some c, hBelow,
    Finset.card_eq_sum_card_fiberwise hMaps, ← card_places, Nat.mul_comm, ← smul_eq_mul, ← Finset.sum_const]
  refine Finset.sum_congr rfl fun place hPlace => ?_
  obtain ⟨hRange, hLetter⟩ := Finset.mem_filter.mp hPlace
  have hPlaces : ((Finset.range (limit alphabet.length)).filter fun value =>
        alphabet[value % alphabet.length]? = some c).filter (fun value => value % alphabet.length = place) =
      (Finset.range (limit alphabet.length)).filter fun value => value ≡ place [MOD alphabet.length] := by
    ext value
    rw [Finset.mem_filter, Finset.mem_filter, Finset.mem_filter, Nat.ModEq, Nat.mod_eq_of_lt (Finset.mem_range.mp hRange)]
    constructor
    · exact fun h => ⟨h.1.1, h.2⟩
    · exact fun h => ⟨⟨h.1, by rw [h.2, hLetter]⟩, h.2⟩
  rw [hPlaces, ← Nat.count_eq_card_filter_range, Nat.count_modEq_card _ hSize, limit_eq, Nat.mul_mod_right,
    Nat.mul_div_cancel_left _ hSize, if_neg (Nat.not_lt_zero _), Nat.add_zero]

theorem weight_letters (alphabet text : Bytes) :
    weight (letter alphabet) text = (256 / alphabet.length) ^ text.length * (text.map alphabet.count).prod := by
  induction text with
  | nil => rfl
  | cons c text ih =>
      rw [show weight (letter alphabet) (c :: text) = fibre (letter alphabet) (some c) * weight (letter alphabet) text from
        List.prod_cons, ih, fibre_letter, List.length_cons, pow_succ, List.map_cons, List.prod_cons]
      ring

/-! ## How often a text is given -/

/-- Whether this text is what is given. -/
def hits (draw : Draw) (text : Bytes) : Nat := if draw.map Prod.fst = some (some text) then 1 else 0

/-- The number of pools of `n` bytes with which the text is given. -/
def given (length : Nat) (alphabet : Bytes) (script : List Answer) (n : Nat) (text : Bytes) : Nat :=
  total n fun pool => hits (string length alphabet ⟨script, pool⟩) text

theorem stringLoop_gives {alphabet : Bytes} {length turns skipped back : Nat} {script rest : List Answer} {out text : Bytes}
    (hOut : out.length < length)
    (hGives : ∀ pool, pool.length = skipped + ((length - out.length) + back) → bytes (length - out.length) ⟨script, pool⟩ =
      some (some ((pool.drop skipped).take (length - out.length)), ⟨rest, pool.drop (skipped + (length - out.length))⟩)) :
    (total (skipped + ((length - out.length) + back)) fun pool =>
        hits (stringLoop alphabet length (turns + 1) out ⟨script, pool⟩) text) =
      256 ^ skipped * total (length - out.length) fun block => total back fun pool =>
        hits (stringLoop alphabet length turns (out ++ block.filterMap (letter alphabet)) ⟨rest, pool⟩) text := by
  rw [total_add, ← card_byte, ← total_const]
  refine total_congr fun front hFront => ?_
  rw [total_add]
  refine total_congr fun block hBlock => total_congr fun pool hPool => ?_
  have hLength : (front ++ (block ++ pool)).length = skipped + ((length - out.length) + back) := by
    rw [List.length_append, List.length_append, hFront, hBlock, hPool]
  have hDrop : (front ++ (block ++ pool)).drop skipped = block ++ pool := by
    rw [← hFront, List.drop_left]
  rw [stringLoop, if_neg (Nat.not_le.mpr hOut), hGives _ hLength, ← List.drop_drop, hDrop]
  have hSpelled : (block.filterMap (letter alphabet)).length ≤ length - out.length :=
    hBlock ▸ List.length_filterMap_le _ _
  rw [← hBlock, List.take_left, List.drop_left]
  dsimp only
  rw [List.take_of_length_le (hBlock ▸ hSpelled)]

/-- The texts that go on with what is there are given as often as their letters say. -/
theorem stringLoop_given (alphabet : Bytes) (length turns : Nat) (script : List Answer) (n done : Nat) :
    ∃ each, ∀ out text : Bytes, out.length = done → done ≤ length → text.length = length →
      (total n fun pool => hits (stringLoop alphabet length turns out ⟨script, pool⟩) text) =
        if out <+: text then each * weight (letter alphabet) (text.drop done) else 0 := by
  induction turns generalizing script n done with
  | zero =>
      refine ⟨0, fun out text _ _ _ => ?_⟩
      rw [Nat.zero_mul, ite_self]
      exact (total_const n 0).trans (Nat.mul_zero _)
  | succ turns ih =>
      by_cases hFull : length ≤ done
      · refine ⟨256 ^ n, ?_⟩
        rintro out text rfl hDone hText
        have hEnd : text.drop out.length = [] := List.drop_eq_nil_of_le (by omega)
        have hHits : ∀ pool : Bytes, hits (stringLoop alphabet length (turns + 1) out ⟨script, pool⟩) text =
            if out = text then 1 else 0 := by
          intro pool
          rw [stringLoop, if_pos hFull, hits, Option.map_some]
          simp only [Option.some.injEq]
        have hPrefix : out <+: text ↔ out = text :=
          ⟨fun h => h.eq_of_length (by omega), fun h => h ▸ List.prefix_refl out⟩
        simp only [hHits, hPrefix, hEnd]
        rw [total_const, card_byte]
        split
        · rfl
        · rfl
      · obtain hNothing | ⟨rest, skipped, hFits, hGives⟩ := bytes_blind script (length - done) n
        · refine ⟨0, ?_⟩
          rintro out text rfl - -
          have hNone : ∀ pool : Bytes, pool.length = n →
              hits (stringLoop alphabet length (turns + 1) out ⟨script, pool⟩) text = 0 := by
            intro pool hPool
            rw [stringLoop, if_neg hFull]
            split
            · rfl
            · rfl
            · next block rest hBlock => exact absurd hBlock (hNothing pool hPool block rest)
          rw [total_congr hNone, total_const, Nat.zero_mul, ite_self, Nat.mul_zero]
        · obtain ⟨back, rfl⟩ : ∃ back, n = skipped + ((length - done) + back) := ⟨n - (skipped + (length - done)), by omega⟩
          choose each hEach using ih rest back
          refine ⟨256 ^ skipped * ∑ count ∈ Finset.range (length - done + 1), if count ≤ length - done then
            each (done + count) * ((length - done).choose count *
              fibre (letter alphabet) none ^ (length - done - count)) else 0, ?_⟩
          rintro out text rfl hDone hText
          rw [stringLoop_gives (Nat.lt_of_not_le hFull) hGives]
          have hBlock : ∀ block : Bytes, block.length = length - out.length →
              (total back fun pool =>
                hits (stringLoop alphabet length turns (out ++ block.filterMap (letter alphabet)) ⟨rest, pool⟩) text) =
              if out ++ block.filterMap (letter alphabet) <+: text then
                each (out.length + (block.filterMap (letter alphabet)).length) *
                  weight (letter alphabet) (text.drop (out.length + (block.filterMap (letter alphabet)).length))
              else 0 := by
            intro block hLength
            have hSpelled := List.length_filterMap_le (letter alphabet) block
            exact hEach _ _ text List.length_append (by omega) hText
          rw [total_congr hBlock]
          by_cases hPrefix : out <+: text
          · obtain ⟨word, rfl⟩ := hPrefix
            have hWord : word.length = length - out.length := by
              rw [List.length_append] at hText
              omega
            rw [if_pos (List.prefix_append out word), List.drop_left]
            simp only [List.prefix_append_right_inj, List.drop_length_add_append]
            rw [total_fronts (letter alphabet) (length - out.length) (fun count => each (out.length + count)) word, hWord,
              Nat.mul_assoc]
          · have hNone : ∀ block : Bytes, ¬out ++ block.filterMap (letter alphabet) <+: text :=
              fun block h => hPrefix ((List.prefix_append _ _).trans h)
            simp only [hNone, if_false]
            rw [if_neg hPrefix, total_const, Nat.mul_zero, Nat.mul_zero]

theorem string_length {length : Nat} {alphabet text : Bytes} {kernel rest : Kernel}
    (h : string length alphabet kernel = some (some text, rest)) : text.length = length := by
  rw [string] at h
  split at h
  · cases h
  · split at h
    · next hZero =>
        cases h
        exact hZero.symm
    · split at h
      · cases h
      · exact length_of_stringLoop (Nat.zero_le _) h

theorem given_of_length_ne {length : Nat} {alphabet text : Bytes} (script : List Answer) (n : Nat)
    (h : text.length ≠ length) : given length alphabet script n text = 0 := by
  have hNone : ∀ pool : Bytes, hits (string length alphabet ⟨script, pool⟩) text = 0 := by
    intro pool
    refine if_neg fun hText => h ?_
    obtain ⟨⟨block, rest⟩, hDraw, hBlock⟩ := Option.map_eq_some_iff.mp hText
    dsimp only at hBlock
    subst hBlock
    exact string_length hDraw
  unfold given
  simp only [hNone]
  rw [total_const, Nat.mul_zero]

/-- Only texts of the length asked for are given, whatever the calls come to; and of all pools of
random bytes those that give one text are as many as those that give another, but for how often
the letters of the texts stand in the alphabet. -/
theorem string_uniform (length : Nat) (alphabet : Bytes) (script : List Answer) (n : Nat) :
    ∃ each, ∀ text, given length alphabet script n text =
      if text.length = length then each * (text.map alphabet.count).prod else 0 := by
  have hEach : ∃ each, ∀ text : Bytes, text.length = length →
      given length alphabet script n text = each * (text.map alphabet.count).prod := by
    by_cases hAlphabet : alphabet = []
    · refine ⟨0, fun text _ => ?_⟩
      unfold given string
      simp only [if_pos hAlphabet]
      rw [Nat.zero_mul]
      exact (total_const n 0).trans (Nat.mul_zero _)
    · by_cases hZero : length = 0
      · subst hZero
        refine ⟨256 ^ n, fun text hText => ?_⟩
        obtain rfl := List.length_eq_zero_iff.mp hText
        unfold given string
        simp only [if_neg hAlphabet, if_true]
        rw [← card_byte]
        exact total_const n 1
      · by_cases hLarge : 256 < alphabet.length
        · refine ⟨0, fun text _ => ?_⟩
          unfold given string
          simp only [if_neg hAlphabet, if_neg hZero, if_pos hLarge]
          rw [Nat.zero_mul]
          exact (total_const n 0).trans (Nat.mul_zero _)
        · obtain ⟨each, hEach⟩ := stringLoop_given alphabet length (script.length + 1) script n 0
          refine ⟨each * (256 / alphabet.length) ^ length, fun text hText => ?_⟩
          have hLoop := hEach [] text rfl (Nat.zero_le length) hText
          rw [if_pos List.nil_prefix, List.drop_zero, weight_letters, hText] at hLoop
          unfold given string
          simp only [if_neg hAlphabet, if_neg hZero, if_neg hLarge]
          rw [hLoop, Nat.mul_assoc]
  obtain ⟨each, hEach⟩ := hEach
  refine ⟨each, fun text => ?_⟩
  by_cases hText : text.length = length
  · rw [if_pos hText, hEach text hText]
  · rw [if_neg hText, given_of_length_ne script n hText]

/-- A block of which one byte is passed over, and another one. -/
example : string 3 [97, 98, 99] ⟨[.interrupted, .got 3, .got 9], [0, 255, 1, 100]⟩ =
    some (some [97, 98, 98], ⟨[], []⟩) := by decide

end ContainerCP.Security.SecureRandom
