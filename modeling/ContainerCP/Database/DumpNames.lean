import ContainerCP.Text.Bytes
import Mathlib.Data.List.Chain
import Mathlib.Data.List.Infix

/-! The names under which dumps are stored: `database_sanitize_dump_filename`. -/
namespace ContainerCP.DatabaseDump

/-! ## `database_sanitize_dump_filename` -/

def dumpNameChar (c : UInt8) : Bool := isAlnum c || c == ascii '_' || c == ascii '-' || c == ascii '.'

/-- One byte of the name in the first loop. -/
def dumpNameByte (c : UInt8) : UInt8 := if dumpNameChar c then c else ascii '_'

/-- The first two dots in a row become an underscore, if there are any. -/
def replaceFirstDots : Bytes → Option Bytes
  | c :: d :: rest =>
      if c = ascii '.' ∧ d = ascii '.' then some (ascii '_' :: rest)
      else (replaceFirstDots (d :: rest)).map (c :: ·)
  | _ => none

/-- The loop that replaces them all. Nothing stands for a loop that does not end within the fuel. -/
def replaceDots : Nat → Bytes → Option Bytes
  | 0, _ => none
  | fuel + 1, base =>
      match replaceFirstDots base with
      | none => some base
      | some base => replaceDots fuel base

def leadingMark (c : UInt8) : Bool := c == ascii '.' || c == ascii '_' || c == ascii '-'

def sqlSuffix : Bytes := bytes ".sql"

/-- The steps behind the loop, but for the suffix. -/
def dumpStem (base fallbackPrefix : Bytes) : Bytes :=
  let base := base.dropWhile leadingMark
  let base := if base = [] then fallbackPrefix ++ sqlSuffix else base
  if 96 < base.length then base.take 96 else base

/-- `database_sanitize_dump_filename`. -/
def sanitizeDumpFilename (fuel : Nat) (filename fallbackPrefix : Bytes) : Option Bytes :=
  (replaceDots fuel (filename.map dumpNameByte)).map fun base =>
    let base := dumpStem base fallbackPrefix
    if sqlSuffix <:+ base then base else base ++ sqlSuffix

/-! ## The loop -/

/-- Every two dots in a row, from the left, as an underscore. -/
def withoutDots : Bytes → Bytes
  | [] => []
  | [c] => [c]
  | c :: d :: rest =>
      if c = ascii '.' ∧ d = ascii '.' then ascii '_' :: withoutDots rest else c :: withoutDots (d :: rest)

/-- Two bytes that may stand in a row. -/
def Apart (c d : UInt8) : Prop := ¬(c = ascii '.' ∧ d = ascii '.')

theorem withoutDots_cons {c : UInt8} (h : c ≠ ascii '.') (rest : Bytes) :
    withoutDots (c :: rest) = c :: withoutDots rest := by
  cases rest with
  | nil => rfl
  | cons d rest => rw [withoutDots, if_neg fun hDots => h hDots.1]

theorem head_replaceFirstDots {c : UInt8} {rest next : Bytes} (hDot : c ≠ ascii '.')
    (h : replaceFirstDots (c :: rest) = some next) : ∃ more, next = c :: more := by
  cases rest with
  | nil => cases h
  | cons d rest =>
      rw [replaceFirstDots, if_neg fun hDots => hDot hDots.1] at h
      obtain ⟨more, -, rfl⟩ := Option.map_eq_some_iff.mp h
      exact ⟨more, rfl⟩

/-- One round replaces dots that `withoutDots` replaces, and leaves a shorter text. -/
theorem replaceFirstDots_spec (base : Bytes) :
    (replaceFirstDots base = none ∧ withoutDots base = base) ∨
      ∃ next, replaceFirstDots base = some next ∧ withoutDots base = withoutDots next ∧ next.length < base.length := by
  induction base with
  | nil => exact .inl ⟨rfl, rfl⟩
  | cons c rest ih =>
      cases rest with
      | nil => exact .inl ⟨rfl, rfl⟩
      | cons d rest =>
          rw [replaceFirstDots, withoutDots]
          split
          · exact .inr ⟨_, rfl, (withoutDots_cons (by decide) rest).symm, by simp⟩
          next hDots =>
            rcases ih with ⟨hNone, hSame⟩ | ⟨next, hNext, hSame, hLess⟩
            · exact .inl ⟨by rw [hNone]; rfl, by rw [hSame]⟩
            · refine .inr ⟨c :: next, by rw [hNext]; rfl, ?_, by simpa using hLess⟩
              rw [hSame]
              by_cases hDot : c = ascii '.'
              · obtain ⟨more, rfl⟩ := head_replaceFirstDots (fun hD => hDots ⟨hDot, hD⟩) hNext
                rw [withoutDots, if_neg hDots]
              · rw [withoutDots_cons hDot]

/-- The loop ends after as many rounds as there are bytes, and replaces all dots in a row. -/
theorem replaceDots_eq {fuel : Nat} {base : Bytes} (h : base.length < fuel) :
    replaceDots fuel base = some (withoutDots base) := by
  induction fuel generalizing base with
  | zero => omega
  | succ fuel ih =>
      rw [replaceDots]
      rcases replaceFirstDots_spec base with ⟨hNone, hSame⟩ | ⟨next, hNext, hSame, hLess⟩
      · rw [hNone, hSame]
      · rw [hNext, hSame]
        exact ih (by omega)

theorem head_withoutDots {c : UInt8} (hDot : c ≠ ascii '.') (rest : Bytes) : (withoutDots (c :: rest)).head? = some c := by
  rw [withoutDots_cons hDot, List.head?_cons]

theorem isChain_withoutDots (base : Bytes) : (withoutDots base).IsChain Apart := by
  fun_induction withoutDots base with
  | case1 => exact .nil
  | case2 c => exact .singleton c
  | case3 c d rest hDots ih =>
      refine List.isChain_cons.mpr ⟨fun e _ hBoth => ?_, ih⟩
      exact absurd hBoth.1 (by decide)
  | case4 c d rest hDots ih =>
      refine List.isChain_cons.mpr ⟨fun e hHead hBoth => ?_, ih⟩
      have hDot : d ≠ ascii '.' := fun hD => hDots ⟨hBoth.1, hD⟩
      rw [head_withoutDots hDot] at hHead
      exact hDot (Option.some.inj hHead ▸ hBoth.2)

/-- No two dots in a row. -/
theorem isChain_apart_iff {text : Bytes} : text.IsChain Apart ↔ ¬bytes ".." <:+: text := by
  constructor
  · intro h hInfix
    have hPart : (bytes "..").IsChain Apart := List.IsChain.infix h hInfix
    have hTwo := List.isChain_cons_cons.mp hPart
    exact hTwo.1 ⟨rfl, rfl⟩
  · intro h
    induction text with
    | nil => exact .nil
    | cons c rest ih =>
        refine List.isChain_cons.mpr ⟨fun d hHead hDots => h ?_, ih fun hInfix => h (hInfix.trans (List.suffix_cons c rest).isInfix)⟩
        obtain ⟨more, rfl⟩ : ∃ more, rest = d :: more := by
          cases rest with
          | nil => cases hHead
          | cons e more => exact ⟨more, by rw [Option.some.inj hHead]⟩
        obtain ⟨rfl, rfl⟩ := hDots
        exact (List.prefix_append [ascii '.', ascii '.'] more).isInfix

theorem withoutDots_eq_self {text : Bytes} (h : text.IsChain Apart) : withoutDots text = text := by
  fun_induction withoutDots text with
  | case1 => rfl
  | case2 => rfl
  | case3 c d rest hDots => exact absurd hDots (List.isChain_cons_cons.mp h).1
  | case4 c d rest hDots ih => rw [ih (List.isChain_cons_cons.mp h).2]

theorem mem_withoutDots {text : Bytes} {c : UInt8} (h : c ∈ withoutDots text) : c = ascii '_' ∨ c ∈ text := by
  fun_induction withoutDots text with
  | case1 => exact .inr h
  | case2 => exact .inr h
  | case3 d e rest hDots ih =>
      rcases List.mem_cons.mp h with rfl | h
      · exact .inl rfl
      · exact (ih h).imp id fun hRest => List.mem_cons_of_mem _ (List.mem_cons_of_mem _ hRest)
  | case4 d e rest hDots ih =>
      rcases List.mem_cons.mp h with rfl | h
      · exact .inr List.mem_cons_self
      · exact (ih h).imp id (List.mem_cons_of_mem _)

/-! ## The prefix and the name as it is rewritten -/

/-- The prefix for a name of which nothing is left. -/
structure FallbackPrefix where
  text : Bytes
  nonempty : text ≠ []
  alnum : ∀ c ∈ text, isAlnum c = true

/-- A name in the bytes that are allowed, with no two dots in a row and no mark in front, or
the prefix. -/
def rewritten (filename : Bytes) (fallback : FallbackPrefix) : Bytes :=
  if (withoutDots (filename.map dumpNameByte)).dropWhile leadingMark = [] then fallback.text ++ sqlSuffix
  else (withoutDots (filename.map dumpNameByte)).dropWhile leadingMark

/-- A name that cannot leave its directory, nor change when it is sanitised again. -/
structure IsDumpName (name : Bytes) : Prop where
  length : name.length ≤ 100
  chars : ∀ c ∈ name, dumpNameChar c = true
  suffix : sqlSuffix <:+ name
  head : ∀ c, name.head? = some c → leadingMark c = false
  apart : ¬bytes ".." <:+: name

/-- The name does not end in a dot where it is cut, and with the suffix it is not too long
to be read again. -/
def KeepsItsForm (text : Bytes) : Prop :=
  (text.take 96).getLast? ≠ some (ascii '.') ∧ (93 ≤ text.length → text.length ≤ 95 → sqlSuffix <:+ text)

instance (text : Bytes) : Decidable (KeepsItsForm text) := inferInstanceAs (Decidable (_ ∧ _))

theorem dumpNameChar_dumpNameByte (c : UInt8) : dumpNameChar (dumpNameByte c) = true := by
  unfold dumpNameByte
  split
  · assumption
  · decide

theorem dumpNameByte_eq_self {c : UInt8} (h : dumpNameChar c = true) : dumpNameByte c = c := if_pos h

theorem map_dumpNameByte {text : Bytes} (h : ∀ c ∈ text, dumpNameChar c = true) : text.map dumpNameByte = text :=
  (List.map_congr_left fun c hc => dumpNameByte_eq_self (h c hc)).trans (List.map_id text)

theorem dumpNameChar_of_isAlnum {c : UInt8} (h : isAlnum c = true) : dumpNameChar c = true := by
  simp [dumpNameChar, h]

theorem leadingMark_of_isAlnum {c : UInt8} (h : isAlnum c = true) : leadingMark c = false := by
  cases hMark : leadingMark c with
  | false => rfl
  | true =>
      simp only [leadingMark, Bool.or_eq_true, beq_iff_eq] at hMark
      rcases hMark with (rfl | rfl) | rfl <;> exact absurd h (by decide)

theorem apart_of_ne {c d : UInt8} (h : c ≠ ascii '.') : Apart c d := fun hBoth => h hBoth.1

theorem isChain_apart_of_noDot {text : Bytes} (h : ∀ c ∈ text, c ≠ ascii '.') : text.IsChain Apart := by
  induction text with
  | nil => exact .nil
  | cons c rest ih =>
      refine List.isChain_cons.mpr ⟨fun d _ => apart_of_ne (h c List.mem_cons_self), ?_⟩
      exact ih fun d hd => h d (List.mem_cons_of_mem _ hd)

theorem head_dropWhile_leadingMark {text : Bytes} {c : UInt8} (h : (text.dropWhile leadingMark).head? = some c) :
    leadingMark c = false := by
  induction text with
  | nil => cases h
  | cons d rest ih =>
      rw [List.dropWhile_cons] at h
      split at h
      · exact ih h
      next hMark => exact Option.some.inj h ▸ Bool.eq_false_iff.mpr hMark

/-! ## What `rewritten` keeps to -/

section

variable (filename : Bytes) (fallback : FallbackPrefix)

theorem fallback_noDot {c : UInt8} (h : c ∈ fallback.text) : c ≠ ascii '.' := by
  rintro rfl
  exact absurd (fallback.alnum _ h) (by decide)

theorem rewritten_ne_nil : rewritten filename fallback ≠ [] := by
  unfold rewritten
  split
  · exact fun h => fallback.nonempty (List.append_eq_nil_iff.mp h).1
  · assumption

theorem rewritten_chars : ∀ c ∈ rewritten filename fallback, dumpNameChar c = true := by
  intro c hc
  unfold rewritten at hc
  split at hc
  · rcases List.mem_append.mp hc with hc | hc
    · exact dumpNameChar_of_isAlnum (fallback.alnum c hc)
    · exact (show ∀ c ∈ sqlSuffix, dumpNameChar c = true by decide) c hc
  · rcases mem_withoutDots ((List.dropWhile_suffix _).subset hc) with rfl | hc
    · decide
    · obtain ⟨d, -, rfl⟩ := List.mem_map.mp hc
      exact dumpNameChar_dumpNameByte d

theorem rewritten_head {c : UInt8} (h : (rewritten filename fallback).head? = some c) : leadingMark c = false := by
  unfold rewritten at h
  split at h
  · obtain ⟨d, rest, hText⟩ := List.exists_cons_of_ne_nil fallback.nonempty
    rw [hText, List.cons_append, List.head?_cons] at h
    exact Option.some.inj h ▸ leadingMark_of_isAlnum (fallback.alnum d (hText ▸ List.mem_cons_self))
  · exact head_dropWhile_leadingMark h

theorem rewritten_isChain : (rewritten filename fallback).IsChain Apart := by
  unfold rewritten
  split
  · refine List.isChain_append.mpr ⟨isChain_apart_of_noDot fun c => fallback_noDot fallback, ?_, ?_⟩
    · exact isChain_apart_iff.mpr (by decide)
    · intro c hLast d _
      exact apart_of_ne (fallback_noDot fallback (List.mem_of_getLast? hLast))
  · exact (isChain_withoutDots _).suffix (List.dropWhile_suffix _)

end

/-! ## The suffix and the result -/

/-- The suffix, unless the text has it. -/
def withSuffix (text : Bytes) : Bytes := if sqlSuffix <:+ text then text else text ++ sqlSuffix

theorem suffix_withSuffix (text : Bytes) : sqlSuffix <:+ withSuffix text := by
  unfold withSuffix
  split
  · assumption
  · exact List.suffix_append text sqlSuffix

theorem mem_withSuffix {text : Bytes} {c : UInt8} (h : c ∈ withSuffix text) : c ∈ text ∨ c ∈ sqlSuffix := by
  unfold withSuffix at h
  split at h
  · exact .inl h
  · exact List.mem_append.mp h

theorem head_withSuffix {text : Bytes} (h : text ≠ []) : (withSuffix text).head? = text.head? := by
  unfold withSuffix
  split
  · rfl
  · exact List.head?_append_of_ne_nil _ h

theorem length_withSuffix_le (text : Bytes) : (withSuffix text).length ≤ text.length + 4 := by
  unfold withSuffix
  split
  · omega
  · exact (List.length_append).le

theorem getLast_ne_dot_of_suffix {text : Bytes} (h : sqlSuffix <:+ text) : text.getLast? ≠ some (ascii '.') := by
  obtain ⟨front, rfl⟩ := h
  rw [List.getLast?_append_of_ne_nil _ (by decide)]
  decide

/-- The suffix brings two dots together where the text ends in one. -/
theorem isChain_withSuffix_iff {text : Bytes} (h : text.IsChain Apart) :
    (withSuffix text).IsChain Apart ↔ text.getLast? ≠ some (ascii '.') := by
  unfold withSuffix
  split
  next hSuffix => exact iff_of_true h (getLast_ne_dot_of_suffix hSuffix)
  · have hHead : sqlSuffix.head? = some (ascii '.') := by decide
    rw [List.isChain_append]
    constructor
    · intro hChain hLast
      exact hChain.2.2 _ hLast _ hHead ⟨rfl, rfl⟩
    · intro hLast
      refine ⟨h, isChain_apart_iff.mpr (by decide), fun c hc d _ hBoth => hLast ?_⟩
      rw [← hBoth.1]
      exact hc

theorem sanitizeDumpFilename_eq (filename : Bytes) (fallback : FallbackPrefix) {fuel : Nat} (h : filename.length < fuel) :
    sanitizeDumpFilename fuel filename fallback.text = some (withSuffix ((rewritten filename fallback).take 96)) := by
  have hTake (text : Bytes) : (if 96 < text.length then text.take 96 else text) = text.take 96 := by
    split
    · rfl
    · exact (List.take_of_length_le (by omega)).symm
  rw [sanitizeDumpFilename, replaceDots_eq (by simpa using h), Option.map_some]
  simp only [dumpStem, hTake]
  rfl

/-- A name is good when it does not end in a dot where it is cut. -/
theorem isDumpName_iff (filename : Bytes) (fallback : FallbackPrefix) :
    IsDumpName (withSuffix ((rewritten filename fallback).take 96)) ↔
      ((rewritten filename fallback).take 96).getLast? ≠ some (ascii '.') := by
  have hNe : (rewritten filename fallback).take 96 ≠ [] := by
    simpa using rewritten_ne_nil filename fallback
  have hHead : ((rewritten filename fallback).take 96).head? = (rewritten filename fallback).head? := by
    simp [List.head?_take]
  have hTaken : ((rewritten filename fallback).take 96).IsChain Apart :=
    List.IsChain.prefix (rewritten_isChain filename fallback) (List.take_prefix 96 _)
  have hApart := isChain_withSuffix_iff hTaken
  rw [← hApart, isChain_apart_iff]
  constructor
  · exact fun h => h.apart
  · intro h
    refine { length := ?_, chars := ?_, suffix := suffix_withSuffix _, head := ?_, apart := h }
    · have hCut := List.length_take_le 96 (rewritten filename fallback)
      exact (length_withSuffix_le _).trans (by omega)
    · intro c hc
      rcases mem_withSuffix hc with hc | hc
      · exact rewritten_chars filename fallback c (List.mem_of_mem_take hc)
      · exact (show ∀ c ∈ sqlSuffix, dumpNameChar c = true by decide) c hc
    · intro c hc
      rw [head_withSuffix hNe, hHead] at hc
      exact rewritten_head filename fallback hc

theorem rewritten_of_isDumpName {name : Bytes} (h : IsDumpName name) (fallback : FallbackPrefix) :
    rewritten name fallback = name := by
  obtain ⟨c, rest, rfl⟩ : ∃ c rest, name = c :: rest := by
    obtain ⟨front, hFront⟩ := h.suffix
    exact List.exists_cons_of_ne_nil fun hNil => absurd (hFront.trans hNil) (by simp [sqlSuffix, bytes])
  have hDrop : (c :: rest).dropWhile leadingMark = c :: rest := dropWhile_eq_self_of_head (h.head c rfl)
  rw [rewritten, map_dumpNameByte h.chars, withoutDots_eq_self (isChain_apart_iff.mpr h.apart), hDrop, if_neg (List.cons_ne_nil _ _)]

/-- The cut of a name with its suffix, and the suffix again, change nothing unless the cut goes
through the suffix. -/
theorem withSuffix_take_iff (text : Bytes) :
    withSuffix ((withSuffix (text.take 96)).take 96) = withSuffix (text.take 96) ↔
      (93 ≤ text.length → text.length ≤ 95 → sqlSuffix <:+ text) := by
  have hLength : sqlSuffix.length = 4 := rfl
  by_cases hLong : 96 ≤ text.length
  · refine iff_of_true ?_ fun _ _ => by omega
    have hCut : (text.take 96).length = 96 := by rw [List.length_take]; omega
    have hSame : (withSuffix (text.take 96)).take 96 = text.take 96 := by
      unfold withSuffix
      split
      · exact List.take_of_length_le hCut.le
      · exact List.take_left' hCut
    rw [hSame]
  · rw [List.take_of_length_le (show text.length ≤ 96 by omega)]
    by_cases hSuffix : sqlSuffix <:+ text
    · refine iff_of_true ?_ fun _ _ => hSuffix
      have hName : withSuffix text = text := if_pos hSuffix
      rw [hName, List.take_of_length_le (by omega), hName]
    · have hName : withSuffix text = text ++ sqlSuffix := if_neg hSuffix
      rw [hName]
      by_cases hShort : text.length ≤ 92
      · refine iff_of_true ?_ fun _ => by omega
        rw [List.take_of_length_le (by rw [List.length_append]; omega), withSuffix, if_pos (List.suffix_append _ _)]
      · refine iff_of_false (fun h => ?_) fun h => hSuffix (h (by omega) (by omega))
        have hLengths := congrArg List.length h
        unfold withSuffix at hLengths
        split at hLengths <;> simp only [List.length_append, List.length_take, hLength] at hLengths <;> omega

/-- The contract of the function: it ends, with a good name that it does not change again. -/
def MeetsDumpContract (filename : Bytes) (fallback : FallbackPrefix) : Prop :=
  ∃ name, (∀ fuel > filename.length, sanitizeDumpFilename fuel filename fallback.text = some name) ∧ IsDumpName name ∧
    ∀ fuel > name.length, sanitizeDumpFilename fuel name fallback.text = some name

theorem sanitizeDumpFilename_contract_iff (filename : Bytes) (fallback : FallbackPrefix) :
    MeetsDumpContract filename fallback ↔ KeepsItsForm (rewritten filename fallback) := by
  constructor
  · rintro ⟨name, hName, hGood, hAgain⟩
    obtain rfl : withSuffix ((rewritten filename fallback).take 96) = name := by
      rw [← Option.some_inj, ← sanitizeDumpFilename_eq filename fallback (Nat.lt_succ_self _)]
      exact hName _ (Nat.lt_succ_self _)
    have hFixed := hAgain _ (Nat.lt_succ_self _)
    rw [sanitizeDumpFilename_eq _ fallback (Nat.lt_succ_self _), rewritten_of_isDumpName hGood, Option.some_inj] at hFixed
    exact ⟨(isDumpName_iff filename fallback).mp hGood, (withSuffix_take_iff _).mp hFixed⟩
  · intro h
    have hGood := (isDumpName_iff filename fallback).mpr h.1
    refine ⟨_, fun fuel hFuel => sanitizeDumpFilename_eq filename fallback hFuel, hGood, fun fuel hFuel => ?_⟩
    rw [sanitizeDumpFilename_eq _ fallback hFuel, rewritten_of_isDumpName hGood, (withSuffix_take_iff _).mpr h.2]

/-- A dot at the end of the name stands in front of the suffix, and is one of two. -/
theorem sanitizeDumpFilename_not_good : ¬∀ filename fallback, MeetsDumpContract filename fallback := by
  intro h
  obtain ⟨name, hName, hGood, -⟩ := h (bytes "backup.") ⟨bytes "database", by decide, by decide⟩
  have hSeven := hName 8 (by decide)
  rw [show sanitizeDumpFilename 8 (bytes "backup.") (bytes "database") = some (bytes "backup..sql") by decide] at hSeven
  obtain rfl := Option.some.inj hSeven
  exact hGood.apart (by decide)

end ContainerCP.DatabaseDump
