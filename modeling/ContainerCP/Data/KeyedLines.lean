import Mathlib.Data.List.Basic
import Mathlib.Logic.Function.Basic

/-! A list of lines in which a key has lines of its own, kept by a procedure that takes out every
line that mentions the key. The lines that it takes out are the key's own ones, or others too. -/
namespace ContainerCP

variable {Key Line : Type}

/-- The lines without those that mention the key, and the new lines of the key behind them. -/
def replaceFor (mentions : Key → Line → Bool) (key : Key) (new lines : List Line) : List Line :=
  lines.filter (fun line => !mentions key line) ++ new

/-- The keys have the expected lines each, and the other lines are the foreign ones. -/
structure KeyedLines (entry : Key → Line → Bool) (keys : List Key) (expected : Key → List Line) (foreign lines : List Line) :
    Prop where
  entries : ∀ key ∈ keys, lines.filter (entry key) = expected key
  foreign : lines.filter (fun line => keys.all fun key => !entry key line) = foreign

variable {entry mentions : Key → Line → Bool} {key : Key} {keys : List Key} {new lines foreign : List Line}
  {expected : Key → List Line}

theorem filter_replaceFor {p : Line → Bool} (h : ∀ line ∈ new, p line = false) :
    (replaceFor mentions key new lines).filter p = (lines.filter p).filter fun line => !mentions key line := by
  have hNew : new.filter p = [] := List.filter_eq_nil_iff.mpr fun line hLine => by simp [h line hLine]
  rw [replaceFor, List.filter_append, hNew, List.append_nil, List.filter_filter, List.filter_filter]
  exact List.filter_congr fun line _ => Bool.and_comm _ _

/-- Where none of the new lines counts, a replacement leaves what counts alone if and only if
none of it mentions the key. -/
theorem filter_replaceFor_eq_iff {p : Line → Bool} (h : ∀ line ∈ new, p line = false) :
    (replaceFor mentions key new lines).filter p = lines.filter p ↔ ∀ line ∈ lines, p line = true → mentions key line = false := by
  rw [filter_replaceFor h, List.filter_eq_self]
  constructor
  · intro hAll line hLine hCounts
    simpa using hAll line (List.mem_filter.mpr ⟨hLine, hCounts⟩)
  · intro hAll line hLine
    obtain ⟨hMem, hCounts⟩ := List.mem_filter.mp hLine
    simp [hAll line hMem hCounts]

theorem filter_replaceFor_self (hEntry : ∀ line, entry key line = true → mentions key line = true)
    (hNew : ∀ line ∈ new, entry key line = true) : (replaceFor mentions key new lines).filter (entry key) = new := by
  have hGone : (lines.filter fun line => !mentions key line).filter (entry key) = [] := by
    rw [List.filter_filter, List.filter_eq_nil_iff]
    intro line _ hBoth
    simp only [Bool.and_eq_true, Bool.not_eq_true'] at hBoth
    rw [hEntry line hBoth.1] at hBoth
    cases hBoth.2
  rw [replaceFor, List.filter_append, hGone, List.nil_append, List.filter_eq_self]
  exact hNew

/-- A replacement does for its key what it should, and nothing to the others, if and only if
only the key's own lines mention it. -/
theorem keyedLines_replaceFor_iff [DecidableEq Key] (hEntry : ∀ line, entry key line = true → mentions key line = true)
    (hOne : ∀ other line, entry key line = true → entry other line = true → other = key)
    (hNew : ∀ line ∈ new, entry key line = true) (hKey : key ∈ keys) (h : KeyedLines entry keys expected foreign lines) :
    KeyedLines entry keys (Function.update expected key new) foreign (replaceFor mentions key new lines) ↔
      ∀ line ∈ lines, mentions key line = true → entry key line = true := by
  have hOther : ∀ other, other ≠ key → ∀ line ∈ new, entry other line = false := by
    intro other hNe line hLine
    rw [Bool.eq_false_iff]
    exact fun hBoth => hNe (hOne other line (hNew line hLine) hBoth)
  have hNotForeign : ∀ line ∈ new, (keys.all fun other => !entry other line) = false := by
    intro line hLine
    rw [Bool.eq_false_iff]
    intro hAll
    have hNone := List.all_eq_true.mp hAll key hKey
    rw [hNew line hLine] at hNone
    cases hNone
  constructor
  · intro hAfter line hLine hMentions
    by_contra hNot
    by_cases hForeign : (keys.all fun other => !entry other line) = true
    · have hSame := (filter_replaceFor_eq_iff hNotForeign).mp (hAfter.foreign.trans h.foreign.symm) line hLine hForeign
      rw [hMentions] at hSame
      cases hSame
    · obtain ⟨other, hOtherKey, hOtherEntry⟩ : ∃ other ∈ keys, entry other line = true := by
        simpa using hForeign
      have hNe : other ≠ key := by
        rintro rfl
        exact hNot hOtherEntry
      have hExpected : (replaceFor mentions key new lines).filter (entry other) = lines.filter (entry other) := by
        rw [hAfter.entries other hOtherKey, Function.update_of_ne hNe, h.entries other hOtherKey]
      have hSame := (filter_replaceFor_eq_iff (hOther other hNe)).mp hExpected line hLine hOtherEntry
      rw [hMentions] at hSame
      cases hSame
  · intro hOwn
    refine ⟨?_, ?_⟩
    · intro other hOtherKey
      by_cases hSame : other = key
      · rw [hSame, Function.update_self]
        exact filter_replaceFor_self hEntry hNew
      · rw [Function.update_of_ne hSame, ← h.entries other hOtherKey, filter_replaceFor_eq_iff (hOther other hSame)]
        intro line hLine hOtherEntry
        rw [Bool.eq_false_iff]
        exact fun hMentions => hSame (hOne other line (hOwn line hLine hMentions) hOtherEntry)
    · rw [← h.foreign, filter_replaceFor_eq_iff hNotForeign]
      intro line hLine hForeign
      rw [Bool.eq_false_iff]
      intro hMentions
      have hNone := List.all_eq_true.mp hForeign key hKey
      rw [hOwn line hLine hMentions] at hNone
      cases hNone

end ContainerCP
