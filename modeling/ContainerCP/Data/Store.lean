import Mathlib.Data.List.Basic
import Mathlib.Data.Set.Finite.Basic

/-! Stores that are written over other stores: what the upper one has hides what the lower
one has. -/
namespace ContainerCP

variable {Key Value : Type}

def overlay (upper lower : Key → Option Value) : Key → Option Value := fun k => (upper k).or (lower k)

/-- One store holds nothing but what another one holds. -/
def Within (part whole : Key → Option Value) : Prop := ∀ k v, part k = some v → whole k = some v

/-- A store cut down to some keys. -/
def restrict [DecidableEq Key] (keys : List Key) (store : Key → Option Value) : Key → Option Value :=
  fun k => if k ∈ keys then store k else none

section Overlay

variable {upper lower base : Key → Option Value} {k : Key}

theorem overlay_of_none (h : upper k = none) : overlay upper lower k = lower k := by
  rw [overlay, h, Option.none_or]

theorem overlay_of_some {v : Value} (h : upper k = some v) : overlay upper lower k = some v := by
  rw [overlay, h, Option.some_or]

theorem within_refl (store : Key → Option Value) : Within store store := fun _ _ h => h

/-- What comes from the lower store itself changes nothing. -/
theorem overlay_within (h : Within upper lower) : overlay upper lower = lower := by
  funext k
  cases hUpper : upper k with
  | none => exact overlay_of_none hUpper
  | some v => rw [overlay_of_some hUpper, h k v hUpper]

theorem Within.overlay {first second whole : Key → Option Value} (hFirst : Within first whole) (hSecond : Within second whole) :
    Within (overlay first second) whole := by
  intro k v h
  cases hKey : first k with
  | none =>
      rw [overlay_of_none hKey] at h
      exact hSecond k v h
  | some v' =>
      rw [overlay_of_some hKey, Option.some_inj] at h
      exact hFirst k v (h ▸ hKey)

theorem within_none (whole : Key → Option Value) : Within (fun _ => none) whole := fun _ _ h => by cases h

/-- The upper store hides the whole of the lower one where that has no key of its own. -/
theorem overlay_eq_left_iff : overlay upper lower = upper ↔ ∀ k, upper k = none → lower k = none := by
  constructor
  · intro h k hUpper
    rw [← hUpper, ← h, overlay_of_none hUpper]
  · intro h
    funext k
    cases hUpper : upper k with
    | none => rw [overlay_of_none hUpper, h k hUpper]
    | some v => exact overlay_of_some hUpper

/-- Written back over a change, a part of the first store brings a view of it back exactly
where the change shows nothing new outside of that part. -/
theorem overlay_back_iff {View : Type} (view : Option Value → View) {back : Key → Option Value} (h : Within back base) :
    view (overlay back (overlay upper base) k) = view (base k) ↔
      (back k = none → ∀ v, upper k = some v → view (some v) = view (base k)) := by
  cases hBack : back k with
  | some v => simp [overlay_of_some hBack, h k v hBack]
  | none =>
      rw [overlay_of_none hBack]
      cases hUpper : upper k with
      | none => simp [overlay_of_none hUpper]
      | some v => simp [overlay_of_some hUpper]

end Overlay

section Restrict

variable [DecidableEq Key] {store : Key → Option Value} {k : Key} {keys : List Key}

theorem restrict_of_mem (h : k ∈ keys) : restrict keys store k = store k := if_pos h

theorem restrict_of_notMem (h : k ∉ keys) : restrict keys store k = none := if_neg h

theorem Within.restrict {whole : Key → Option Value} (h : Within store whole) (keys : List Key) :
    Within (restrict keys store) whole := fun k v hRestrict => by
  by_cases hMem : k ∈ keys
  · rw [restrict_of_mem hMem] at hRestrict
    exact h k v hRestrict
  · rw [restrict_of_notMem hMem] at hRestrict
    cases hRestrict

/-- One more key. -/
theorem overlay_restrict_cons (lower : Key → Option Value) {v : Value} (h : store k = some v) :
    overlay (restrict (k :: keys) store) lower = overlay (restrict keys store) (Function.update lower k (some v)) := by
  funext k'
  by_cases hEq : k' = k
  · subst hEq
    rw [overlay_of_some ((restrict_of_mem List.mem_cons_self).trans h)]
    by_cases hMem : k' ∈ keys
    · rw [overlay_of_some ((restrict_of_mem hMem).trans h)]
    · rw [overlay_of_none (restrict_of_notMem hMem), Function.update_self]
  · by_cases hMem : k' ∈ keys
    · rw [overlay, overlay, restrict_of_mem hMem, restrict_of_mem (List.mem_cons_of_mem _ hMem), Function.update_of_ne hEq]
    · have hOther : k' ∉ k :: keys := by simp [hEq, hMem]
      rw [overlay_of_none (restrict_of_notMem hMem), overlay_of_none (restrict_of_notMem hOther), Function.update_of_ne hEq]

end Restrict

end ContainerCP

/-! Finite stores: what is taken out of one, and what is written over another one. -/
namespace ContainerCP

/-- Values under finitely many keys. -/
structure Store (Key Value : Type) where
  get : Key → Option Value
  finite : {key | get key ≠ none}.Finite

namespace Store

variable {Key Value : Type}

@[ext]
theorem ext {first second : Store Key Value} (h : ∀ key, first.get key = second.get key) : first = second := by
  cases first with
  | mk get finite =>
      cases second with
      | mk get' finite' =>
          obtain rfl : get = get' := funext h
          rfl

/-- Nothing. -/
def empty : Store Key Value where
  get _ := none
  finite := by simp

instance : EmptyCollection (Store Key Value) := ⟨empty⟩

/-- One value. -/
def single [DecidableEq Key] (key : Key) (value : Value) : Store Key Value where
  get other := if other = key then some value else none
  finite := by
    refine (Set.finite_singleton key).subset fun other hOther => ?_
    by_contra hNe
    exact hOther (if_neg hNe)

/-- A store written over another one. -/
def above (upper lower : Store Key Value) : Store Key Value where
  get := overlay upper.get lower.get
  finite := by
    refine (upper.finite.union lower.finite).subset fun key hKey => ?_
    cases hUpper : upper.get key with
    | some value => exact Or.inl (by simp [hUpper])
    | none => exact Or.inr fun hLower => hKey ((overlay_of_none hUpper).trans hLower)

/-- What a test leaves of a store. -/
def keep (test : Key → Value → Bool) (store : Store Key Value) : Store Key Value where
  get key := (store.get key).filter (test key)
  finite := store.finite.subset fun key hKey hNone => hKey (by rw [hNone]; rfl)

@[simp]
theorem get_empty (key : Key) : (∅ : Store Key Value).get key = none := rfl

@[simp]
theorem get_above (upper lower : Store Key Value) (key : Key) : (upper.above lower).get key = (upper.get key).or (lower.get key) := rfl

@[simp]
theorem get_keep (test : Key → Value → Bool) (store : Store Key Value) (key : Key) :
    (store.keep test).get key = (store.get key).filter (test key) := rfl

theorem get_single [DecidableEq Key] (key : Key) (value : Value) : (single key value).get key = some value := if_pos rfl

variable (store : Store Key Value)

@[simp]
theorem above_empty : store.above ∅ = store := by
  ext1 key
  simp

@[simp]
theorem empty_above : (∅ : Store Key Value).above store = store := by
  ext1 key
  simp

/-- A store hides what has no key of its own. -/
theorem above_eq_left_iff {upper lower : Store Key Value} :
    upper.above lower = upper ↔ ∀ key, upper.get key = none → lower.get key = none := by
  rw [← overlay_eq_left_iff]
  exact ⟨fun h => congrArg get h, fun h => ext fun key => congrFun h key⟩

theorem get_keep_eq_none {test : Key → Value → Bool} {key : Key} (h : store.get key = none) : (store.keep test).get key = none := by
  rw [get_keep, h]
  rfl

theorem keep_true : (store.keep fun _ _ => true) = store := by
  ext1 key
  rw [get_keep]
  cases store.get key <;> rfl

theorem keep_false : (store.keep fun _ _ => false) = ∅ := by
  ext1 key
  rw [get_keep]
  cases store.get key <;> rfl

@[simp]
theorem keep_empty (test : Key → Value → Bool) : (∅ : Store Key Value).keep test = ∅ := rfl

/-- A test that leaves a store as it is holds of all that it has. -/
theorem keep_eq_self_iff {test : Key → Value → Bool} :
    store.keep test = store ↔ ∀ key value, store.get key = some value → test key value = true := by
  constructor
  · intro h key value hValue
    have hKept : (store.keep test).get key = some value := by rw [h, hValue]
    rw [get_keep, hValue] at hKept
    exact (Option.filter_eq_some_iff.mp hKept).2
  · intro h
    ext1 key
    rw [get_keep]
    cases hValue : store.get key with
    | none => rfl
    | some value => rw [Option.filter_some, if_pos (h key value hValue)]

/-- There is room for more: what has a key of its own cannot be hidden. -/
theorem exists_single_new [DecidableEq Key] [Infinite Key] (value : Value) :
    ∃ key, store.get key = none ∧ ∀ upper : Store Key Value, upper.get key = none → upper.above (single key value) ≠ store := by
  obtain ⟨key, hKey⟩ := store.finite.exists_notMem
  have hNone : store.get key = none := not_not.mp hKey
  refine ⟨key, hNone, fun upper hUpper hEq => ?_⟩
  have hGet : (upper.above (single key value)).get key = some value := by
    rw [get_above, hUpper, Option.none_or, get_single]
  rw [hEq, hNone] at hGet
  cases hGet

end Store

end ContainerCP
