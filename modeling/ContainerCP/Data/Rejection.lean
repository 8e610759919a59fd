import Mathlib.Algebra.BigOperators.Fin
import Mathlib.Algebra.BigOperators.Ring.Finset
import Mathlib.Data.Fintype.BigOperators
import Mathlib.Data.Nat.Choose.Basic
import Mathlib.Tactic.Ring

/-! Letters read off the values of a source one by one, where some values are passed over.
How many sequences a word is read off depends on nothing but its length and the number of
values of its letters. -/
namespace ContainerCP.Rejection

/-! ## Sums over sequences -/

section Total

variable {α : Type} [Fintype α]

/-- The sum over all sequences of a length. -/
def total (length : Nat) (f : List α → Nat) : Nat := ∑ sequence : Fin length → α, f (List.ofFn sequence)

theorem total_zero (f : List α → Nat) : total 0 f = f [] := by
  rw [total, Fintype.sum_unique, List.ofFn_zero]

theorem total_succ (length : Nat) (f : List α → Nat) :
    total (length + 1) f = ∑ value, total length fun sequence => f (value :: sequence) := by
  unfold total
  rw [← (Fin.consEquiv fun _ => α).sum_comp, Fintype.sum_prod_type]
  refine Finset.sum_congr rfl fun value _ => Finset.sum_congr rfl fun sequence _ => ?_
  exact congrArg f (List.ofFn_cons value sequence)

theorem total_add (first second : Nat) (f : List α → Nat) :
    total (first + second) f = total first fun front => total second fun back => f (front ++ back) := by
  induction first generalizing f with
  | zero => rw [Nat.zero_add, total_zero]; rfl
  | succ first ih =>
      rw [Nat.succ_add, total_succ, total_succ]
      exact Finset.sum_congr rfl fun value _ => ih _

theorem total_congr {length : Nat} {f g : List α → Nat}
    (h : ∀ sequence, sequence.length = length → f sequence = g sequence) : total length f = total length g :=
  Finset.sum_congr rfl fun _ _ => h _ List.length_ofFn

theorem total_const (length c : Nat) : total length (fun _ : List α => c) = Fintype.card α ^ length * c := by
  rw [total, Finset.sum_const, smul_eq_mul, Finset.card_univ, Fintype.card_fun, Fintype.card_fin]

theorem total_mul_left (length c : Nat) (f : List α → Nat) :
    total length (fun sequence => c * f sequence) = c * total length f :=
  Finset.mul_sum .. |>.symm

theorem total_sum {ι : Type} (length : Nat) (s : Finset ι) (f : ι → List α → Nat) :
    total length (fun sequence => ∑ i ∈ s, f i sequence) = ∑ i ∈ s, total length (f i) :=
  Finset.sum_comm

end Total

/-! ## Spellings -/

variable {α Letter : Type} [Fintype α] [DecidableEq Letter] (read : α → Option Letter)

/-- The number of sequences of the length that a word is read off. -/
def spellings (length : Nat) (word : List Letter) : Nat :=
  total length fun sequence => if sequence.filterMap read = word then 1 else 0

/-- The number of values with this outcome. -/
def fibre (outcome : Option Letter) : Nat := (Finset.univ.filter fun value => read value = outcome).card

/-- The number of ways to choose a value for every letter. -/
def weight (word : List Letter) : Nat := (word.map fun letter => fibre read (some letter)).prod

theorem weight_append (front back : List Letter) : weight read (front ++ back) = weight read front * weight read back := by
  rw [weight, List.map_append, List.prod_append]
  rfl

theorem sum_ite_fibre (outcome : Option Letter) (c : Nat) :
    (∑ value, if read value = outcome then c else 0) = fibre read outcome * c := by
  rw [← Finset.sum_filter, Finset.sum_const, smul_eq_mul, fibre]

theorem spellings_succ_nil (length : Nat) :
    spellings read (length + 1) [] = fibre read none * spellings read length [] := by
  rw [spellings, total_succ, ← sum_ite_fibre]
  refine Finset.sum_congr rfl fun value _ => ?_
  cases hRead : read value with
  | none =>
      rw [if_pos rfl]
      simp only [List.filterMap_cons_none hRead]
      rfl
  | some letter =>
      rw [if_neg (Option.some_ne_none letter)]
      simp only [List.filterMap_cons_some hRead, List.cons_ne_nil, if_false]
      rw [total_const, Nat.mul_zero]

theorem spellings_succ_cons (length : Nat) (letter : Letter) (word : List Letter) :
    spellings read (length + 1) (letter :: word) =
      fibre read none * spellings read length (letter :: word) + fibre read (some letter) * spellings read length word := by
  rw [spellings, total_succ, ← sum_ite_fibre, ← sum_ite_fibre, ← Finset.sum_add_distrib]
  refine Finset.sum_congr rfl fun value _ => ?_
  cases hRead : read value with
  | none =>
      rw [if_pos rfl, if_neg (Option.some_ne_none letter).symm, Nat.add_zero]
      simp only [List.filterMap_cons_none hRead]
      rfl
  | some other =>
      rw [if_neg (Option.some_ne_none other), Nat.zero_add]
      simp only [List.filterMap_cons_some hRead, List.cons.injEq, Option.some.injEq]
      by_cases hSame : other = letter
      · simp only [hSame, true_and, if_true]
        rfl
      · simp only [hSame, false_and, if_false]
        rw [total_const, Nat.mul_zero]

/-- How often a word is read off the sequences of a length. -/
theorem spellings_eq (length : Nat) (word : List Letter) :
    spellings read length word =
      length.choose word.length * weight read word * fibre read none ^ (length - word.length) := by
  induction length generalizing word with
  | zero =>
      cases word with
      | nil => simp [spellings, total_zero, weight]
      | cons letter word => simp [spellings, total_zero]
  | succ length ih =>
      cases word with
      | nil =>
          rw [spellings_succ_nil, ih]
          simp only [List.length_nil, Nat.choose_zero_right, Nat.sub_zero, pow_succ]
          ring
      | cons letter word =>
          rw [spellings_succ_cons, ih, ih, List.length_cons, Nat.choose_succ_succ, Nat.add_sub_add_right]
          rw [show weight read (letter :: word) = fibre read (some letter) * weight read word from List.prod_cons]
          by_cases hFits : word.length < length
          · have hLess : length - word.length = length - (word.length + 1) + 1 := by omega
            rw [hLess]
            ring
          · rw [Nat.choose_eq_zero_of_lt (by omega : length < word.length + 1)]
            ring

/-- What a sequence spells is looked up in all fronts of a word. -/
theorem prefix_eq_sum (each : Nat → Nat) (word : List Letter) {spelled : List Letter} {length : Nat}
    (hLength : spelled.length ≤ length) :
    (if spelled <+: word then each spelled.length * weight read (word.drop spelled.length) else 0) =
      ∑ count ∈ Finset.range (length + 1),
        if count ≤ word.length then
          each count * weight read (word.drop count) * (if spelled = word.take count then 1 else 0)
        else 0 := by
  by_cases hPrefix : spelled <+: word
  · have hTake : spelled = word.take spelled.length := List.prefix_iff_eq_take.mp hPrefix
    rw [if_pos hPrefix, Finset.sum_eq_single spelled.length]
    · rw [if_pos hPrefix.length_le, if_pos hTake, Nat.mul_one]
    · intro count _ hOther
      split
      · next hCount =>
          rw [if_neg, Nat.mul_zero]
          intro hSame
          exact hOther (by rw [hSame, List.length_take, Nat.min_eq_left hCount])
      · rfl
    · exact fun hOut => absurd (Finset.mem_range.mpr (Nat.lt_succ_of_le hLength)) hOut
  · rw [if_neg hPrefix]
    symm
    refine Finset.sum_eq_zero fun count _ => ?_
    split
    · rw [if_neg, Nat.mul_zero]
      exact fun hSame => hPrefix (hSame ▸ List.take_prefix count word)
    · rfl

/-- A sum over the sequences that spell a front of a word, which goes on with the weight of
what is left of it: the word comes in with its weight and with its length only. -/
theorem total_fronts (length : Nat) (each : Nat → Nat) (word : List Letter) :
    total length (fun sequence =>
      if sequence.filterMap read <+: word then
        each (sequence.filterMap read).length * weight read (word.drop (sequence.filterMap read).length)
      else 0) =
      (∑ count ∈ Finset.range (length + 1),
        if count ≤ word.length then each count * (length.choose count * fibre read none ^ (length - count)) else 0) *
        weight read word := by
  have hFronts := fun (sequence : List α) (hLength : sequence.length = length) =>
    prefix_eq_sum read each word (hLength ▸ List.length_filterMap_le read sequence)
  rw [total_congr hFronts, total_sum, Finset.sum_mul]
  refine Finset.sum_congr rfl fun count _ => ?_
  by_cases hCount : count ≤ word.length
  · simp only [if_pos hCount]
    have hWeight := weight_append read (word.take count) (word.drop count)
    rw [List.take_append_drop] at hWeight
    rw [total_mul_left, ← spellings, spellings_eq, List.length_take, Nat.min_eq_left hCount, hWeight]
    ring
  · simp only [if_neg hCount]
    rw [total_const, Nat.mul_zero, Nat.zero_mul]

end ContainerCP.Rejection
