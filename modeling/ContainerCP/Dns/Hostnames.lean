import ContainerCP.Text.Lines

/-! `Validator::validate_hostname`, which the name of a new site has to pass, and
`DnsCheckService::validate_domain`, which it has to pass to be checked later. -/
namespace ContainerCP.Dns

def dot : UInt8 := ascii '.'

def hyphen : UInt8 := ascii '-'

/-! ## The two checks -/

/-- What `validate_hostname` says of one label. -/
def labelError (label : Bytes) : Option Bytes :=
  if label.length = 0 then some (bytes "Domain contains an empty label")
  else if 63 < label.length then some (bytes "Label is longer than 63 characters: " ++ label.take 63 ++ bytes "...")
  else if label.head? = some hyphen then some (bytes "Label cannot start with a hyphen: " ++ label)
  else if label.getLast? = some hyphen then some (bytes "Label cannot end with a hyphen: " ++ label)
  else (label.find? fun c => !isAlnum c && c != hyphen).map fun c => bytes "Label contains invalid character: " ++ [c]

/-- `Validator::validate_hostname`: the error, or an empty text. The loop ends behind the
last character, and so sees no empty label behind a dot there. -/
def validateHostname (hostname : Bytes) : Bytes :=
  if hostname = [] then bytes "Domain is empty"
  else if 253 < hostname.length then bytes "Domain is longer than 253 characters"
  else
    match (getlines dot hostname).findSome? labelError with
    | some error => error
    | none => if hostname.count dot < 1 then bytes "Domain must contain at least one dot" else []

/-- The checks of one label in `validate_domain`. -/
def labelFits (label : Bytes) : Bool :=
  label.length ≠ 0 && label.length ≤ 63 && label.head? ≠ some hyphen && label.getLast? ≠ some hyphen

/-- `DnsCheckService::validate_domain`. -/
def validateDomain (domain : Bytes) : Bool :=
  if domain = [] ∨ 253 < domain.length then false
  else if domain.head? = some dot ∨ domain.getLast? = some dot then false
  else if !domain.all fun c => isAlpha c || c == hyphen || c == dot || isDigit c then false
  else if !domain.any isAlpha then false
  else (getlines dot domain).all labelFits

/-! ## What a host name is -/

/-- Letters, digits and hyphens, the hyphens not at the ends. -/
structure IsLabel (label : Bytes) : Prop where
  ne_nil : label ≠ []
  short : label.length ≤ 63
  chars : ∀ c ∈ label, isAlnum c = true ∨ c = hyphen
  front : label.head? ≠ some hyphen
  back : label.getLast? ≠ some hyphen

/-- Two or more labels with single dots between them. -/
def IsHostname (name : Bytes) : Prop :=
  name.length ≤ 253 ∧ ∃ labels, 2 ≤ labels.length ∧ (∀ label ∈ labels, IsLabel label) ∧ name = [dot].intercalate labels

/-- One or more labels, with a dot behind them. -/
def HasDotBehind (name : Bytes) : Prop :=
  name.length ≤ 253 ∧ ∃ labels, labels ≠ [] ∧ (∀ label ∈ labels, IsLabel label) ∧ name = [dot].intercalate labels ++ [dot]

theorem IsLabel.dot_notMem {label : Bytes} (h : IsLabel label) : dot ∉ label := by
  intro hMem
  rcases h.chars dot hMem with hAlnum | hHyphen
  · cases hAlnum
  · cases hHyphen

theorem isHostname_iff {name : Bytes} :
    IsHostname name ↔ name.length ≤ 253 ∧ 1 ≤ name.count dot ∧ ∀ label ∈ name.splitOn dot, IsLabel label := by
  have hCount := length_splitOn dot name
  constructor
  · rintro ⟨hLength, labels, hTwo, hLabels, rfl⟩
    rw [List.splitOn_intercalate dot (fun label h => (hLabels label h).dot_notMem) (by rintro rfl; simp at hTwo)] at hCount ⊢
    exact ⟨hLength, by omega, hLabels⟩
  · rintro ⟨hLength, hDot, hLabels⟩
    exact ⟨hLength, name.splitOn dot, by omega, hLabels, (List.intercalate_splitOn dot).symm⟩

theorem hasDotBehind_iff {front : Bytes} :
    HasDotBehind (front ++ [dot]) ↔ (front ++ [dot]).length ≤ 253 ∧ ∀ label ∈ front.splitOn dot, IsLabel label := by
  constructor
  · rintro ⟨hLength, labels, hNe, hLabels, hName⟩
    obtain rfl := List.append_cancel_right hName
    rw [List.splitOn_intercalate dot (fun label h => (hLabels label h).dot_notMem) hNe]
    exact ⟨hLength, hLabels⟩
  · rintro ⟨hLength, hLabels⟩
    exact ⟨hLength, front.splitOn dot, List.splitOn_ne_nil _ _, hLabels, by rw [List.intercalate_splitOn]⟩

/-- A name with a dot behind it ends with an empty label. -/
theorem not_isHostname_concat (front : Bytes) : ¬IsHostname (front ++ [dot]) := by
  intro h
  have hEmpty := (isHostname_iff.mp h).2.2 [] (by rw [List.splitOn_append_cons_self]; simp)
  exact hEmpty.ne_nil rfl

/-! ## What is accepted -/

theorem labelError_eq_none {label : Bytes} : labelError label = none ↔ IsLabel label := by
  unfold labelError
  by_cases hEmpty : label.length = 0
  · rw [if_pos hEmpty]
    exact iff_of_false (by simp) fun h => h.ne_nil (List.eq_nil_of_length_eq_zero hEmpty)
  rw [if_neg hEmpty]
  by_cases hLong : 63 < label.length
  · rw [if_pos hLong]
    exact iff_of_false (by simp) fun h => absurd h.short (by omega)
  rw [if_neg hLong]
  by_cases hFront : label.head? = some hyphen
  · rw [if_pos hFront]
    exact iff_of_false (by simp) fun h => h.front hFront
  rw [if_neg hFront]
  by_cases hBack : label.getLast? = some hyphen
  · rw [if_pos hBack]
    exact iff_of_false (by simp) fun h => h.back hBack
  rw [if_neg hBack, Option.map_eq_none_iff, List.find?_eq_none]
  constructor
  · intro hChars
    refine ⟨fun hNil => hEmpty (by simp [hNil]), by omega, fun c hc => ?_, hFront, hBack⟩
    have hc := hChars c hc
    by_contra hNot
    simp_all
  · intro h c hc
    rcases h.chars c hc with hAlnum | rfl
    · simp [hAlnum]
    · simp

theorem labelError_ne_nil {label error : Bytes} (h : labelError label = some error) : error ≠ [] := by
  unfold labelError at h
  split_ifs at h
  · rw [← Option.some.inj h]
    decide
  · rw [← Option.some.inj h, List.append_assoc]
    exact List.append_ne_nil_of_left_ne_nil (by decide) _
  · rw [← Option.some.inj h]
    exact List.append_ne_nil_of_left_ne_nil (by decide) _
  · rw [← Option.some.inj h]
    exact List.append_ne_nil_of_left_ne_nil (by decide) _
  · obtain ⟨c, -, rfl⟩ := Option.map_eq_some_iff.mp h
    exact List.append_ne_nil_of_right_ne_nil _ (List.cons_ne_nil _ _)

theorem validateHostname_eq_nil {hostname : Bytes} :
    validateHostname hostname = [] ↔
      hostname.length ≤ 253 ∧ 1 ≤ hostname.count dot ∧ ∀ label ∈ getlines dot hostname, IsLabel label := by
  unfold validateHostname
  by_cases hEmpty : hostname = []
  · rw [if_pos hEmpty, hEmpty]
    exact iff_of_false (by decide) (by simp)
  rw [if_neg hEmpty]
  by_cases hLong : 253 < hostname.length
  · rw [if_pos hLong]
    exact iff_of_false (by decide) fun h => absurd h.1 (by omega)
  rw [if_neg hLong]
  cases hLabels : (getlines dot hostname).findSome? labelError with
  | some error =>
      obtain ⟨label, hLabel, hError⟩ := List.exists_of_findSome?_eq_some hLabels
      refine iff_of_false (labelError_ne_nil hError) fun h => ?_
      rw [labelError_eq_none.mpr (h.2.2 label hLabel)] at hError
      cases hError
  | none =>
      rw [List.findSome?_eq_none_iff] at hLabels
      have hAll : ∀ label ∈ getlines dot hostname, IsLabel label := fun label h => labelError_eq_none.mp (hLabels label h)
      dsimp only
      by_cases hDot : hostname.count dot < 1
      · rw [if_pos hDot]
        exact iff_of_false (by decide) fun h => absurd h.2.1 (by omega)
      · rw [if_neg hDot]
        exact iff_of_true rfl ⟨by omega, by omega, hAll⟩

theorem getlines_concat_dot (front : Bytes) : getlines dot (front ++ [dot]) = front.splitOn dot := by
  rw [getlines, List.splitOn_append_cons_self, List.splitOn_nil, dropEmptyLast_concat_nil]

theorem labelFits_iff {label : Bytes} (hChars : ∀ c ∈ label, isAlnum c = true ∨ c = hyphen) :
    labelFits label = true ↔ IsLabel label := by
  simp only [labelFits, Bool.and_eq_true, decide_eq_true_eq, ne_eq, List.length_eq_zero_iff]
  exact ⟨fun h => ⟨h.1.1.1, h.1.1.2, hChars, h.1.2, h.2⟩, fun h => ⟨⟨⟨h.ne_nil, h.short⟩, h.front⟩, h.back⟩⟩

/-- A character between the dots is one of a label. -/
theorem chars_iff {name : Bytes} {p : UInt8 → Prop} :
    (∀ c ∈ name, c = dot ∨ p c) ↔ ∀ label ∈ name.splitOn dot, ∀ c ∈ label, p c := by
  constructor
  · intro h label hLabel c hc
    refine (h c ((isInfix_of_mem_splitOn hLabel).subset hc)).resolve_left ?_
    rintro rfl
    exact notMem_of_mem_splitOn hLabel hc
  · intro h c hc
    rw [← @List.intercalate_splitOn _ name _ _ dot] at hc
    exact (mem_of_mem_intercalate hc).imp_right fun ⟨label, hLabel, hMem⟩ => h label hLabel c hMem

/-- A dot at an end stands beside an empty label. -/
theorem nil_mem_splitOn {name : Bytes} (h : name.head? = some dot ∨ name.getLast? = some dot) : [] ∈ name.splitOn dot := by
  rcases h with hHead | hLast
  · obtain ⟨rest, rfl⟩ := List.head?_eq_some_iff.mp hHead
    rw [List.splitOn_cons_eq_if_modifyHead, if_pos (beq_self_eq_true dot)]
    exact List.mem_cons_self
  · obtain ⟨front, rfl⟩ := List.getLast?_eq_some_iff.mp hLast
    rw [List.splitOn_append_cons_self]
    simp

/-- `validate_domain` takes one label and more, as long as there is a letter. -/
theorem validateDomain_iff {domain : Bytes} :
    validateDomain domain = true ↔
      domain.length ≤ 253 ∧ (∃ c ∈ domain, isAlpha c = true) ∧ ∀ label ∈ domain.splitOn dot, IsLabel label := by
  unfold validateDomain
  by_cases hEmpty : domain = []
  · rw [if_pos (.inl hEmpty), hEmpty]
    exact iff_of_false (by simp) (by simp)
  by_cases hLong : 253 < domain.length
  · rw [if_pos (.inr hLong)]
    exact iff_of_false (by simp) fun h => absurd h.1 (by omega)
  rw [if_neg (not_or.mpr ⟨hEmpty, hLong⟩)]
  by_cases hDot : domain.head? = some dot ∨ domain.getLast? = some dot
  · rw [if_pos hDot]
    exact iff_of_false (by simp) fun h => (h.2.2 [] (nil_mem_splitOn hDot)).ne_nil rfl
  rw [if_neg hDot]
  have hLines : getlines dot domain = domain.splitOn dot := by
    rw [getlines, dropEmptyLast, if_neg (splitOn_getLast hEmpty (not_or.mp hDot).2)]
  have hAll : (domain.all fun c => isAlpha c || c == hyphen || c == dot || isDigit c) = true ↔
      ∀ label ∈ domain.splitOn dot, ∀ c ∈ label, isAlnum c = true ∨ c = hyphen := by
    rw [← chars_iff, List.all_eq_true]
    refine forall₂_congr fun c _ => ?_
    simp only [isAlnum, Bool.or_eq_true, beq_iff_eq]
    tauto
  by_cases hChars : (domain.all fun c => isAlpha c || c == hyphen || c == dot || isDigit c) = true
  · simp only [hChars, hLines, Bool.not_true, Bool.false_eq_true, if_false]
    by_cases hAlpha : domain.any isAlpha = true
    · simp only [hAlpha, Bool.not_true, Bool.false_eq_true, if_false, List.all_eq_true]
      have hLabels : (∀ label ∈ domain.splitOn dot, labelFits label = true) ↔ ∀ label ∈ domain.splitOn dot, IsLabel label :=
        forall₂_congr fun label hLabel => labelFits_iff (hAll.mp hChars label hLabel)
      rw [hLabels]
      exact ⟨fun h => ⟨by omega, List.any_eq_true.mp hAlpha, h⟩, fun h => h.2.2⟩
    · simp only [hAlpha, Bool.not_false, if_true]
      exact iff_of_false (by simp) fun h => hAlpha (List.any_eq_true.mpr h.2.1)
  · simp only [hChars, Bool.not_false, if_true]
    exact iff_of_false (by simp) fun h => hChars (hAll.mpr fun label hLabel => (h.2.2 label hLabel).chars)

/-- The names that are accepted are the host names, and those with a letter pass the other
check too, but for names with a dot behind them. -/
theorem validateHostname_iff (name : Bytes) :
    ((validateHostname name = [] ↔ IsHostname name) ∧
        (validateHostname name = [] → (∃ c ∈ name, isAlpha c = true) → validateDomain name = true)) ↔
      ¬HasDotBehind name := by
  by_cases hDot : name.getLast? = some dot
  · obtain ⟨front, rfl⟩ := List.getLast?_eq_some_iff.mp hDot
    rw [validateHostname_eq_nil, hasDotBehind_iff, getlines_concat_dot]
    have hCount : 1 ≤ (front ++ [dot]).count dot := by simp
    constructor
    · rintro ⟨h, -⟩ ⟨hLength, hLabels⟩
      exact not_isHostname_concat front (h.mp ⟨hLength, hCount, hLabels⟩)
    · intro hNot
      have hRejected : ¬((front ++ [dot]).length ≤ 253 ∧ 1 ≤ (front ++ [dot]).count dot ∧
          ∀ label ∈ front.splitOn dot, IsLabel label) := fun h => hNot ⟨h.1, h.2.2⟩
      exact ⟨iff_of_false hRejected (not_isHostname_concat front), fun h => absurd h hRejected⟩
  · have hNot : ¬HasDotBehind name := by
      rintro ⟨-, labels, -, -, rfl⟩
      exact hDot (by simp)
    have hAccepted : validateHostname name = [] ↔ IsHostname name := by
      rw [validateHostname_eq_nil, isHostname_iff]
      by_cases hEmpty : name = []
      · simp [hEmpty]
      · rw [getlines, dropEmptyLast, if_neg (splitOn_getLast hEmpty hDot)]
    refine iff_of_true ⟨hAccepted, fun h hAlpha => validateDomain_iff.mpr ?_⟩ hNot
    obtain ⟨hLength, -, hLabels⟩ := isHostname_iff.mp (hAccepted.mp h)
    exact ⟨hLength, hAlpha, hLabels⟩

/-- A root dot is accepted as the end of a host name, and by the other check it is not. -/
theorem validateHostname_rooted :
    ¬((validateHostname (bytes "example.com.") = [] ↔ IsHostname (bytes "example.com.")) ∧
        (validateHostname (bytes "example.com.") = [] → (∃ c ∈ bytes "example.com.", isAlpha c = true) →
          validateDomain (bytes "example.com.") = true)) := by
  rintro ⟨-, h⟩
  exact absurd (h (by decide) ⟨ascii 'e', by decide, by decide⟩) (by decide)

end ContainerCP.Dns
