import ContainerCP.Dns.SpfAnalyzer

/-! The limits of an SPF evaluation. The resolver may answer as it likes, with
records that include themselves and each other; the evaluation still comes to an
end, goes no deeper than its limit and evaluates no more mechanisms that cost a
lookup than it allows itself. -/
namespace ContainerCP.Dns

/-! ## Counting events -/

def Event.isEntered : Event → Bool
  | .entered _ => true
  | _ => false

def Event.isEvaluated : Event → Bool
  | .evaluated _ => true
  | _ => false

/-- How many mechanisms that cost a lookup were evaluated. -/
def lookups (log : List Event) : Nat := log.countP Event.isEvaluated

/-- How many lists of mechanisms were entered. -/
def entries (log : List Event) : Nat := log.countP Event.isEntered

@[simp]
theorem lookups_entered (depth : Nat) (log : List Event) : lookups (.entered depth :: log) = lookups log := by
  simp [lookups, Event.isEvaluated]

@[simp]
theorem lookups_evaluated (mech : SpfMechanism) (log : List Event) :
    lookups (.evaluated mech :: log) = lookups log + 1 :=
  List.countP_cons_of_pos rfl

@[simp]
theorem lookups_queried (domain : Bytes) (type : RecordType) (log : List Event) :
    lookups (.queried domain type :: log) = lookups log := by
  simp [lookups, Event.isEvaluated]

@[simp]
theorem entries_entered (depth : Nat) (log : List Event) : entries (.entered depth :: log) = entries log + 1 :=
  List.countP_cons_of_pos rfl

@[simp]
theorem entries_evaluated (mech : SpfMechanism) (log : List Event) :
    entries (.evaluated mech :: log) = entries log := by
  simp [entries, Event.isEntered]

@[simp]
theorem entries_queried (domain : Bytes) (type : RecordType) (log : List Event) :
    entries (.queried domain type :: log) = entries log := by
  simp [entries, Event.isEntered]

/-! ## A rule for the loop body -/

section Rule

/-- A property of the evaluation, indexed by the calls of `recur` that it has to
pay for, which looks only at the counter and at what was entered and evaluated. -/
structure Charge (P : Nat → Evaluation → Prop) (recur : Bytes → List SpfMechanism → Evaluation → Bool × Evaluation) :
    Prop where
  raise : ∀ {n e}, P n e → P (n + 1) e
  queried : ∀ {n e} domain type, P n e → P n (e.push (.queried domain type))
  frame : ∀ {n e e'}, P n e → e'.log = e.log → e'.result.lookupCount = e.result.lookupCount → P n e'
  call : ∀ {n e} domain mechs, P n e → P (n + 1) (recur domain mechs e).2

variable (env : Surroundings Event) (expectedIpv4 expectedIpv6 : Bytes)
variable {P : Nat → Evaluation → Prop} {recur : Bytes → List SpfMechanism → Evaluation → Bool × Evaluation}

theorem Charge.findExchange (hCharge : Charge P recur) {n : Nat} (targets : List Bytes) {e : Evaluation}
    (h : P n e) : P n (findExchange env expectedIpv4 targets e).2 := by
  induction targets generalizing e with
  | nil => exact h
  | cons target rest ih =>
      rw [Dns.findExchange]
      split
      · exact ih h
      · have hAsked : P n (e.query env target .a).2 := hCharge.queried _ _ h
        dsimp only
        split
        · exact hAsked
        · exact ih hAsked

theorem Charge.followRecords (hCharge : Charge P recur) (domain : Bytes) {n : Nat} (records : List Bytes)
    (matched : Bool) {e : Evaluation} (h : P n e) :
    P (n + records.length) (followRecords (recur domain) records matched e).2 := by
  induction records generalizing n matched e with
  | nil => exact h
  | cons record rest ih =>
      have hLength : n + (record :: rest).length = n + 1 + rest.length := by
        rw [List.length_cons]
        omega
      rw [Dns.followRecords, hLength]
      split
      · exact ih _ (hCharge.call _ _ (hCharge.frame h rfl rfl))
      · exact ih _ (hCharge.raise h)

/-- A number of records that some answer may have. -/
def AnswerSize (env : Surroundings Event) (k : Nat) : Prop :=
  k = 0 ∨ ∃ log domain, k = ((env.check log domain .txt).values .txt).length

theorem Charge.followDomain (hCharge : Charge P recur) (domain : Bytes) {n : Nat} {e : Evaluation} (h : P n e) :
    ∃ k, AnswerSize env k ∧ P (n + k) (followDomain env recur domain e).2 :=
  ⟨_, .inr ⟨e.log, domain, rfl⟩, hCharge.followRecords domain _ _ (hCharge.queried _ _ h)⟩

theorem Charge.matchMechanism (hCharge : Charge P recur) (domain : Bytes) (mech : SpfMechanism) {n : Nat}
    {e : Evaluation} (h : P n e) :
    ∃ k, AnswerSize env k ∧ P (n + k) (matchMechanism env expectedIpv4 expectedIpv6 recur domain mech e).2 := by
  have hSame : ∃ k, AnswerSize env k ∧ P (n + k) e := ⟨0, .inl rfl, h⟩
  have hVisited : P n (e.visit mech.domain) := hCharge.frame h rfl rfl
  have hBranch : ∀ (p : Prop) [Decidable p] (first second : Option Bytes × Evaluation),
      (∃ k, AnswerSize env k ∧ P (n + k) first.2) → (∃ k, AnswerSize env k ∧ P (n + k) second.2) →
      ∃ k, AnswerSize env k ∧ P (n + k) (if p then first else second).2 := by
    intro p _ first second hFirst hSecond
    split
    · exact hFirst
    · exact hSecond
  unfold Dns.matchMechanism
  dsimp only
  -- ip4 and ip6 ask for nothing
  refine hBranch _ _ _ hSame (hBranch _ _ _ hSame (hBranch _ _ _ ?address (hBranch _ _ _ ?exchange
    (hBranch _ _ _ ?included (hBranch _ _ _ ?redirected hSame)))))
  case address => exact ⟨0, .inl rfl, hCharge.queried _ _ h⟩
  case exchange => exact ⟨0, .inl rfl, hCharge.findExchange env expectedIpv4 _ (hCharge.queried _ _ h)⟩
  case included =>
    refine hBranch _ _ _ hSame (hBranch _ _ _ ⟨0, .inl rfl, hCharge.frame h rfl rfl⟩ ?_)
    exact hCharge.followDomain env mech.domain hVisited
  case redirected => exact hBranch _ _ _ hSame (hCharge.followDomain env mech.domain h)

/-- Behind the lookup check a mechanism calls `recur` at most once for each
record of one answer. -/
theorem Charge.evaluateMechanism (hCharge : Charge P recur) (domain : Bytes) (mech : SpfMechanism) {n : Nat}
    {e : Evaluation} (h : P n e) :
    ∃ k, AnswerSize env k ∧
      P (n + k) (evaluateMechanism env expectedIpv4 expectedIpv6 recur domain mech e) := by
  obtain ⟨k, hSize, hTried⟩ := hCharge.matchMechanism env expectedIpv4 expectedIpv6 domain mech h
  refine ⟨k, hSize, ?_⟩
  unfold Dns.evaluateMechanism
  dsimp only
  split <;> split <;> exact hCharge.frame hTried rfl rfl

end Rule

/-- A mechanism that costs no lookup asks nothing and enters nothing. -/
theorem evaluateMechanism_of_not_consumesLookup (env : Surroundings Event) (expectedIpv4 expectedIpv6 : Bytes)
    (recur : Bytes → List SpfMechanism → Evaluation → Bool × Evaluation) (domain : Bytes)
    {mech : SpfMechanism} (h : mech.consumesLookup = false) (e : Evaluation) :
    (evaluateMechanism env expectedIpv4 expectedIpv6 recur domain mech e).log = e.log ∧
      (evaluateMechanism env expectedIpv4 expectedIpv6 recur domain mech e).result.lookupCount =
        e.result.lookupCount := by
  simp only [SpfMechanism.consumesLookup, Bool.or_eq_false_iff, beq_eq_false_iff_ne] at h
  obtain ⟨⟨⟨⟨hA, hMx⟩, hInclude⟩, -⟩, hRedirect⟩ := h
  have hTried : (matchMechanism env expectedIpv4 expectedIpv6 recur domain mech e).2 = e := by
    unfold matchMechanism
    dsimp only
    rw [if_neg hA, if_neg hMx, if_neg hInclude, if_neg hRedirect]
    split
    · rfl
    split <;> rfl
  unfold evaluateMechanism
  dsimp only
  rw [hTried]
  split <;> split <;> exact ⟨rfl, rfl⟩

/-! ## The limits -/

/-- The limits hold so far: nothing was entered below the greatest depth, and the
evaluated mechanisms are those that the counter let pass. -/
structure Bounded (e : Evaluation) : Prop where
  depth : ∀ k, .entered k ∈ e.log → k ≤ maxDepth
  lookups : lookups e.log = min e.result.lookupCount maxLookups

theorem Bounded.lookups_le {e : Evaluation} (h : Bounded e) : Dns.lookups e.log ≤ maxLookups := by
  rw [h.lookups]
  exact Nat.min_le_right _ _

/-- The evaluation went on within the limits, from a number of lookups. -/
def BoundedFrom (least : Nat) (e : Evaluation) : Prop := Bounded e ∧ least ≤ lookups e.log

theorem BoundedFrom.mono {least more : Nat} {e : Evaluation} (h : BoundedFrom more e) (hLe : least ≤ more) :
    BoundedFrom least e :=
  ⟨h.1, hLe.trans h.2⟩

theorem BoundedFrom.frame {least : Nat} {e e' : Evaluation} (h : BoundedFrom least e) (hLog : e'.log = e.log)
    (hCount : e'.result.lookupCount = e.result.lookupCount) : BoundedFrom least e' := by
  obtain ⟨⟨hDepth, hLookups⟩, hLeast⟩ := h
  refine ⟨⟨?_, ?_⟩, ?_⟩
  · rwa [hLog]
  · rwa [hLog, hCount]
  · rwa [hLog]

theorem BoundedFrom.queried {least : Nat} {e : Evaluation} (h : BoundedFrom least e) (domain : Bytes)
    (type : RecordType) : BoundedFrom least (e.push (.queried domain type)) := by
  obtain ⟨⟨hDepth, hLookups⟩, hLeast⟩ := h
  refine ⟨⟨?_, ?_⟩, ?_⟩
  · intro k hk
    exact hDepth k (by simpa [Evaluation.push] using hk)
  · simpa [Evaluation.push] using hLookups
  · simpa [Evaluation.push] using hLeast

/-- A call of `recur` needs one more lookup behind it than the depth that it
goes to. -/
theorem charge_boundedFrom {depth least : Nat} (hDepth : depth + 1 ≤ least)
    {recur : Bytes → List SpfMechanism → Evaluation → Bool × Evaluation}
    (hRecur : ∀ domain mechs e least, depth + 1 ≤ least → BoundedFrom least e →
      BoundedFrom least (recur domain mechs e).2) :
    Charge (fun _ => BoundedFrom least) recur where
  raise h := h
  queried domain type h := h.queried domain type
  frame h hLog hCount := h.frame hLog hCount
  call domain mechs h := hRecur domain mechs _ _ hDepth h

section Limits

variable (env : Surroundings Event) (expectedIpv4 expectedIpv6 : Bytes)

/-- A mechanism that costs a lookup and passes the check. -/
theorem boundedFrom_evaluated {least : Nat} {e : Evaluation} (mech : SpfMechanism) (h : BoundedFrom least e)
    (hPasses : ¬e.countLookup.result.lookupCount > maxLookups) :
    BoundedFrom (least + 1) (e.countLookup.push (.evaluated mech)) := by
  obtain ⟨⟨hDepth, hLookups⟩, hLeast⟩ := h
  have hCount : e.result.lookupCount + 1 ≤ maxLookups := Nat.le_of_not_lt hPasses
  refine ⟨⟨?_, ?_⟩, ?_⟩
  · intro k hk
    exact hDepth k (by simpa [Evaluation.push, Evaluation.countLookup] using hk)
  · simp only [Evaluation.push, Evaluation.countLookup, lookups_evaluated]
    omega
  · simp only [Evaluation.push, Evaluation.countLookup, lookups_evaluated]
    omega

/-- A mechanism beyond the limit changes the counter only. -/
theorem boundedFrom_exceeded {least : Nat} {e : Evaluation} (error : Bytes) (h : BoundedFrom least e)
    (hExceeds : e.countLookup.result.lookupCount > maxLookups) :
    BoundedFrom least (e.countLookup.addError error) := by
  obtain ⟨⟨hDepth, hLookups⟩, hLeast⟩ := h
  have hCount : maxLookups < e.result.lookupCount + 1 := hExceeds
  refine ⟨⟨hDepth, ?_⟩, hLeast⟩
  show lookups e.log = min (e.result.lookupCount + 1) maxLookups
  omega

theorem evaluateLoop_bounded {depth : Nat}
    {recur : Bytes → List SpfMechanism → Evaluation → Bool × Evaluation}
    (hRecur : ∀ domain mechs e least, depth + 1 ≤ least → BoundedFrom least e →
      BoundedFrom least (recur domain mechs e).2)
    (domain : Bytes) (mechs : List SpfMechanism) {e : Evaluation} {least : Nat} (hDepth : depth ≤ least)
    (h : BoundedFrom least e) :
    BoundedFrom least (evaluateLoop env expectedIpv4 expectedIpv6 recur domain mechs e).2 := by
  induction mechs generalizing e with
  | nil => exact h
  | cons mech rest ih =>
      rw [evaluateLoop]
      split
      · dsimp only
        split
        · next hExceeds => exact boundedFrom_exceeded _ h hExceeds
        · next hPasses =>
          have hEvaluated := boundedFrom_evaluated mech h hPasses
          obtain ⟨_, -, hBehind⟩ := (charge_boundedFrom (Nat.succ_le_succ hDepth) hRecur).evaluateMechanism env
            expectedIpv4 expectedIpv6 (n := 0) domain mech hEvaluated
          exact ih (hBehind.mono (Nat.le_succ _))
      · next hFree =>
        have hSame := evaluateMechanism_of_not_consumesLookup env expectedIpv4 expectedIpv6 recur domain
          (Bool.eq_false_iff.mpr hFree) e
        exact ih (h.frame hSame.1 hSame.2)

/-- `evaluate_mechanisms` keeps the limits. Each depth has a lookup behind it, so
the depth check itself never fails. -/
theorem evaluateMechanisms_bounded (depth : Nat) (domain : Bytes) (mechs : List SpfMechanism) (e : Evaluation)
    (least : Nat) (hDepth : depth ≤ least) (h : BoundedFrom least e) :
    BoundedFrom least (evaluateMechanisms env expectedIpv4 expectedIpv6 depth domain mechs e).2 := by
  induction hRoom : maxDepth + 1 - depth generalizing depth domain mechs e least with
  | zero =>
      have hLookups := h.1.lookups_le
      have hLeast := h.2
      simp only [maxDepth, maxLookups] at hRoom hLookups
      omega
  | succ room ih =>
      have hLe : depth ≤ maxDepth := by omega
      have hEntered : BoundedFrom least (e.push (.entered depth)) := by
        obtain ⟨⟨hEntries, hLookups⟩, hLeast⟩ := h
        refine ⟨⟨?_, ?_⟩, ?_⟩
        · intro k hk
          rcases List.mem_cons.mp hk with hk | hk
          · cases hk
            exact hLe
          · exact hEntries k hk
        · simpa [Evaluation.push] using hLookups
        · simpa [Evaluation.push] using hLeast
      rw [evaluateMechanisms, dif_neg (Nat.not_lt.mpr hLe)]
      apply evaluateLoop_bounded env expectedIpv4 expectedIpv6 _ domain mechs hDepth hEntered
      intro domain mechs e least hLeast hBounded
      exact ih (depth + 1) domain mechs e least hLeast hBounded (by omega)

/-- For every resolver, every record and every expected address, the analysis
ends, never goes deeper than its limit and evaluates at most the allowed number
of mechanisms that cost a lookup. -/
theorem analyze_bounded (spfRecord domain : Bytes) :
    (∀ depth, .entered depth ∈ (analyze env expectedIpv4 expectedIpv6 spfRecord domain).log → depth ≤ maxDepth) ∧
      ((analyze env expectedIpv4 expectedIpv6 spfRecord domain).log.filter Event.isEvaluated).length ≤
        maxLookups := by
  have hStart : ∀ result : SpfAnalysis, result.lookupCount = 0 → BoundedFrom 0 { result := result } := by
    intro result hCount
    refine ⟨⟨?_, ?_⟩, Nat.zero_le _⟩
    · intro k hk
      exact absurd hk List.not_mem_nil
    · simp [lookups, hCount]
  have hBounded : ∃ e, BoundedFrom 0 e ∧ e.log = (analyze env expectedIpv4 expectedIpv6 spfRecord domain).log := by
    unfold analyze
    dsimp only
    split
    · exact ⟨_, hStart {} rfl, rfl⟩
    split
    · exact ⟨_, hStart {} rfl, rfl⟩
    split
    · exact ⟨_, hStart {} rfl, rfl⟩
    split
    · exact ⟨_, hStart {} rfl, rfl⟩
    · exact ⟨_, evaluateMechanisms_bounded env expectedIpv4 expectedIpv6 0 _ _ _ 0 (Nat.le_refl _) (hStart _ rfl), rfl⟩
  obtain ⟨e, hFrom, hLog⟩ := hBounded
  rw [← hLog]
  refine ⟨hFrom.1.depth, ?_⟩
  rw [← List.countP_eq_length_filter]
  exact hFrom.1.lookups_le

end Limits

/-! ## The counter fits its type -/

/-- What a stretch of the evaluation costs when no answer has more than `size`
records: lists entered without a lookup of their own, and rounds of the counter
beyond the limit. -/
structure Spent (size entered exceeded : Nat) (e e' : Evaluation) : Prop where
  entries_le : entries e'.log + size * lookups e.log ≤ entries e.log + entered + size * lookups e'.log
  count_le : e'.result.lookupCount + lookups e.log + entries e.log ≤
    e.result.lookupCount + lookups e'.log + entries e'.log + exceeded

theorem Spent.trans {size entered entered' exceeded exceeded' : Nat} {e e' e'' : Evaluation}
    (first : Spent size entered exceeded e e') (second : Spent size entered' exceeded' e' e'') :
    Spent size (entered + entered') (exceeded + exceeded') e e'' := by
  obtain ⟨hEntries, hCount⟩ := first
  obtain ⟨hEntries', hCount'⟩ := second
  constructor <;> omega

theorem Spent.frame {size entered exceeded : Nat} {e e' e'' : Evaluation} (h : Spent size entered exceeded e e')
    (hLog : e''.log = e'.log) (hCount : e''.result.lookupCount = e'.result.lookupCount) :
    Spent size entered exceeded e e'' := by
  obtain ⟨hEntries, hCounted⟩ := h
  constructor
  · rwa [hLog]
  · rwa [hLog, hCount]

theorem charge_spent {size : Nat} {start : Evaluation}
    {recur : Bytes → List SpfMechanism → Evaluation → Bool × Evaluation}
    (hRecur : ∀ domain mechs e, Spent size 1 0 e (recur domain mechs e).2) :
    Charge (fun entered => Spent size entered 0 start) recur where
  raise h := by
    obtain ⟨hEntries, hCount⟩ := h
    constructor <;> omega
  queried domain type h := by
    obtain ⟨hEntries, hCount⟩ := h
    constructor
    · simpa [Evaluation.push] using hEntries
    · simpa [Evaluation.push] using hCount
  frame h hLog hCount := h.frame hLog hCount
  call domain mechs h := h.trans (hRecur domain mechs _)

section Counter

variable (env : Surroundings Event) (expectedIpv4 expectedIpv6 : Bytes) {size : Nat}

theorem evaluateLoop_spent (hSize : ∀ log domain, ((env.check log domain .txt).values .txt).length ≤ size)
    {recur : Bytes → List SpfMechanism → Evaluation → Bool × Evaluation}
    (hRecur : ∀ domain mechs e, Spent size 1 0 e (recur domain mechs e).2)
    (domain : Bytes) (mechs : List SpfMechanism) (e : Evaluation) :
    Spent size 0 1 e (evaluateLoop env expectedIpv4 expectedIpv6 recur domain mechs e).2 := by
  have hRefl : ∀ e : Evaluation, Spent size 0 0 e e := fun e => ⟨Nat.le_refl _, Nat.le_refl _⟩
  induction mechs generalizing e with
  | nil => exact ⟨Nat.le_refl _, Nat.le_succ _⟩
  | cons mech rest ih =>
      rw [evaluateLoop]
      split
      · dsimp only
        split
        · constructor
          · exact Nat.le_refl _
          · simp only [Evaluation.addError, Evaluation.countLookup]
            omega
        · obtain ⟨k, hAnswer, hSpent⟩ := (charge_spent hRecur).evaluateMechanism env expectedIpv4
            expectedIpv6 domain mech (hRefl (e.countLookup.push (.evaluated mech)))
          have hK : k ≤ size := by
            rcases hAnswer with rfl | ⟨log, name, rfl⟩
            · exact Nat.zero_le _
            · exact hSize log name
          have hRest := hSpent.trans (ih (evaluateMechanism env expectedIpv4 expectedIpv6 recur domain mech
            (e.countLookup.push (.evaluated mech))))
          -- the lookup of the mechanism pays for the lists that its answer makes enter
          have hPaid : size * (lookups e.log + 1) = size * lookups e.log + size := Nat.mul_succ _ _
          obtain ⟨hEntries, hCount⟩ := hRest
          simp only [Evaluation.push, Evaluation.countLookup, lookups_evaluated, entries_evaluated] at hEntries hCount ⊢
          constructor <;> omega
      · next hFree =>
        have hSame := evaluateMechanism_of_not_consumesLookup env expectedIpv4 expectedIpv6 recur domain
          (Bool.eq_false_iff.mpr hFree) e
        have hRest := ((hRefl e).frame hSame.1 hSame.2).trans
          (ih (evaluateMechanism env expectedIpv4 expectedIpv6 recur domain mech e))
        simpa using hRest

theorem evaluateMechanisms_spent (hSize : ∀ log domain, ((env.check log domain .txt).values .txt).length ≤ size)
    (depth : Nat) (domain : Bytes) (mechs : List SpfMechanism) (e : Evaluation) :
    Spent size 1 0 e (evaluateMechanisms env expectedIpv4 expectedIpv6 depth domain mechs e).2 := by
  have hPush : entries (e.push (.entered depth)).log = entries e.log + 1 ∧
      lookups (e.push (.entered depth)).log = lookups e.log := by
    simp [Evaluation.push]
  induction hRoom : maxDepth + 1 - depth generalizing depth domain mechs e with
  | zero =>
      rw [evaluateMechanisms, dif_pos (by omega)]
      constructor
      · simp only [Evaluation.addError, hPush]
        omega
      · simp only [Evaluation.addError, hPush]
        simp only [Evaluation.push]
        omega
  | succ room ih =>
      rw [evaluateMechanisms, dif_neg (by omega)]
      have hRecur : ∀ domain mechs e,
          Spent size 1 0 e (evaluateMechanisms env expectedIpv4 expectedIpv6 (depth + 1) domain mechs e).2 := by
        intro domain mechs e
        exact ih (depth + 1) domain mechs e (by simp [Evaluation.push]) (by omega)
      have hLoop := evaluateLoop_spent env expectedIpv4 expectedIpv6 hSize hRecur domain mechs
        (e.push (.entered depth))
      obtain ⟨hEntries, hCount⟩ := hLoop
      have hSameCount : (e.push (.entered depth)).result.lookupCount = e.result.lookupCount := rfl
      rw [hPush.1, hPush.2] at hEntries hCount
      constructor <;> omega

/-- A DNS message counts its answers in sixteen bits, so the counter stays far
below the largest `int`. -/
theorem lookupCount_lt_of_answers (spfRecord domain : Bytes)
    (hAnswers : ∀ log domain, ((env.check log domain .txt).values .txt).length < 2 ^ 16) :
    (analyze env expectedIpv4 expectedIpv6 spfRecord domain).result.lookupCount < 2 ^ 31 := by
  have hSize : ∀ log domain, ((env.check log domain .txt).values .txt).length ≤ 65535 := by
    intro log domain
    exact Nat.le_of_lt_succ (hAnswers log domain)
  unfold analyze
  dsimp only
  split
  · exact Nat.two_pow_pos 31
  split
  · exact Nat.two_pow_pos 31
  split
  · exact Nat.two_pow_pos 31
  split
  · exact Nat.two_pow_pos 31
  · generalize hStart : ({ result := _ } : Evaluation) = start
    have hSpent := evaluateMechanisms_spent env expectedIpv4 expectedIpv6 hSize 0 domain
      (parseMechanisms spfRecord).1 start
    have hBounded : BoundedFrom 0 (evaluateMechanisms env expectedIpv4 expectedIpv6 0 domain
        (parseMechanisms spfRecord).1 start).2 := by
      apply evaluateMechanisms_bounded env expectedIpv4 expectedIpv6 0 _ _ _ 0 (Nat.le_refl _)
      rw [← hStart]
      refine ⟨⟨?_, ?_⟩, Nat.zero_le _⟩
      · intro k hk
        exact absurd hk List.not_mem_nil
      · simp [lookups]
    have hLookups := hBounded.1.lookups_le
    obtain ⟨hEntries, hCount⟩ := hSpent
    have hZero : start.result.lookupCount = 0 ∧ lookups start.log = 0 ∧ entries start.log = 0 := by
      simp [← hStart, lookups, entries]
    simp only [hZero, maxLookups] at hEntries hCount hLookups
    show (evaluateMechanisms env expectedIpv4 expectedIpv6 0 domain (parseMechanisms spfRecord).1
      start).2.result.lookupCount < 2 ^ 31
    omega

end Counter

/-- A domain that includes itself. -/
theorem lookupCount_lt_of_answers_include :
    (analyze ⟨fun _ _ _ => ⟨true, [⟨.txt, [bytes "v=spf1 include:example.org ~all"]⟩]⟩, fun _ => none, fun _ => none⟩
      (bytes "192.0.2.1") [] (bytes "v=spf1 include:example.org ~all") (bytes "example.org")).result.lookupCount < 2 ^ 31 :=
  lookupCount_lt_of_answers _ _ _ _ _ fun _ _ => (by decide : 1 < 2 ^ 16)

end ContainerCP.Dns
