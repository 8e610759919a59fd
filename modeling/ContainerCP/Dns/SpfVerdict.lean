import ContainerCP.Dns.FirstMatch

/-! When the analysis allows the expected address. Its evaluation looks at no qualifier
and stops at no match, so which mechanisms it reaches does not depend on the address;
it allows the address if any of them names it. -/
namespace ContainerCP.Dns

section Walk

variable (answer : Bytes → RecordType → DnsCheckResult)

/-! ## The mechanisms that are reached -/

/-- The lookups so far, the domains that were included, and the mechanisms that were
reached, each with the domain of its record and the latest first. -/
structure Walk where
  lookups : Nat := 0
  visited : List Bytes := []
  reached : List (Bytes × SpfMechanism) := []
  deriving DecidableEq

/-- The SPF records among the texts of a domain, one after the other. -/
def Walk.records (recur : List SpfMechanism → Walk → Walk) : List Bytes → Walk → Walk
  | [], walk => walk
  | record :: rest, walk =>
      if record.take 6 = spfVersion then Walk.records recur rest (recur (parseMechanisms record).1 walk)
      else Walk.records recur rest walk

/-- One mechanism: it is reached, and one that names another record leads there. A
domain is included once, but a redirect goes there again. -/
def Walk.mechanism (recur : Bytes → List SpfMechanism → Walk → Walk) (domain : Bytes) (mech : SpfMechanism)
    (walk : Walk) : Walk :=
  let reached := { walk with reached := (domain, mech) :: walk.reached }
  let texts := (answer mech.domain .txt).values .txt
  if mech.domain = [] then reached
  else if mech.mechanism = bytes "include" then
    if mech.domain ∈ walk.visited then reached
    else Walk.records (recur mech.domain) texts { reached with visited := mech.domain :: walk.visited }
  else if mech.mechanism = bytes "redirect" then Walk.records (recur mech.domain) texts reached
  else reached

/-- All mechanisms of a record, and whether the end is reached: the eleventh lookup
stops the walk through the record, not the walk through the record that names it. -/
def Walk.mechanisms (recur : Bytes → List SpfMechanism → Walk → Walk) (domain : Bytes) :
    List SpfMechanism → Walk → Bool × Walk
  | [], walk => (true, walk)
  | mech :: rest, walk =>
      let counted := if mech.consumesLookup then { walk with lookups := walk.lookups + 1 } else walk
      if mech.consumesLookup ∧ counted.lookups > maxLookups then (false, counted)
      else Walk.mechanisms recur domain rest (Walk.mechanism answer recur domain mech counted)

/-- The walk below so many levels of records. -/
def Walk.below : Nat → Bytes → List SpfMechanism → Walk → Walk
  | 0, _, _, walk => walk
  | levels + 1, domain, mechs, walk => (Walk.mechanisms answer (Walk.below levels) domain mechs walk).2

/-- The walk from the record of a domain. -/
def walkFrom (record domain : Bytes) : Bool × Walk :=
  Walk.mechanisms answer (Walk.below answer maxDepth) domain (parseMechanisms record).1 {}

section Names

variable (env : Surroundings Event) (expectedIpv4 expectedIpv6 : Bytes)

/-- A mechanism names the expected address, whatever its qualifier says. -/
def names (entry : Bytes × SpfMechanism) : Bool :=
  let mech := entry.2
  let target := if mech.domain = [] then entry.1 else mech.domain
  if mech.mechanism = bytes "ip4" then expectedIpv4 ≠ [] ∧ checkIp4Mechanism env mech.domain expectedIpv4
  else if mech.mechanism = bytes "ip6" then expectedIpv6 ≠ [] ∧ checkIp6Mechanism env mech.domain expectedIpv6
  else if mech.mechanism = bytes "a" then ((answer target .a).values .a).contains expectedIpv4
  else if mech.mechanism = bytes "mx" then
    ((answer target .mx).values .mx).any fun exchange =>
      exchange ≠ [] ∧ ((answer exchange .a).values .a).contains expectedIpv4
  else false

/-- The record is well formed and there is an address to ask for, the walk reaches the
end of the record, and some mechanism on it names the address. -/
def Named (record domain : Bytes) : Prop :=
  validateSyntax record = none ∧ (expectedIpv4 ≠ [] ∨ expectedIpv6 ≠ []) ∧ (walkFrom answer record domain).1 = true ∧
    ∃ entry ∈ (walkFrom answer record domain).2.reached, names answer env expectedIpv4 expectedIpv6 entry = true

instance (record domain : Bytes) : Decidable (Named answer env expectedIpv4 expectedIpv6 record domain) :=
  inferInstanceAs (Decidable (_ ∧ _))

end Names

/-! ## The evaluation follows the walk -/

/-- The surroundings whose answers do not change. -/
def Surroundings.steady (env : Surroundings Event) : Surroundings Event := { env with check := fun _ => answer }

variable {answer} {env : Surroundings Event} {expectedIpv4 expectedIpv6 : Bytes}

/-- An evaluation and a walk that have come equally far. -/
structure Follows (answer : Bytes → RecordType → DnsCheckResult) (env : Surroundings Event)
    (expectedIpv4 expectedIpv6 : Bytes) (e : Evaluation) (walk : Walk) : Prop where
  lookups : e.result.lookupCount = walk.lookups
  visited : e.visitedIncludes = walk.visited
  allowed : e.result.expectedIpAllowed = walk.reached.any (names answer env expectedIpv4 expectedIpv6)

/-- What the walk looks at of an evaluation. -/
structure SameProgress (e e' : Evaluation) : Prop where
  lookups : e'.result.lookupCount = e.result.lookupCount
  visited : e'.visitedIncludes = e.visitedIncludes
  allowed : e'.result.expectedIpAllowed = e.result.expectedIpAllowed

theorem SameProgress.trans {e e' e'' : Evaluation} (h : SameProgress e e') (h' : SameProgress e' e'') :
    SameProgress e e'' :=
  ⟨h'.lookups.trans h.lookups, h'.visited.trans h.visited, h'.allowed.trans h.allowed⟩

theorem Follows.frame {e e' : Evaluation} {walk : Walk} (h : Follows answer env expectedIpv4 expectedIpv6 e walk)
    (hSame : SameProgress e e') : Follows answer env expectedIpv4 expectedIpv6 e' walk :=
  ⟨hSame.lookups.trans h.lookups, hSame.visited.trans h.visited, hSame.allowed.trans h.allowed⟩

/-- A call that evaluates a record against one that walks through it. A verdict is only
positive where the flag is set, and the flag is never taken back. -/
structure Tracks (recur : Bytes → List SpfMechanism → Evaluation → Bool × Evaluation)
    (walkRecur : Bytes → List SpfMechanism → Walk → Walk) (answer : Bytes → RecordType → DnsCheckResult)
    (env : Surroundings Event) (expectedIpv4 expectedIpv6 : Bytes) : Prop where
  follows : ∀ {domain mechs e walk}, Follows answer env expectedIpv4 expectedIpv6 e walk →
    Follows answer env expectedIpv4 expectedIpv6 (recur domain mechs e).2 (walkRecur domain mechs walk)
  allowed : ∀ {domain mechs e}, (recur domain mechs e).1 = true → (recur domain mechs e).2.result.expectedIpAllowed = true
  keeps : ∀ {domain mechs e}, e.result.expectedIpAllowed = true →
    (recur domain mechs e).2.result.expectedIpAllowed = true

variable {recur : Bytes → List SpfMechanism → Evaluation → Bool × Evaluation}
  {walkRecur : Bytes → List SpfMechanism → Walk → Walk}

theorem findExchange_spec (answer : Bytes → RecordType → DnsCheckResult) (env : Surroundings Event)
    (expectedIpv4 : Bytes) (exchanges : List Bytes) (e : Evaluation) :
    SameProgress e (findExchange (Surroundings.steady answer env) expectedIpv4 exchanges e).2 ∧
      (findExchange (Surroundings.steady answer env) expectedIpv4 exchanges e).1.isSome =
        exchanges.any fun exchange => exchange ≠ [] ∧ ((answer exchange .a).values .a).contains expectedIpv4 := by
  induction exchanges generalizing e with
  | nil => exact ⟨⟨rfl, rfl, rfl⟩, rfl⟩
  | cons exchange rest ih =>
      have hAsked : SameProgress e (e.query (Surroundings.steady answer env) exchange .a).2 := ⟨rfl, rfl, rfl⟩
      have hAnswer : (e.query (Surroundings.steady answer env) exchange .a).1 = answer exchange .a := rfl
      rw [findExchange, List.any_cons]
      by_cases hEmpty : exchange = []
      · simpa [hEmpty] using ih e
      · rw [if_neg hEmpty]
        dsimp only
        rw [hAnswer]
        by_cases hFound : ((answer exchange .a).values .a).contains expectedIpv4 = true
        · rw [if_pos hFound, decide_eq_true ⟨hEmpty, hFound⟩]
          exact ⟨hAsked, rfl⟩
        · obtain ⟨hSame, hSome⟩ := ih (e.query (Surroundings.steady answer env) exchange .a).2
          rw [if_neg hFound, decide_eq_false fun h => hFound h.2]
          exact ⟨hAsked.trans hSame, hSome⟩

theorem Tracks.followRecords (h : Tracks recur walkRecur answer env expectedIpv4 expectedIpv6) (domain : Bytes)
    (records : List Bytes) (matched : Bool) {e : Evaluation} (hMatched : matched = true → e.result.expectedIpAllowed = true) :
    (∀ {walk}, Follows answer env expectedIpv4 expectedIpv6 e walk →
      Follows answer env expectedIpv4 expectedIpv6 (followRecords (recur domain) records matched e).2
        (Walk.records (walkRecur domain) records walk)) ∧
    ((followRecords (recur domain) records matched e).1 = true →
      (followRecords (recur domain) records matched e).2.result.expectedIpAllowed = true) ∧
    (e.result.expectedIpAllowed = true →
      (followRecords (recur domain) records matched e).2.result.expectedIpAllowed = true) := by
  induction records generalizing matched e with
  | nil => exact ⟨id, hMatched, id⟩
  | cons record rest ih =>
      by_cases hSpf : record.take 6 = spfVersion
      · have hNoted : SameProgress e (e.addError (parseMechanisms record).2) := ⟨rfl, rfl, rfl⟩
        have hInner : (matched || (recur domain (parseMechanisms record).1
            (e.addError (parseMechanisms record).2)).1) = true →
            (recur domain (parseMechanisms record).1
              (e.addError (parseMechanisms record).2)).2.result.expectedIpAllowed = true := by
          intro hEither
          rcases Bool.or_eq_true_iff.mp hEither with hBefore | hNow
          · exact h.keeps (hNoted.allowed.trans (hMatched hBefore))
          · exact h.allowed hNow
        obtain ⟨hFollows, hAllowed, hKeeps⟩ := ih _ hInner
        simp only [Dns.followRecords, Walk.records, if_pos hSpf]
        exact ⟨fun hWalk => hFollows (h.follows (hWalk.frame hNoted)), hAllowed,
          fun hBefore => hKeeps (h.keeps (hNoted.allowed.trans hBefore))⟩
      · simp only [Dns.followRecords, Walk.records, if_neg hSpf]
        exact ih matched hMatched

theorem isSome_ite (found : Bool) (text : Bytes) : (if found then some text else none).isSome = found := by
  cases found
  · rfl
  · rfl

/-- A mechanism that leads to no other record: it matches where it names the address. -/
theorem matchMechanism_address (answer : Bytes → RecordType → DnsCheckResult) (env : Surroundings Event)
    (expectedIpv4 expectedIpv6 domain : Bytes) {mech : SpfMechanism} (hInclude : mech.mechanism ≠ bytes "include")
    (hRedirect : mech.mechanism ≠ bytes "redirect") (e : Evaluation) :
    SameProgress e (matchMechanism (Surroundings.steady answer env) expectedIpv4 expectedIpv6 recur domain mech e).2 ∧
      (matchMechanism (Surroundings.steady answer env) expectedIpv4 expectedIpv6 recur domain mech e).1.isSome =
        names answer env expectedIpv4 expectedIpv6 (domain, mech) := by
  have hSame : SameProgress e e := ⟨rfl, rfl, rfl⟩
  simp only [matchMechanism, names, if_neg hInclude, if_neg hRedirect]
  by_cases hIp4 : mech.mechanism = bytes "ip4"
  · have hOthers : bytes "ip4" ≠ bytes "ip6" ∧ bytes "ip4" ≠ bytes "a" ∧ bytes "ip4" ≠ bytes "mx" := by decide
    by_cases hGiven : expectedIpv4 = []
    · simp [hIp4, hOthers, hGiven, hSame]
    · simp only [hIp4, hGiven, ne_eq, not_false_eq_true, and_self, true_and, if_true, Bool.decide_eq_true]
      exact ⟨hSame, isSome_ite _ _⟩
  · by_cases hIp6 : mech.mechanism = bytes "ip6"
    · have hOthers : bytes "ip6" ≠ bytes "ip4" ∧ bytes "ip6" ≠ bytes "a" ∧ bytes "ip6" ≠ bytes "mx" := by decide
      by_cases hGiven : expectedIpv6 = []
      · simp [hIp6, hOthers, hGiven, hSame]
      · simp only [hIp6, hOthers, hGiven, ne_eq, not_false_eq_true, and_self, true_and, false_and, if_true, if_false,
          Bool.decide_eq_true]
        exact ⟨hSame, isSome_ite _ _⟩
    · simp only [hIp4, hIp6, false_and, if_false]
      by_cases hA : mech.mechanism = bytes "a"
      · simp only [hA, if_true, isSome_ite]
        exact ⟨⟨rfl, rfl, rfl⟩, rfl⟩
      · by_cases hMx : mech.mechanism = bytes "mx"
        · simp only [if_neg hA, if_pos hMx]
          have hAsked (target : Bytes) : SameProgress e (e.query (Surroundings.steady answer env) target .mx).2 :=
            ⟨rfl, rfl, rfl⟩
          obtain ⟨hFound, hSome⟩ := findExchange_spec answer env expectedIpv4 _ _
          exact ⟨(hAsked _).trans hFound, hSome⟩
        · simp only [if_neg hA, if_neg hMx]
          exact ⟨hSame, rfl⟩

/-- The state behind a mechanism: the flag is set by a match. -/
theorem evaluateMechanism_progress (env : Surroundings Event) (expectedIpv4 expectedIpv6 domain : Bytes)
    (mech : SpfMechanism) (e : Evaluation) :
    let tried := matchMechanism env expectedIpv4 expectedIpv6 recur domain mech e
    let after := evaluateMechanism env expectedIpv4 expectedIpv6 recur domain mech e
    after.result.lookupCount = tried.2.result.lookupCount ∧ after.visitedIncludes = tried.2.visitedIncludes ∧
      after.result.expectedIpAllowed = (tried.1.isSome || tried.2.result.expectedIpAllowed) := by
  dsimp only
  unfold evaluateMechanism
  dsimp only
  cases (matchMechanism env expectedIpv4 expectedIpv6 recur domain mech e).1 with
  | none =>
      split
      · exact ⟨rfl, rfl, rfl⟩
      · exact ⟨rfl, rfl, rfl⟩
  | some matchedBy =>
      split
      · exact ⟨rfl, rfl, rfl⟩
      · exact ⟨rfl, rfl, rfl⟩

/-- A mechanism that leads to another record: the evaluation comes to where the walk
comes, and a match needs the flag. -/
theorem Tracks.matchMechanism (h : Tracks recur walkRecur answer env expectedIpv4 expectedIpv6) (domain : Bytes)
    {mech : SpfMechanism} (hMech : mech.mechanism = bytes "include" ∨ mech.mechanism = bytes "redirect")
    {e : Evaluation} :
    (∀ {walk}, Follows answer env expectedIpv4 expectedIpv6 e walk →
      Follows answer env expectedIpv4 expectedIpv6
        (matchMechanism (Surroundings.steady answer env) expectedIpv4 expectedIpv6 recur domain mech e).2
        (Walk.mechanism answer walkRecur domain mech walk)) ∧
    ((matchMechanism (Surroundings.steady answer env) expectedIpv4 expectedIpv6 recur domain mech e).1.isSome = true →
      (matchMechanism (Surroundings.steady answer env) expectedIpv4 expectedIpv6 recur domain
        mech e).2.result.expectedIpAllowed = true) ∧
    (e.result.expectedIpAllowed = true →
      (matchMechanism (Surroundings.steady answer env) expectedIpv4 expectedIpv6 recur domain
        mech e).2.result.expectedIpAllowed = true) := by
  have hNames : names answer env expectedIpv4 expectedIpv6 (domain, mech) = false := by
    have hOthers : ∀ name ∈ [bytes "include", bytes "redirect"],
        name ≠ bytes "ip4" ∧ name ≠ bytes "ip6" ∧ name ≠ bytes "a" ∧ name ≠ bytes "mx" := by decide
    obtain ⟨hIp4, hIp6, hA, hMx⟩ := hOthers mech.mechanism (by simpa using hMech)
    simp only [names, if_neg hIp4, if_neg hIp6, if_neg hA, if_neg hMx]
  have hReached {walk : Walk} (hWalk : Follows answer env expectedIpv4 expectedIpv6 e walk) :
      Follows answer env expectedIpv4 expectedIpv6 e { walk with reached := (domain, mech) :: walk.reached } := by
    refine ⟨hWalk.lookups, hWalk.visited, ?_⟩
    rw [List.any_cons, hNames, Bool.false_or]
    exact hWalk.allowed
  have hOthers : ∀ name ∈ [bytes "include", bytes "redirect"],
      name ≠ bytes "ip4" ∧ name ≠ bytes "ip6" ∧ name ≠ bytes "a" ∧ name ≠ bytes "mx" := by decide
  obtain ⟨hIp4, hIp6, hA, hMx⟩ := hOthers mech.mechanism (by simpa using hMech)
  simp only [Dns.matchMechanism, Walk.mechanism, hIp4, hIp6, hA, hMx, false_and, if_false]
  by_cases hDomain : mech.domain = []
  · simp only [hDomain, if_true, ite_self]
    exact ⟨hReached, fun hNone => absurd hNone (by decide), id⟩
  simp only [if_neg hDomain]
  have hFollowed (e' : Evaluation) := h.followRecords mech.domain
    (((e'.query (Surroundings.steady answer env) mech.domain .txt).1).values .txt) false
    (e := (e'.query (Surroundings.steady answer env) mech.domain .txt).2) (fun hFalse => absurd hFalse Bool.false_ne_true)
  by_cases hIsInclude : mech.mechanism = bytes "include"
  · simp only [if_pos hIsInclude]
    by_cases hVisited : mech.domain ∈ e.visitedIncludes
    · simp only [if_pos hVisited]
      refine ⟨fun {walk} hWalk => ?_, fun hNone => absurd hNone (by decide), id⟩
      rw [if_pos (hWalk.visited ▸ hVisited)]
      exact (hReached hWalk).frame ⟨rfl, rfl, rfl⟩
    · simp only [if_neg hVisited, isSome_ite]
      obtain ⟨hWalks, hAllowed, hKeeps⟩ := hFollowed (e.visit mech.domain)
      refine ⟨fun {walk} hWalk => ?_, hAllowed, hKeeps⟩
      rw [if_neg (hWalk.visited ▸ hVisited)]
      refine hWalks ⟨hWalk.lookups, ?_, (hReached hWalk).allowed⟩
      exact congrArg (mech.domain :: ·) hWalk.visited
  · have hIsRedirect := hMech.resolve_left hIsInclude
    simp only [if_neg hIsInclude, if_pos hIsRedirect, isSome_ite]
    obtain ⟨hWalks, hAllowed, hKeeps⟩ := hFollowed e
    exact ⟨fun hWalk => hWalks ((hReached hWalk).frame ⟨rfl, rfl, rfl⟩), hAllowed, hKeeps⟩

theorem Tracks.evaluateMechanism (h : Tracks recur walkRecur answer env expectedIpv4 expectedIpv6) (domain : Bytes)
    (mech : SpfMechanism) {e : Evaluation} :
    (∀ {walk}, Follows answer env expectedIpv4 expectedIpv6 e walk →
      Follows answer env expectedIpv4 expectedIpv6
        (evaluateMechanism (Surroundings.steady answer env) expectedIpv4 expectedIpv6 recur domain mech e)
        (Walk.mechanism answer walkRecur domain mech walk)) ∧
    (e.result.expectedIpAllowed = true →
      (evaluateMechanism (Surroundings.steady answer env) expectedIpv4 expectedIpv6 recur domain
        mech e).result.expectedIpAllowed = true) := by
  obtain ⟨hLookups, hVisited, hFlag⟩ := evaluateMechanism_progress (Surroundings.steady answer env) expectedIpv4
    expectedIpv6 domain mech e
  by_cases hMech : mech.mechanism = bytes "include" ∨ mech.mechanism = bytes "redirect"
  · obtain ⟨hWalks, hAllowed, hKeeps⟩ := h.matchMechanism domain hMech (e := e)
    constructor
    · intro walk hWalk
      refine ⟨hLookups.trans (hWalks hWalk).lookups, hVisited.trans (hWalks hWalk).visited, ?_⟩
      rw [hFlag, ← (hWalks hWalk).allowed]
      exact Bool.or_eq_right_iff_imp.mpr hAllowed
    · intro hBefore
      rw [hFlag, hKeeps hBefore, Bool.or_true]
  · obtain ⟨hInclude, hRedirect⟩ := not_or.mp hMech
    obtain ⟨hSame, hSome⟩ := matchMechanism_address answer env expectedIpv4 expectedIpv6 domain hInclude hRedirect e
    constructor
    · intro walk hWalk
      have hReached : Walk.mechanism answer walkRecur domain mech walk =
          { walk with reached := (domain, mech) :: walk.reached } := by
        simp only [Walk.mechanism, if_neg hInclude, if_neg hRedirect, ite_self]
      rw [hReached]
      refine ⟨(hLookups.trans hSame.lookups).trans hWalk.lookups, (hVisited.trans hSame.visited).trans hWalk.visited, ?_⟩
      rw [hFlag, hSome, hSame.allowed, hWalk.allowed, List.any_cons]
    · intro hBefore
      rw [hFlag, hSame.allowed, hBefore, Bool.or_true]

/-- The loop over the mechanisms: it says yes where it came to its end with the flag set. -/
theorem Tracks.evaluateLoop (h : Tracks recur walkRecur answer env expectedIpv4 expectedIpv6) (domain : Bytes)
    (mechs : List SpfMechanism) {e : Evaluation} {walk : Walk} (hWalk : Follows answer env expectedIpv4 expectedIpv6 e walk) :
    Follows answer env expectedIpv4 expectedIpv6
        (evaluateLoop (Surroundings.steady answer env) expectedIpv4 expectedIpv6 recur domain mechs e).2
        (Walk.mechanisms answer walkRecur domain mechs walk).2 ∧
      (evaluateLoop (Surroundings.steady answer env) expectedIpv4 expectedIpv6 recur domain mechs e).1 =
        ((Walk.mechanisms answer walkRecur domain mechs walk).1 &&
          (evaluateLoop (Surroundings.steady answer env) expectedIpv4 expectedIpv6 recur domain
            mechs e).2.result.expectedIpAllowed) := by
  induction mechs generalizing e walk with
  | nil => exact ⟨hWalk, rfl⟩
  | cons mech rest ih =>
      simp only [Dns.evaluateLoop, Walk.mechanisms]
      by_cases hConsumes : mech.consumesLookup = true
      · have hCounted : Follows answer env expectedIpv4 expectedIpv6 e.countLookup
            { walk with lookups := walk.lookups + 1 } :=
          ⟨congrArg (· + 1) hWalk.lookups, hWalk.visited, hWalk.allowed⟩
        have hCount : e.countLookup.result.lookupCount = walk.lookups + 1 := hCounted.lookups
        simp only [hConsumes, if_true, true_and, hCount]
        by_cases hLimit : walk.lookups + 1 > maxLookups
        · simp only [if_pos hLimit]
          exact ⟨hCounted.frame ⟨rfl, rfl, rfl⟩, rfl⟩
        · simp only [if_neg hLimit]
          exact ih ((h.evaluateMechanism domain mech).1 (hCounted.frame ⟨rfl, rfl, rfl⟩))
      · simp only [hConsumes, false_and, if_false, Bool.false_eq_true]
        exact ih ((h.evaluateMechanism domain mech).1 hWalk)

theorem Tracks.evaluateLoop_keeps (h : Tracks recur walkRecur answer env expectedIpv4 expectedIpv6) (domain : Bytes)
    (mechs : List SpfMechanism) {e : Evaluation} :
    ((Dns.evaluateLoop (Surroundings.steady answer env) expectedIpv4 expectedIpv6 recur domain mechs e).1 = true →
      (Dns.evaluateLoop (Surroundings.steady answer env) expectedIpv4 expectedIpv6 recur domain
        mechs e).2.result.expectedIpAllowed = true) ∧
    (e.result.expectedIpAllowed = true →
      (Dns.evaluateLoop (Surroundings.steady answer env) expectedIpv4 expectedIpv6 recur domain
        mechs e).2.result.expectedIpAllowed = true) := by
  induction mechs generalizing e with
  | nil => exact ⟨id, id⟩
  | cons mech rest ih =>
      simp only [Dns.evaluateLoop]
      split
      · split
        · exact ⟨fun hFalse => absurd hFalse Bool.false_ne_true, id⟩
        · exact ⟨ih.1, fun hBefore => ih.2 ((h.evaluateMechanism domain mech).2 hBefore)⟩
      · exact ⟨ih.1, fun hBefore => ih.2 ((h.evaluateMechanism domain mech).2 hBefore)⟩

/-- Each level of the recursion is one of the walk. -/
theorem tracks_evaluateMechanisms (levels depth : Nat) (h : depth + levels = maxDepth + 1) :
    Tracks (evaluateMechanisms (Surroundings.steady answer env) expectedIpv4 expectedIpv6 depth)
      (Walk.below answer levels) answer env expectedIpv4 expectedIpv6 := by
  induction levels generalizing depth with
  | zero =>
      have hDepth : depth > maxDepth := by omega
      refine ⟨fun {domain mechs e walk} hWalk => ?_, fun {domain mechs e} hYes => ?_, fun {domain mechs e} hBefore => ?_⟩
      · rw [evaluateMechanisms, dif_pos hDepth]
        exact hWalk.frame ⟨rfl, rfl, rfl⟩
      · rw [evaluateMechanisms, dif_pos hDepth] at hYes
        cases hYes
      · rw [evaluateMechanisms, dif_pos hDepth]
        exact hBefore
  | succ levels ih =>
      have hDepth : ¬ depth > maxDepth := by omega
      have hInner := ih (depth + 1) (by omega)
      refine ⟨fun {domain mechs e walk} hWalk => ?_, fun {domain mechs e} => ?_, fun {domain mechs e} hBefore => ?_⟩
      · have hEntered : Follows answer env expectedIpv4 expectedIpv6 (e.push (.entered depth)) walk :=
          hWalk.frame ⟨rfl, rfl, rfl⟩
        rw [evaluateMechanisms, dif_neg hDepth]
        exact (hInner.evaluateLoop domain mechs hEntered).1
      · rw [evaluateMechanisms, dif_neg hDepth]
        exact (hInner.evaluateLoop_keeps domain mechs).1
      · rw [evaluateMechanisms, dif_neg hDepth]
        exact (hInner.evaluateLoop_keeps domain mechs).2 hBefore

/-- The evaluation of a record says yes where the walk through it names the address. -/
theorem evaluateMechanisms_eq_true_iff (domain : Bytes) (mechs : List SpfMechanism) {e : Evaluation}
    (hStart : Follows answer env expectedIpv4 expectedIpv6 e {}) :
    (evaluateMechanisms (Surroundings.steady answer env) expectedIpv4 expectedIpv6 0 domain mechs e).1 = true ↔
      (Walk.mechanisms answer (Walk.below answer maxDepth) domain mechs {}).1 = true ∧
        ∃ entry ∈ (Walk.mechanisms answer (Walk.below answer maxDepth) domain mechs {}).2.reached,
          names answer env expectedIpv4 expectedIpv6 entry = true := by
  have hInner : Tracks (evaluateMechanisms (Surroundings.steady answer env) expectedIpv4 expectedIpv6 1)
      (Walk.below answer maxDepth) answer env expectedIpv4 expectedIpv6 := tracks_evaluateMechanisms maxDepth 1 (by decide)
  obtain ⟨hFollows, hVerdict⟩ := hInner.evaluateLoop domain mechs (e := e.push (.entered 0)) (hStart.frame ⟨rfl, rfl, rfl⟩)
  rw [evaluateMechanisms, dif_neg (by decide), hVerdict, hFollows.allowed, Bool.and_eq_true, List.any_eq_true]

/-- The analysis allows the address where the walk from the record names it. -/
theorem allowed_iff (record domain : Bytes) :
    (analyze (Surroundings.steady answer env) expectedIpv4 expectedIpv6 record domain).result.expectedIpAllowed = true ↔
      Named answer env expectedIpv4 expectedIpv6 record domain := by
  unfold analyze Named
  dsimp only
  by_cases hEmpty : record = []
  · subst hEmpty
    simp [validateSyntax]
  rw [if_neg hEmpty]
  cases hSyntax : validateSyntax record with
  | some error => simp
  | none =>
      have hParsed : (parseMechanisms record).2 = [] := by
        rw [parseMechanisms, hSyntax]
      dsimp only
      rw [if_neg fun h => h.2 hParsed]
      by_cases hGiven : expectedIpv4 = [] ∧ expectedIpv6 = []
      · rw [if_pos hGiven]
        simp [hGiven]
      · rw [if_neg hGiven]
        have hSome : expectedIpv4 ≠ [] ∨ expectedIpv6 ≠ [] := by tauto
        simp only [hSome, true_and]
        exact evaluateMechanisms_eq_true_iff domain _ ⟨rfl, rfl, rfl⟩

end Walk

/-- An allowed address passes where no mechanism on the walk names it, and otherwise
where the first match passes: nothing ties the flag to the qualifiers. -/
theorem allowed_passes_iff (env : Surroundings Event) (resolver : Resolver)
    (expectedIpv4 expectedIpv6 record domain : Bytes) :
    ((analyze (Surroundings.steady resolver.answer env) expectedIpv4 expectedIpv6 record
        domain).result.expectedIpAllowed = true →
      verdictOf env resolver expectedIpv4 expectedIpv6 record domain = .matched .plus) ↔
    ¬ Named resolver.answer env expectedIpv4 expectedIpv6 record domain ∨
      verdictOf env resolver expectedIpv4 expectedIpv6 record domain = .matched .plus := by
  rw [allowed_iff]
  exact imp_iff_not_or

def sampleSurroundings : Surroundings Event where
  check _ _ _ := ⟨false, []⟩
  inetPton4 text := if text = bytes "192.0.2.1" then some 0xC0000201 else none
  inetPton6 _ := none

def sampleResolver : Resolver where
  answer _ _ := ⟨true, []⟩
  expand _ spec := spec
  validated := []

/-- The mechanisms of a text that is not blank. -/
theorem readMechanisms_cons (text rest : Bytes) (c : UInt8) (h : text.dropWhile isBlank = c :: rest) :
    readMechanisms text = (readMechanism (c :: rest)).1 :: readMechanisms (readMechanism (c :: rest)).2 := by
  rw [readMechanisms]
  split
  · next hNone => cases hNone.symm.trans h
  · next hSome =>
    cases hSome.symm.trans h
    rfl

theorem readMechanisms_blank {text : Bytes} (h : text.dropWhile isBlank = []) : readMechanisms text = [] := by
  rw [readMechanisms]
  split
  · rfl
  · next hSome => cases hSome.symm.trans h

/-- A mechanism that refuses the address. -/
theorem allowed_refused :
    (analyze (Surroundings.steady sampleResolver.answer sampleSurroundings) (bytes "192.0.2.1") []
        (bytes "v=spf1 -ip4:192.0.2.1 ~all") (bytes "a.org")).result.expectedIpAllowed = true ∧
      verdictOf sampleSurroundings sampleResolver (bytes "192.0.2.1") [] (bytes "v=spf1 -ip4:192.0.2.1 ~all")
        (bytes "a.org") = .matched .minus := by
  have hParsed : (parseMechanisms (bytes "v=spf1 -ip4:192.0.2.1 ~all")).1 =
      [⟨.minus, bytes "ip4", bytes "192.0.2.1"⟩, ⟨.tilde, bytes "all", []⟩] := by
    have hSyntax : validateSyntax (bytes "v=spf1 -ip4:192.0.2.1 ~all") = none := by decide
    rw [parseMechanisms, hSyntax]
    dsimp only
    rw [readMechanisms_cons _ (bytes "ip4:192.0.2.1 ~all") (ascii '-') (by decide),
      readMechanisms_cons _ (bytes "all") (ascii '~') (by decide), readMechanisms_blank (by decide)]
    decide
  refine ⟨?_, by decide⟩
  rw [allowed_iff, Named, walkFrom, hParsed]
  decide

end ContainerCP.Dns
