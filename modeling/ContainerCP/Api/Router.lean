import ContainerCP.Api.Request
import Mathlib.Data.List.Find

/-! `Router`: which of the registered handlers a request gets. -/
namespace ContainerCP.Api

structure Route (Handler : Type) where
  method : Bytes
  path : Bytes
  handler : Handler
  isPrefix : Bool
  deriving DecidableEq

/-- The routes, in the order of their registration. -/
abbrev Router (Handler : Type) := List (Route Handler)

namespace Router

variable {Handler : Type}

def add (router : Router Handler) (method path : Bytes) (handler : Handler) : Router Handler :=
  router ++ [⟨method, path, handler, false⟩]

def addPrefix (router : Router Handler) (method path : Bytes) (handler : Handler) : Router Handler :=
  router ++ [⟨method, path, handler, true⟩]

/-- A prefix route that covers the request. -/
def covers (method path : Bytes) (route : Route Handler) : Bool :=
  route.method = method && route.isPrefix && route.path.isPrefixOf path

/-- One turn of the loop over the prefixes that cover the request: a longer one
replaces the best so far. -/
def longer (best : Option (Route Handler)) (route : Route Handler) : Option (Route Handler) :=
  match best with
  | none => some route
  | some longest => if longest.path.length < route.path.length then some route else some longest

/-- The route that `dispatch` takes: an exact one, or the best prefix. -/
def select (router : Router Handler) (method path : Bytes) : Option (Route Handler) :=
  match router.find? fun route => route.method = method && !route.isPrefix && route.path = path with
  | some route => some route
  | none => (router.filter (covers method path)).foldl longer none

def notFound : Response where
  statusCode := 404
  body := bytes "\x7b\"success\":false,\"error\":\"Not found\"\x7d"

/-- `dispatch`, where a handler answers in a monad. -/
def dispatch {m : Type → Type} [Monad m] (router : Router (Request → m Response)) (request : Request) : m Response :=
  match router.select request.method request.path with
  | some route => route.handler request
  | none => pure notFound

end Router

/-! ## What a pattern stands for -/

namespace Route

variable {Handler : Type}

/-- A request with this method and path is one that the pattern of the route covers. -/
def Matches (route : Route Handler) (method path : Bytes) : Prop :=
  route.method = method ∧ if route.isPrefix then route.path <+: path else route.path = path

/-- The pattern of one route is more specific than that of another. -/
def Outranks (route other : Route Handler) : Prop :=
  other.isPrefix = true ∧ (route.isPrefix = true → other.path.length < route.path.length)

/-- A request that no more specific pattern of the router covers. -/
def Resource (router : Router Handler) (route : Route Handler) (method path : Bytes) : Prop :=
  route.Matches method path ∧ ∀ other ∈ router, other.Matches method path → ¬ other.Outranks route

/-- What a registration says apart from its handler. -/
def pattern (route : Route Handler) : Bytes × Bytes × Bool := (route.method, route.path, route.isPrefix)

/-- Two patterns that cover a request are the same unless one is more specific. -/
theorem pattern_eq_of_matches {route other : Route Handler} {method path : Bytes} (h : route.Matches method path)
    (hOther : other.Matches method path) (hRank : ¬ other.Outranks route) (hRank' : ¬ route.Outranks other) :
    other.pattern = route.pattern := by
  obtain ⟨hMethod, hPath⟩ := h
  obtain ⟨hMethod', hPath'⟩ := hOther
  have hSame : other.path = route.path ∧ other.isPrefix = route.isPrefix := by
    cases hPrefix : route.isPrefix with
    | false =>
        cases hPrefix' : other.isPrefix with
        | false =>
            simp only [hPrefix, hPrefix', Bool.false_eq_true, if_false] at hPath hPath'
            exact ⟨hPath'.trans hPath.symm, rfl⟩
        | true => exact absurd ⟨hPrefix', by simp [hPrefix]⟩ hRank'
    | true =>
        cases hPrefix' : other.isPrefix with
        | false => exact absurd ⟨hPrefix, by simp [hPrefix']⟩ hRank
        | true =>
            simp only [hPrefix, hPrefix', if_true] at hPath hPath'
            have hLe : other.path.length ≤ route.path.length :=
              Nat.le_of_not_lt fun hLt => hRank ⟨hPrefix, fun _ => hLt⟩
            have hGe : route.path.length ≤ other.path.length :=
              Nat.le_of_not_lt fun hLt => hRank' ⟨hPrefix', fun _ => hLt⟩
            have hFront := List.prefix_of_prefix_length_le hPath' hPath hLe
            exact ⟨hFront.eq_of_length (Nat.le_antisymm hLe hGe), rfl⟩
  rw [pattern, pattern, hMethod, hMethod', hSame.1, hSame.2]

theorem matches_of_pattern {route other : Route Handler} {method path : Bytes} (h : other.pattern = route.pattern)
    (hMatch : route.Matches method path) : other.Matches method path := by
  obtain ⟨hMethod, hPath, hPrefix⟩ : other.method = route.method ∧ other.path = route.path ∧
      other.isPrefix = route.isPrefix := by simpa [pattern] using h
  rwa [Matches, hMethod, hPath, hPrefix]

end Route

namespace Router

variable {Handler : Type} {method path : Bytes}

/-- A best prefix of the greatest length stays the best. -/
theorem foldl_longer_of_greatest {routes : List (Route Handler)} {best : Route Handler}
    (h : ∀ route ∈ routes, route.path.length ≤ best.path.length) : routes.foldl longer (some best) = some best := by
  induction routes with
  | nil => rfl
  | cons route rest ih =>
      have hStep : longer (some best) route = some best := if_neg (Nat.not_lt.mpr (h route List.mem_cons_self))
      rw [List.foldl_cons, hStep]
      exact ih fun other hOther => h other (List.mem_cons_of_mem _ hOther)

/-- The loop over the prefixes finds the first one of the greatest length. -/
theorem foldl_longer {routes : List (Route Handler)} {best : Option (Route Handler)} {greatest : Nat}
    (h : ∀ route ∈ routes, route.path.length ≤ greatest) (hBest : ∀ route ∈ best, route.path.length < greatest)
    (hSome : ∃ route ∈ routes, route.path.length = greatest) :
    routes.foldl longer best = routes.find? (·.path.length = greatest) := by
  induction routes generalizing best with
  | nil =>
      obtain ⟨route, hMem, -⟩ := hSome
      cases hMem
  | cons route rest ih =>
      have hRest : ∀ other ∈ rest, other.path.length ≤ greatest := fun other hOther =>
        h other (List.mem_cons_of_mem _ hOther)
      rw [List.foldl_cons]
      by_cases hLength : route.path.length = greatest
      · have hStep : longer best route = some route := by
          cases best with
          | none => rfl
          | some longest => exact if_pos (hLength ▸ hBest longest rfl)
        rw [hStep, foldl_longer_of_greatest (hLength ▸ hRest), List.find?_cons_of_pos (by simpa using hLength)]
      · have hLt : route.path.length < greatest := Nat.lt_of_le_of_ne (h route List.mem_cons_self) hLength
        rw [List.find?_cons_of_neg (by simpa using hLength)]
        apply ih hRest
        · cases best with
          | none => simpa [longer] using hLt
          | some longest =>
              rw [longer]
              split
              · simpa using hLt
              · exact hBest
        · obtain ⟨other, hMem, hOther⟩ := hSome
          rcases List.mem_cons.mp hMem with rfl | hMem
          · exact absurd hOther hLength
          · exact ⟨other, hMem, hOther⟩

/-- The loop ends with a route of the greatest length. -/
theorem foldl_longer_greatest {routes : List (Route Handler)} {best : Option (Route Handler)} {route : Route Handler}
    (h : routes.foldl longer best = some route) :
    (route ∈ routes ∨ best = some route) ∧ (∀ other ∈ routes, other.path.length ≤ route.path.length) ∧
      ∀ other ∈ best, other.path.length ≤ route.path.length := by
  induction routes generalizing best with
  | nil =>
      rw [List.foldl_nil] at h
      subst h
      refine ⟨Or.inr rfl, fun other hOther => absurd hOther List.not_mem_nil, ?_⟩
      intro other hOther
      rw [Option.some.inj hOther]
  | cons first rest ih =>
      obtain ⟨hMem, hRest, hBest⟩ := ih h
      -- the first turn leaves the longer of the two
      have hTurn : first.path.length ≤ route.path.length ∧ (∀ other ∈ best, other.path.length ≤ route.path.length) ∧
          (longer best first = some route → route = first ∨ best = some route) := by
        cases best with
        | none =>
            refine ⟨hBest first rfl, by simp, fun hEq => Or.inl (Option.some.inj hEq).symm⟩
        | some longest =>
            by_cases hLength : longest.path.length < first.path.length
            · have hStep : longer (some longest) first = some first := if_pos hLength
              have hFirst := hBest first hStep
              refine ⟨hFirst, ?_, fun hEq => Or.inl (Option.some.inj (hStep.symm.trans hEq)).symm⟩
              intro other hOther
              rw [← Option.some.inj hOther]
              exact (Nat.le_of_lt hLength).trans hFirst
            · have hStep : longer (some longest) first = some longest := if_neg hLength
              have hLongest := hBest longest hStep
              refine ⟨(Nat.le_of_not_lt hLength).trans hLongest, ?_, fun hEq => Or.inr (hStep.symm.trans hEq)⟩
              intro other hOther
              rwa [← Option.some.inj hOther]
      refine ⟨?_, ?_, hTurn.2.1⟩
      · rcases hMem with hMem | hEq
        · exact Or.inl (List.mem_cons_of_mem _ hMem)
        · rcases hTurn.2.2 hEq with rfl | hBefore
          · exact Or.inl List.mem_cons_self
          · exact Or.inr hBefore
      · intro other hOther
        rcases List.mem_cons.mp hOther with rfl | hOther
        · exact hTurn.1
        · exact hRest other hOther

theorem covers_iff {route : Route Handler} :
    covers method path route = true ↔ route.isPrefix = true ∧ route.Matches method path := by
  simp only [covers, Bool.and_eq_true, decide_eq_true_eq, List.isPrefixOf_iff_prefix]
  constructor
  · rintro ⟨⟨hMethod, hPrefix⟩, hPath⟩
    exact ⟨hPrefix, hMethod, by rwa [if_pos hPrefix]⟩
  · rintro ⟨hPrefix, hMethod, hPath⟩
    rw [if_pos hPrefix] at hPath
    exact ⟨⟨hMethod, hPrefix⟩, hPath⟩

theorem exact_iff {route : Route Handler} :
    (route.method = method && !route.isPrefix && route.path = path) = true ↔
      route.isPrefix = false ∧ route.Matches method path := by
  simp only [Bool.and_eq_true, decide_eq_true_eq, Bool.not_eq_true']
  constructor
  · rintro ⟨⟨hMethod, hExact⟩, hPath⟩
    exact ⟨hExact, hMethod, by simpa [hExact] using hPath⟩
  · rintro ⟨hExact, hMethod, hPath⟩
    exact ⟨⟨hMethod, hExact⟩, by simpa [hExact] using hPath⟩

/-- The route that gets the resources of a pattern is the first one registered with
that pattern. -/
theorem select_of_resource {router : Router Handler} {route : Route Handler} (hMem : route ∈ router)
    (h : route.Resource router method path) :
    router.select method path = router.find? fun other => decide (other.pattern = route.pattern) := by
  obtain ⟨hMatch, hRank⟩ := h
  have hPattern : ∀ other : Route Handler, other.pattern = route.pattern →
      other.isPrefix = route.isPrefix ∧ other.path = route.path ∧ other.Matches method path := by
    intro other hSame
    have hParts : other.method = route.method ∧ other.path = route.path ∧ other.isPrefix = route.isPrefix := by
      simpa [Route.pattern] using hSame
    exact ⟨hParts.2.2, hParts.2.1, Route.matches_of_pattern hSame hMatch⟩
  cases hPrefix : route.isPrefix with
  | false =>
      have hExact : router.find? (fun other => other.method = method && !other.isPrefix && other.path = path) =
          router.find? fun other => decide (other.pattern = route.pattern) := by
        apply List.find?_congr
        intro other hOther
        rw [Bool.eq_iff_iff, exact_iff, decide_eq_true_eq]
        constructor
        · rintro ⟨hFalse, hMatch'⟩
          apply Route.pattern_eq_of_matches hMatch hMatch' (hRank other hOther hMatch')
          exact fun hOutranks => Bool.false_ne_true (hFalse.symm.trans hOutranks.1)
        · intro hSame
          exact ⟨(hPattern other hSame).1.trans hPrefix, (hPattern other hSame).2.2⟩
      obtain ⟨found, hFound⟩ : ∃ found, router.find? (fun other => decide (other.pattern = route.pattern)) = some found := by
        rw [← Option.isSome_iff_exists, List.find?_isSome]
        exact ⟨route, hMem, decide_eq_true rfl⟩
      rw [select, hExact, hFound]
  | true =>
      have hExact : router.find? (fun other => other.method = method && !other.isPrefix && other.path = path) = none := by
        rw [List.find?_eq_none]
        intro other hOther hCovers
        obtain ⟨hFalse, hMatch'⟩ := exact_iff.mp hCovers
        exact hRank other hOther hMatch' ⟨hPrefix, fun hTrue => absurd (hFalse.symm.trans hTrue) Bool.false_ne_true⟩
      have hLe : ∀ other ∈ router.filter (covers method path), other.path.length ≤ route.path.length := by
        intro other hOther
        obtain ⟨hOther, hCovers⟩ := List.mem_filter.mp hOther
        exact Nat.le_of_not_lt fun hLt => hRank other hOther (covers_iff.mp hCovers).2 ⟨hPrefix, fun _ => hLt⟩
      have hSome : ∃ other ∈ router.filter (covers method path), other.path.length = route.path.length :=
        ⟨route, List.mem_filter.mpr ⟨hMem, covers_iff.mpr ⟨hPrefix, hMatch⟩⟩, rfl⟩
      rw [select, hExact]
      dsimp only
      rw [foldl_longer hLe (by simp) hSome, List.find?_filter]
      apply List.find?_congr
      intro other hOther
      rw [Bool.eq_iff_iff, decide_eq_true_eq, decide_eq_true_eq, decide_eq_true_eq, covers_iff]
      constructor
      · rintro ⟨⟨-, hMatch'⟩, hLength⟩
        apply Route.pattern_eq_of_matches hMatch hMatch' (hRank other hOther hMatch')
        exact fun hOutranks => Nat.lt_irrefl _ (hLength ▸ hOutranks.2 hPrefix)
      · intro hSame
        obtain ⟨hPrefix', hPath, hMatch'⟩ := hPattern other hSame
        exact ⟨⟨hPrefix'.trans hPrefix, hMatch'⟩, congrArg List.length hPath⟩

/-- What a route is taken for is a resource of its pattern. -/
theorem resource_of_select {router : Router Handler} {route : Route Handler}
    (h : router.select method path = some route) : route ∈ router ∧ route.Resource router method path := by
  rw [select] at h
  split at h
  · next found hFound =>
    obtain rfl := Option.some.inj h
    have hTaken := List.find?_some hFound
    obtain ⟨hExact, hMatch⟩ := exact_iff.mp hTaken
    refine ⟨List.mem_of_find?_eq_some hFound, hMatch, ?_⟩
    intro other _ _ hRank
    exact Bool.false_ne_true (hExact.symm.trans hRank.1)
  · next hNone =>
    obtain ⟨hMem, hGreatest, -⟩ := foldl_longer_greatest h
    have hCovered := hMem.resolve_right (by simp)
    obtain ⟨hMem, hCovers⟩ := List.mem_filter.mp hCovered
    refine ⟨hMem, (covers_iff.mp hCovers).2, ?_⟩
    intro other hOther hMatch hRank
    cases hPrefix : other.isPrefix with
    | false => exact List.find?_eq_none.mp hNone other hOther (exact_iff.mpr ⟨hPrefix, hMatch⟩)
    | true =>
        have hLe := hGreatest other (List.mem_filter.mpr ⟨hOther, covers_iff.mpr ⟨hPrefix, hMatch⟩⟩)
        exact absurd (hRank.2 hPrefix) (Nat.not_lt.mpr hLe)

/-- A registration is the one that gets all the resources of its pattern, if and only
if it is the first with that pattern. -/
theorem serves_iff {router : Router Handler} {route : Route Handler} (hMem : route ∈ router)
    (hResource : ∃ method path, route.Resource router method path) :
    (∀ method path, route.Resource router method path → router.select method path = some route) ↔
      router.find? (fun other => decide (other.pattern = route.pattern)) = some route := by
  constructor
  · intro h
    obtain ⟨method, path, hResource⟩ := hResource
    rw [← select_of_resource hMem hResource]
    exact h method path hResource
  · intro h method path hResource
    rw [select_of_resource hMem hResource, h]

/-- Every pattern has a resource, unless an exact one of the same text hides it. -/
theorem exists_resource {router : Router Handler} {route : Route Handler}
    (h : ∀ other ∈ router, other.method = route.method → other.path = route.path → other.isPrefix = route.isPrefix) :
    route.Resource router route.method route.path := by
  refine ⟨⟨rfl, by split <;> simp⟩, ?_⟩
  rintro other hOther ⟨hMethod, hPath⟩ ⟨hPrefix, hLonger⟩
  cases hPrefix' : other.isPrefix with
  | false =>
      simp only [hPrefix', Bool.false_eq_true, if_false] at hPath
      exact absurd ((h other hOther hMethod hPath).trans hPrefix) (by simp [hPrefix'])
  | true =>
      simp only [hPrefix', if_true] at hPath
      exact absurd (hLonger hPrefix') (Nat.not_lt.mpr hPath.length_le)

end Router

end ContainerCP.Api
