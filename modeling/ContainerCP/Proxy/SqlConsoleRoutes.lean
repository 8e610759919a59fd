import ContainerCP.Proxy.NginxProxyProvider
import Mathlib.Data.List.Nodup

/-! The routes of the SQL console in the config of the panel, as a set. -/
namespace ContainerCP.Proxy

/-! ## Lines that are no markers -/

/-- A line that ends a directive, or opens or closes a block. -/
structure Closed (line : Bytes) : Prop where
  one : newline ∉ line
  last : ∃ c ∈ bytes ";\x7b\x7d", line.getLast? = some c

theorem closed_text {text : Bytes} (h : newline ∉ text ∧ ∃ c ∈ bytes ";\x7b\x7d", text.getLast? = some c) : Closed text :=
  ⟨h.1, h.2⟩

instance (line : Bytes) : Decidable (Closed line) :=
  decidable_of_iff (newline ∉ line ∧ ∃ c ∈ bytes ";\x7b\x7d", line.getLast? = some c) ⟨closed_text, fun h => ⟨h.1, h.2⟩⟩

theorem closed_bytes {chars : List Char} (h : Closed (chars.map ascii)) : Closed (bytes (String.ofList chars)) := by
  rwa [bytes_ofList]

theorem closed_append {front tail : Bytes} (hFront : newline ∉ front) (hTail : Closed tail) : Closed (front ++ tail) where
  one := fun hMem => (List.mem_append.mp hMem).elim hFront hTail.one
  last := by
    obtain ⟨c, hc, hLast⟩ := hTail.last
    exact ⟨c, hc, by rw [List.getLast?_append, hLast]; rfl⟩

/-- The end of a marker ends no line of these. -/
theorem Closed.not_suffix {line body : Bytes} {c : UInt8} (h : Closed line) (hBody : body.getLast? = some c)
    (hMarker : c ∉ bytes ";\x7b\x7d") : ¬body <:+ line := by
  rintro ⟨front, rfl⟩
  obtain ⟨d, hd, hLast⟩ := h.last
  rw [List.getLast?_append, hBody] at hLast
  exact hMarker (Option.some.inj hLast ▸ hd)

theorem routeBegin_getLast? (launchId : Bytes) : (routeBegin launchId).getLast? = some (ascii 'n') := by
  have hTail : (bytes " begin").getLast? = some (ascii 'n') := by decide
  rw [routeBegin, List.getLast?_append, hTail]
  rfl

theorem routeEnd_getLast? (launchId : Bytes) : (routeEnd launchId).getLast? = some (ascii 'd') := by
  have hTail : (bytes " end").getLast? = some (ascii 'd') := by decide
  rw [routeEnd, List.getLast?_append, hTail]
  rfl

theorem newline_notMem_launchId {launchId : Bytes} (h : validLaunchId launchId = true) : newline ∉ launchId := by
  rw [validLaunchId, Bool.and_eq_true, List.all_eq_true] at h
  intro hMem
  exact absurd (h.2 _ hMem) (by decide)

theorem newline_notMem_routeBegin {launchId : Bytes} (h : validLaunchId launchId = true) :
    newline ∉ routeBegin launchId := by
  have hFront : newline ∉ bytes "    # containercp-sql-console-route " := notMem_bytes (by decide)
  have hTail : newline ∉ bytes " begin" := notMem_bytes (by decide)
  simp [routeBegin, hFront, hTail, newline_notMem_launchId h]

theorem newline_notMem_routeEnd {launchId : Bytes} (h : validLaunchId launchId = true) :
    newline ∉ routeEnd launchId := by
  have hFront : newline ∉ bytes "    # containercp-sql-console-route " := notMem_bytes (by decide)
  have hTail : newline ∉ bytes " end" := notMem_bytes (by decide)
  simp [routeEnd, hFront, hTail, newline_notMem_launchId h]

/-- The first marker of a route ends the first line of that route only. -/
theorem routeBegin_suffix_iff {launchId other : Bytes} (h : validLaunchId launchId = true)
    (hOther : validLaunchId other = true) : routeBegin launchId <:+ routeBegin other ↔ launchId = other := by
  constructor
  · intro hSuffix
    have hLength : launchId.length = other.length := by
      rw [validLaunchId, Bool.and_eq_true, decide_eq_true_eq] at h hOther
      rw [h.1, hOther.1]
    have hEq := hSuffix.eq_of_length (by simp [routeBegin, hLength])
    rw [routeBegin, routeBegin, List.append_left_inj, List.append_right_inj] at hEq
    exact hEq
  · rintro rfl
    exact List.suffix_refl _

/-- No first marker ends the line that closes a server block. -/
theorem routeBegin_not_suffix_close (launchId : Bytes) : ¬routeBegin launchId <:+ bytes "\x7d" := by
  intro hSuffix
  have hLength := hSuffix.length_le
  have hMarker : (bytes "\x7d").length = 1 ∧ (bytes " begin").length = 6 := by decide
  rw [routeBegin, List.length_append, List.length_append, hMarker.1, hMarker.2] at hLength
  omega

/-! ## Upstreams -/

theorem mem_of_mem_normalizeUpstream {raw : Bytes} {c : UInt8} (h : c ∈ normalizeUpstream raw) : c ∈ raw := by
  have hDrop := List.dropWhile_suffix _ |>.subset ((List.rdropWhile_prefix _ _).subset h)
  cases hCut : cutAtText (bytes "://") raw with
  | none => simpa [hCut] using hDrop
  | some cut =>
      rw [hCut] at hDrop
      rw [cutAtText_eq_some hCut]
      exact List.mem_append_right _ (List.mem_append_right _ hDrop)

theorem newline_notMem_decimal (n : Nat) : newline ∉ decimal n := not_mem_decimal (by decide)

/-- A line with a value in it. -/
theorem closed_value {front tail : List Char} {value : Bytes} (hValue : newline ∉ value)
    (hFront : newline ∉ front.map ascii) (hTail : Closed (tail.map ascii)) :
    Closed (bytes (String.ofList front) ++ value ++ bytes (String.ofList tail)) := by
  rw [bytes_ofList, bytes_ofList]
  exact closed_append (by simp [hFront, hValue]) hTail

/-- The lines between the markers. -/
theorem closed_routeLines {launchId adminer auth : Bytes} (hId : newline ∉ launchId) (hAdminer : newline ∉ adminer)
    (hAuth : newline ∉ auth) (databaseId : UInt64) :
    ∀ line ∈ routeLines launchId databaseId adminer auth, Closed line := by
  have hAuthLine : Closed (bytes "        proxy_pass http://" ++ auth ++ bytes "/sql-console/internal/auth/" ++ launchId ++
      bytes ";") := by
    have hFront : newline ∉ bytes "        proxy_pass http://" := notMem_bytes (by decide)
    have hMiddle : newline ∉ bytes "/sql-console/internal/auth/" := notMem_bytes (by decide)
    exact closed_append (by simp [hFront, hAuth, hMiddle, hId]) (closed_bytes (by decide))
  simp only [routeLines, List.forall_mem_cons]
  refine ⟨closed_bytes ?_, closed_bytes ?_, closed_bytes ?_, closed_bytes ?_, closed_bytes ?_, closed_bytes ?_,
    closed_value hId ?_ ?_, closed_bytes ?_, hAuthLine, closed_bytes ?_, closed_bytes ?_, closed_bytes ?_, closed_bytes ?_,
    closed_bytes ?_, closed_bytes ?_, closed_bytes ?_, closed_value hId ?_ ?_, closed_value hId ?_ ?_,
    closed_value hAdminer ?_ ?_, closed_value hId ?_ ?_, closed_bytes ?_, closed_bytes ?_, closed_value hId ?_ ?_,
    closed_value (newline_notMem_decimal _) ?_ ?_, closed_bytes ?_, closed_bytes ?_, closed_bytes ?_, closed_bytes ?_, by simp⟩
  all_goals decide

/-! ## Routes -/

/-- A route as it was asked for. -/
structure Route where
  launchId : Bytes
  databaseId : UInt64
  adminerUpstream : Bytes
  authUpstream : Bytes
  deriving DecidableEq

namespace Route

def block (route : Route) : Bytes :=
  sqlConsoleRouteLocations route.launchId route.databaseId route.adminerUpstream route.authUpstream

/-- The lines of the block. -/
def lines (route : Route) : List Bytes :=
  routeBegin route.launchId :: (routeLines route.launchId route.databaseId (normalizeUpstream route.adminerUpstream)
    (normalizeUpstream route.authUpstream) ++ [routeEnd route.launchId])

/-- A route that is not refused, with upstreams of one line. -/
structure Accepted (route : Route) : Prop where
  id : validLaunchId route.launchId = true
  block : route.block = unlines route.lines
  adminer : newline ∉ route.adminerUpstream
  auth : newline ∉ route.authUpstream

variable {route : Route}

theorem accepted_of_block (h : route.block ≠ []) (hAdminer : newline ∉ route.adminerUpstream)
    (hAuth : newline ∉ route.authUpstream) : route.Accepted := by
  have hBlock := h
  rw [block, sqlConsoleRouteLocations] at hBlock
  split at hBlock
  · exact absurd rfl hBlock
  · next hId =>
    simp only [Bool.or_eq_true, Bool.not_eq_true', decide_eq_true_eq, not_or, Bool.not_eq_false] at hId
    split at hBlock
    · exact absurd rfl hBlock
    · next hUpstreams =>
      refine ⟨hId.1, ?_, hAdminer, hAuth⟩
      rw [block, sqlConsoleRouteLocations]
      rw [if_neg (by simpa using hId), if_neg hUpstreams, lines]

namespace Accepted

variable (h : route.Accepted)

include h

theorem inner_closed : ∀ line ∈ routeLines route.launchId route.databaseId (normalizeUpstream route.adminerUpstream)
    (normalizeUpstream route.authUpstream), Closed line :=
  closed_routeLines (newline_notMem_launchId h.id) (fun hMem => h.adminer (mem_of_mem_normalizeUpstream hMem))
    (fun hMem => h.auth (mem_of_mem_normalizeUpstream hMem)) _

theorem lines_one : ∀ line ∈ route.lines, newline ∉ line := by
  intro line hLine
  rcases List.mem_cons.mp hLine with rfl | hLine
  · exact newline_notMem_routeBegin h.id
  · rcases List.mem_append.mp hLine with hLine | hLine
    · exact (h.inner_closed line hLine).one
    · rw [List.mem_singleton.mp hLine]
      exact newline_notMem_routeEnd h.id

/-- Only the first line of a block ends with a first marker. -/
theorem countP_routeBegin {launchId : Bytes} (hId : validLaunchId launchId = true) :
    route.lines.countP (fun line => decide (routeBegin launchId <:+ line)) =
      if launchId = route.launchId then 1 else 0 := by
  have hInner : (routeLines route.launchId route.databaseId (normalizeUpstream route.adminerUpstream)
      (normalizeUpstream route.authUpstream)).countP (fun line => decide (routeBegin launchId <:+ line)) = 0 := by
    rw [List.countP_eq_zero]
    intro line hLine
    rw [decide_eq_true_eq]
    exact (h.inner_closed line hLine).not_suffix (routeBegin_getLast? _) (by decide)
  have hEnd : ¬routeBegin launchId <:+ routeEnd route.launchId := by
    rintro ⟨front, hText⟩
    have hLast := routeEnd_getLast? route.launchId
    rw [← hText, List.getLast?_append, routeBegin_getLast?] at hLast
    exact absurd (Option.some.inj hLast) (by decide)
  rw [lines, List.countP_cons, List.countP_append, hInner]
  simp [hEnd, routeBegin_suffix_iff hId h.id]

/-- The last marker of a route ends its block. -/
theorem cutAtText_routeEnd (rest : Bytes) :
    ∃ before, cutAtText (routeEndMarker route.launchId) (unlines route.lines ++ rest) = some (before, rest) := by
  have hEnd := newline_notMem_routeEnd h.id
  have hBegin : ¬routeEnd route.launchId <:+ routeBegin route.launchId := by
    rintro ⟨front, hText⟩
    have hLast := routeBegin_getLast? route.launchId
    rw [← hText, List.getLast?_append, routeEnd_getLast?] at hLast
    exact absurd (Option.some.inj hLast) (by decide)
  have hLines : ∀ line ∈ routeBegin route.launchId :: routeLines route.launchId route.databaseId
      (normalizeUpstream route.adminerUpstream) (normalizeUpstream route.authUpstream),
      newline ∉ line ∧ ¬routeEnd route.launchId <:+ line := by
    refine List.forall_mem_cons.mpr ⟨⟨newline_notMem_routeBegin h.id, hBegin⟩, ?_⟩
    intro line hLine
    have hClosed := h.inner_closed line hLine
    exact ⟨hClosed.one, hClosed.not_suffix (routeEnd_getLast? _) (by decide)⟩
  have hSplit : unlines route.lines ++ rest =
      unlines (routeBegin route.launchId :: routeLines route.launchId route.databaseId
        (normalizeUpstream route.adminerUpstream) (normalizeUpstream route.authUpstream)) ++
        (routeEnd route.launchId ++ newline :: rest) := by
    rw [lines, ← List.cons_append, unlines_append, List.append_assoc, unlines_cons (routeEnd _)]
    simp [unlines]
  rw [hSplit, routeEndMarker, cutAtText_unlines hEnd hLines, cutAtText_line hEnd hEnd, if_pos (List.suffix_refl _)]
  exact ⟨_, rfl⟩

end Accepted

end Route

/-! ## The config with its routes -/

/-- What stands in front of the routes: whole lines, none of which is the first marker of
a route. -/
structure Front (front : Bytes) (lines : List Bytes) : Prop where
  text : front = unlines lines
  ne : lines ≠ []
  one : ∀ line ∈ lines, newline ∉ line
  unmarked : ∀ launchId, validLaunchId launchId = true → ∀ line ∈ lines, ¬routeBegin launchId <:+ line

/-- The config with routes behind its front, inside the last server block. -/
def compose (front : Bytes) (routes : List Route) : Bytes := front ++ (routes.flatMap Route.block ++ serverEnd)

theorem flatMap_block {routes : List Route} (h : ∀ route ∈ routes, route.Accepted) :
    routes.flatMap Route.block = unlines (routes.flatMap Route.lines) := by
  induction routes with
  | nil => rfl
  | cons route routes ih =>
      obtain ⟨hFirst, hRest⟩ := List.forall_mem_cons.mp h
      rw [List.flatMap_cons, List.flatMap_cons, unlines_append, ih hRest, hFirst.block]

section Compose

variable {front : Bytes} {frontLines : List Bytes} (hFront : Front front frontLines) {routes : List Route}

include hFront

/-- Where no route has the id, no line ends with its first marker. -/
theorem lines_unmarked {launchId : Bytes} (hId : validLaunchId launchId = true)
    (hRoutes : ∀ route ∈ routes, route.Accepted) (hNew : ∀ route ∈ routes, route.launchId ≠ launchId) :
    ∀ line ∈ frontLines ++ routes.flatMap Route.lines, newline ∉ line ∧ ¬routeBegin launchId <:+ line := by
  intro line hLine
  rcases List.mem_append.mp hLine with hLine | hLine
  · exact ⟨hFront.one line hLine, hFront.unmarked launchId hId line hLine⟩
  · obtain ⟨route, hMem, hLine⟩ := List.mem_flatMap.mp hLine
    have hAccepted := hRoutes route hMem
    have hNone := hAccepted.countP_routeBegin hId
    rw [if_neg fun hEq => hNew route hMem hEq.symm, List.countP_eq_zero] at hNone
    exact ⟨hAccepted.lines_one line hLine, by simpa using hNone line hLine⟩

theorem erase_absent {launchId : Bytes} (hId : validLaunchId launchId = true)
    (hRoutes : ∀ route ∈ routes, route.Accepted) (hNew : ∀ route ∈ routes, route.launchId ≠ launchId) :
    eraseSqlConsoleRoute (compose front routes) launchId = none := by
  have hBegin := newline_notMem_routeBegin hId
  have hEnd : serverEnd = bytes "\x7d" ++ newline :: [] := by decide
  have hNone : cutAtText (routeBeginMarker launchId) (compose front routes) = none := by
    rw [compose, hFront.text, flatMap_block hRoutes, ← List.append_assoc, ← unlines_append, routeBeginMarker,
      cutAtText_unlines hBegin (lines_unmarked hFront hId hRoutes hNew), hEnd, cutAtText_line hBegin (by decide),
      if_neg (routeBegin_not_suffix_close launchId), cutAtText]
    simp
  rw [eraseSqlConsoleRoute, hNone]

theorem erase_present {before behind : List Route} {route : Route} (hBefore : ∀ route ∈ before, route.Accepted)
    (hRoute : route.Accepted) (hNew : ∀ other ∈ before, other.launchId ≠ route.launchId) :
    eraseSqlConsoleRoute (compose front (before ++ route :: behind)) route.launchId =
      some (compose front (before ++ behind)) := by
  have hBegin := newline_notMem_routeBegin hRoute.id
  have hText : compose front (before ++ route :: behind) =
      unlines (frontLines ++ before.flatMap Route.lines) ++
        (unlines route.lines ++ (behind.flatMap Route.block ++ serverEnd)) := by
    rw [compose, List.flatMap_append, List.flatMap_cons, unlines_append, ← hFront.text, flatMap_block hBefore,
      hRoute.block]
    simp only [List.append_assoc]
  have hLines : ∀ rest, unlines route.lines ++ rest = routeBegin route.launchId ++ newline ::
      (unlines (routeLines route.launchId route.databaseId (normalizeUpstream route.adminerUpstream)
        (normalizeUpstream route.authUpstream) ++ [routeEnd route.launchId]) ++ rest) := by
    intro rest
    rw [Route.lines, unlines_cons, List.append_assoc, List.cons_append]
  obtain ⟨passed, hEnd⟩ := hRoute.cutAtText_routeEnd (behind.flatMap Route.block ++ serverEnd)
  rw [eraseSqlConsoleRoute, hText, routeBeginMarker,
    cutAtText_unlines hBegin (lines_unmarked hFront hRoute.id hBefore hNew), hLines, cutAtText_line hBegin hBegin,
    if_pos (List.suffix_refl _), Option.map_some]
  dsimp only
  rw [List.append_assoc, List.singleton_append, ← hLines, hEnd]
  simp only [Nat.sub_self, List.take_zero, List.append_nil]
  rw [compose, List.flatMap_append, unlines_append, ← hFront.text, flatMap_block hBefore]
  simp only [List.append_assoc]

/-- A new block goes in front of the end of the last server block. -/
theorem insert_compose (hRoutes : ∀ route ∈ routes, route.Accepted) (block : Bytes) :
    insertBeforeFinalServerClose (compose front routes) block =
      some (front ++ (routes.flatMap Route.block ++ (block ++ serverEnd))) := by
  obtain ⟨lines, line, hLines⟩ : ∃ lines line, frontLines ++ routes.flatMap Route.lines = lines ++ [line] := by
    have hNe : frontLines ++ routes.flatMap Route.lines ≠ [] := by simp [hFront.ne]
    exact ⟨_, _, (List.dropLast_append_getLast hNe).symm⟩
  have hWhole : front ++ routes.flatMap Route.block = unlines lines ++ line ++ [newline] := by
    rw [hFront.text, flatMap_block hRoutes, ← unlines_append, hLines, unlines_append]
    simp [unlines]
  have hEnd : serverEnd = [ascii '\x7d', newline] := by decide
  have hClose : bytes "\x7d" = [ascii '\x7d'] := by decide
  have hText : compose front routes = (unlines lines ++ line) ++ ([newline] ++ ascii '\x7d' :: [newline]) := by
    rw [compose, ← List.append_assoc, hWhole, hEnd, List.append_assoc]
  have hCut : cutAtLastText ([newline] ++ [ascii '\x7d']) (compose front routes) =
      some (unlines lines ++ line, [newline]) := by
    rw [hText]
    exact cutAtLastText_append (by decide)
  rw [insertBeforeFinalServerClose, hClose]
  have hPattern : newline :: [ascii '\x7d'] = [newline] ++ [ascii '\x7d'] := rfl
  rw [hPattern, hCut, Option.map_some, ← hWhole, hEnd]
  simp

end Compose

/-! ## Runs of calls -/

/-- A call with a valid launch id, and upstreams of one line. -/
def Call.Valid : Call → Prop
  | .upsert launchId _ adminerUpstream authUpstream _ =>
      validLaunchId launchId = true ∧ newline ∉ adminerUpstream ∧ newline ∉ authUpstream
  | .remove launchId => validLaunchId launchId = true

/-- What a successful call makes of the routes. -/
def applyCall (routes : List Route) : Call → List Route
  | .upsert launchId databaseId adminerUpstream authUpstream _ =>
      (routes.filter fun route => route.launchId ≠ launchId) ++
        [⟨launchId, databaseId, adminerUpstream, authUpstream⟩]
  | .remove launchId => routes.filter fun route => route.launchId ≠ launchId

/-- The routes behind a sequence of calls: those whose last call was an upsert. -/
def routesOf (calls : List Call) : List Route := calls.foldl applyCall []

/-- A call that reads the whole config and writes the whole config. -/
structure Reliable (attempt : Attempt) : Prop where
  read : attempt.readable = true
  write : ∀ content, attempt.stored content = content

/-- The contents of the config that successful calls lead to, with calls that fail in
between. -/
inductive Reaches (allowed : Attempt → Prop) (start : Bytes) : List Call → Bytes → Prop where
  | start : Reaches allowed start [] start
  | success {calls : List Call} {file file' message : Bytes} {call : Call} {attempt : Attempt} :
      Reaches allowed start calls file → allowed attempt → call.run attempt file = (.ok message, file') →
      Reaches allowed start (calls ++ [call]) file'
  | failure {calls : List Call} {file file' message : Bytes} {call : Call} {attempt : Attempt} :
      Reaches allowed start calls file → allowed attempt → call.run attempt file = (.error message, file') →
      Reaches allowed start calls file'

structure Sound (routes : List Route) : Prop where
  accepted : ∀ route ∈ routes, route.Accepted
  nodup : (routes.map Route.launchId).Nodup

theorem Sound.filter {routes : List Route} (h : Sound routes) (launchId : Bytes) :
    Sound (routes.filter fun route => route.launchId ≠ launchId) where
  accepted := fun route hMem => h.accepted route (List.mem_of_mem_filter hMem)
  nodup := h.nodup.sublist (List.filter_sublist.map _)

section Calls

variable {front : Bytes} {frontLines : List Bytes} (hFront : Front front frontLines) {routes : List Route}

include hFront

/-- The erasure takes the route out, if it is there. -/
theorem erase_compose {launchId : Bytes} (hId : validLaunchId launchId = true) (hSound : Sound routes) :
    (eraseSqlConsoleRoute (compose front routes) launchId).getD (compose front routes) =
      compose front (routes.filter fun route => route.launchId ≠ launchId) := by
  by_cases hMem : ∃ route ∈ routes, route.launchId = launchId
  · obtain ⟨route, hMem, rfl⟩ := hMem
    obtain ⟨before, behind, rfl⟩ := List.append_of_mem hMem
    have hNodup := hSound.nodup
    rw [List.map_append, List.map_cons, List.nodup_middle, List.nodup_cons] at hNodup
    have hOther : ∀ other ∈ before ++ behind, other.launchId ≠ route.launchId := by
      intro other hMem hEq
      apply hNodup.1
      rw [← List.map_append, ← hEq]
      exact List.mem_map_of_mem hMem
    have hFilter : (before ++ route :: behind).filter (fun other => other.launchId ≠ route.launchId) =
        before ++ behind := by
      rw [List.filter_append, List.filter_cons_of_neg (by simp), ← List.filter_append]
      exact List.filter_eq_self.mpr fun other hMem => decide_eq_true (hOther other hMem)
    rw [erase_present hFront (fun other hBefore => hSound.accepted other (List.mem_append_left _ hBefore))
      (hSound.accepted route hMem) fun other hBefore => hOther other (List.mem_append_left _ hBefore), hFilter,
      Option.getD_some]
  · have hNew : ∀ route ∈ routes, route.launchId ≠ launchId := fun route hRoute hEq => hMem ⟨route, hRoute, hEq⟩
    rw [erase_absent hFront hId hSound.accepted hNew, Option.getD_none,
      List.filter_eq_self.mpr fun route hRoute => decide_eq_true (hNew route hRoute)]

omit hFront in
theorem compose_ne_nil (routes : List Route) : compose front routes ≠ [] := by
  have hEnd : serverEnd ≠ [] := by decide
  simp [compose, hEnd]

omit hFront in
/-- A call that fails leaves the config as it was. -/
theorem run_error {call : Call} {attempt : Attempt} {file file' message : Bytes} (hReliable : Reliable attempt)
    (h : call.run attempt file = (.error message, file')) : file' = file := by
  have hRead : (if attempt.readable then file else []) = file := if_pos hReliable.read
  have hInstall : ∀ new refused notReloaded done, install attempt file new (.error refused) (.error notReloaded)
      (.ok done) = (.error message, file') → file' = file := by
    intro new refused notReloaded done hRun
    simp only [install, hReliable.write] at hRun
    split at hRun
    · exact (Prod.mk.inj hRun).2.symm
    · split at hRun
      · exact (Prod.mk.inj hRun).2.symm
      · cases (Prod.mk.inj hRun).1
  cases call with
  | upsert launchId databaseId adminerUpstream authUpstream siteNetwork =>
      simp only [Call.run, upsertSqlConsoleRoute, hRead] at h
      split at h
      · exact (Prod.mk.inj h).2.symm
      · split at h
        · exact (Prod.mk.inj h).2.symm
        · split at h
          · exact (Prod.mk.inj h).2.symm
          · split at h
            · exact (Prod.mk.inj h).2.symm
            · exact hInstall _ _ _ _ h
  | remove launchId =>
      simp only [Call.run, removeSqlConsoleRoute, hRead] at h
      split at h
      · cases (Prod.mk.inj h).1
      · split at h
        · cases (Prod.mk.inj h).1
        · exact hInstall _ _ _ _ h

/-- A call that succeeds changes the routes. -/
theorem run_ok {call : Call} {attempt : Attempt} {file' message : Bytes} (hSound : Sound routes)
    (hReliable : Reliable attempt) (hValid : call.Valid)
    (h : call.run attempt (compose front routes) = (.ok message, file')) :
    file' = compose front (applyCall routes call) ∧ Sound (applyCall routes call) := by
  have hRead : (if attempt.readable then compose front routes else []) = compose front routes := if_pos hReliable.read
  have hInstall : ∀ new refused notReloaded done, install attempt (compose front routes) new (.error refused)
      (.error notReloaded) (.ok done) = (.ok message, file') → file' = new := by
    intro new refused notReloaded done hRun
    simp only [install, hReliable.write] at hRun
    split at hRun
    · cases (Prod.mk.inj hRun).1
    · split at hRun
      · cases (Prod.mk.inj hRun).1
      · exact (Prod.mk.inj hRun).2.symm
  cases call with
  | upsert launchId databaseId adminerUpstream authUpstream siteNetwork =>
      obtain ⟨hId, hAdminer, hAuth⟩ := hValid
      simp only [Call.run, upsertSqlConsoleRoute, hRead] at h
      split at h
      · cases (Prod.mk.inj h).1
      · next hBlock =>
        split at h
        · cases (Prod.mk.inj h).1
        · rw [if_neg (compose_ne_nil routes), erase_compose hFront hId hSound,
            insert_compose hFront (hSound.filter launchId).accepted] at h
          have hNew : Route.Accepted ⟨launchId, databaseId, adminerUpstream, authUpstream⟩ :=
            Route.accepted_of_block hBlock hAdminer hAuth
          refine ⟨?_, ?_, ?_⟩
          · rw [hInstall _ _ _ _ h]
            simp [compose, applyCall, Route.block]
          · intro route hMem
            rcases List.mem_append.mp hMem with hMem | hMem
            · exact (hSound.filter launchId).accepted route hMem
            · rwa [List.mem_singleton.mp hMem]
          · rw [applyCall, List.map_append]
            apply List.Nodup.append (hSound.filter launchId).nodup (List.nodup_singleton _)
            intro id hMem hLast
            obtain ⟨route, hRoute, rfl⟩ := List.mem_map.mp hMem
            have hOther := of_decide_eq_true (List.mem_filter.mp hRoute).2
            exact hOther (List.mem_singleton.mp hLast)
  | remove launchId =>
      have hId : validLaunchId launchId = true := hValid
      have hErase := erase_compose hFront hId hSound
      simp only [Call.run, removeSqlConsoleRoute, hRead, if_neg (compose_ne_nil routes)] at h
      refine ⟨?_, hSound.filter launchId⟩
      cases hCut : eraseSqlConsoleRoute (compose front routes) launchId with
      | none =>
          rw [hCut, Option.getD_none] at hErase
          rw [hCut] at h
          rw [applyCall, ← hErase]
          exact (Prod.mk.inj h).2.symm
      | some new =>
          rw [hCut, Option.getD_some] at hErase
          rw [hCut] at h
          rw [hInstall _ _ _ _ h, applyCall, hErase]

/-- Nothing in the config stands against a route. -/
theorem run_upsert_ok {attempt : Attempt} {launchId adminerUpstream authUpstream siteNetwork : Bytes}
    {databaseId : UInt64} (hSound : Sound routes) (hId : validLaunchId launchId = true)
    (hBlock : sqlConsoleRouteLocations launchId databaseId adminerUpstream authUpstream ≠ [])
    (hConnected : attempt.connected = true) (hRead : attempt.readable = true) (hNginx : attempt.valid = true)
    (hReload : attempt.reloaded = true) :
    ((Call.upsert launchId databaseId adminerUpstream authUpstream siteNetwork).run attempt (compose front routes)).1 =
      .ok (bytes "SQL Console proxy route installed") := by
  simp only [Call.run, upsertSqlConsoleRoute, hRead, hConnected, if_neg hBlock, ite_true]
  rw [if_neg (by simp), if_neg (compose_ne_nil routes), erase_compose hFront hId hSound,
    insert_compose hFront (hSound.filter launchId).accepted]
  simp [install, hNginx, hReload]

omit hFront in
/-- Where no write gets through, the file stays as it is. -/
theorem run_unwritten {call : Call} {attempt : Attempt} {file : Bytes} (h : ∀ content, attempt.stored content = file) :
    (call.run attempt file).2 = file := by
  have hInstall : ∀ original new refused notReloaded done,
      (install attempt original new refused notReloaded done).2 = file := by
    intro original new refused notReloaded done
    simp only [install, h]
    split
    · rfl
    · split <;> rfl
  cases call with
  | upsert launchId databaseId adminerUpstream authUpstream siteNetwork =>
      simp only [Call.run, upsertSqlConsoleRoute]
      repeat' split
      all_goals first | rfl | exact hInstall _ _ _ _ _
  | remove launchId =>
      simp only [Call.run, removeSqlConsoleRoute]
      repeat' split
      all_goals first | rfl | exact hInstall _ _ _ _ _

omit hFront in
theorem run_eq_of_ok {call : Call} {attempt : Attempt} {file message : Bytes} (h : (call.run attempt file).1 = .ok message) :
    call.run attempt file = (.ok message, (call.run attempt file).2) := by
  rw [← h]

/-- What a run of calls leaves in the config. -/
theorem reaches_compose {calls : List Call} {file : Bytes} (h : Reaches Reliable (compose front []) calls file)
    (hValid : ∀ call ∈ calls, call.Valid) : file = compose front (routesOf calls) ∧ Sound (routesOf calls) := by
  induction h with
  | start => exact ⟨rfl, fun route hMem => absurd hMem List.not_mem_nil, List.nodup_nil⟩
  | success _ hReliable hRun ih =>
      obtain ⟨hBefore, hLast⟩ := List.forall_mem_append.mp hValid
      obtain ⟨rfl, hSound⟩ := ih hBefore
      rw [routesOf, List.foldl_append]
      exact run_ok hFront hSound hReliable (hLast _ (List.mem_singleton_self _)) hRun
  | failure _ hReliable hRun ih =>
      rw [run_error hReliable hRun]
      exact ih hValid

end Calls

/-- The last call about a launch id. -/
def lastCall (calls : List Call) (launchId : Bytes) : Option Call := calls.reverse.find? fun call => call.launchId = launchId

/-- A call that asks for the route. -/
def Call.AsksFor (call : Call) (route : Route) : Prop :=
  ∃ siteNetwork, call = .upsert route.launchId route.databaseId route.adminerUpstream route.authUpstream siteNetwork

theorem mem_applyCall_iff {routes : List Route} {call : Call} {route : Route} :
    route ∈ applyCall routes call ↔
      if call.launchId = route.launchId then call.AsksFor route else route ∈ routes := by
  by_cases hId : call.launchId = route.launchId
  · rw [if_pos hId]
    cases call with
    | upsert id databaseId adminerUpstream authUpstream siteNetwork =>
        rw [applyCall, List.mem_append, List.mem_filter, decide_eq_true_eq, List.mem_singleton]
        constructor
        · rintro (⟨-, hOther⟩ | rfl)
          · exact absurd hId.symm hOther
          · exact ⟨siteNetwork, rfl⟩
        · rintro ⟨network, hCall⟩
          cases hCall
          exact Or.inr rfl
    | remove id =>
        rw [applyCall, List.mem_filter, decide_eq_true_eq]
        constructor
        · exact fun h => absurd hId.symm h.2
        · rintro ⟨network, hCall⟩
          cases hCall
  · rw [if_neg hId]
    cases call with
    | upsert id databaseId adminerUpstream authUpstream siteNetwork =>
        rw [applyCall, List.mem_append, List.mem_filter, decide_eq_true_eq, List.mem_singleton]
        constructor
        · rintro (⟨hMem, -⟩ | rfl)
          · exact hMem
          · exact absurd rfl hId
        · exact fun hMem => Or.inl ⟨hMem, fun hEq => hId hEq.symm⟩
    | remove id =>
        rw [applyCall, List.mem_filter, decide_eq_true_eq]
        exact ⟨fun h => h.1, fun hMem => ⟨hMem, fun hEq => hId hEq.symm⟩⟩

/-- The routes are the ones that the last call about their id asks for. -/
theorem mem_routesOf_iff (calls : List Call) (route : Route) :
    route ∈ routesOf calls ↔ ∃ call, lastCall calls route.launchId = some call ∧ call.AsksFor route := by
  induction calls using List.reverseRecOn with
  | nil => simp [routesOf, lastCall]
  | append_singleton calls call ih =>
      rw [routesOf, List.foldl_append, List.foldl_cons, List.foldl_nil, mem_applyCall_iff, lastCall, List.reverse_append,
        List.reverse_singleton, List.singleton_append]
      by_cases hId : call.launchId = route.launchId
      · rw [if_pos hId, List.find?_cons_of_pos (by simpa using hId)]
        simp
      · rw [if_neg hId, List.find?_cons_of_neg (by simpa using hId)]
        exact ih

/-- An id has a route if its last call was an upsert. -/
theorem launchId_mem_routesOf_iff (calls : List Call) (launchId : Bytes) :
    launchId ∈ (routesOf calls).map Route.launchId ↔ (lastCall calls launchId).any Call.isUpsert = true := by
  rw [List.mem_map, Option.any_eq_true]
  constructor
  · rintro ⟨route, hMem, rfl⟩
    obtain ⟨call, hLast, network, rfl⟩ := (mem_routesOf_iff calls route).mp hMem
    exact ⟨_, hLast, rfl⟩
  · rintro ⟨call, hLast, hUpsert⟩
    have hId : call.launchId = launchId := by simpa using List.find?_some hLast
    cases call with
    | remove id => cases hUpsert
    | upsert id databaseId adminerUpstream authUpstream siteNetwork =>
        refine ⟨⟨id, databaseId, adminerUpstream, authUpstream⟩, ?_, hId⟩
        obtain rfl : id = launchId := hId
        exact (mem_routesOf_iff calls _).mpr ⟨_, hLast, siteNetwork, rfl⟩

/-! ## Configs as they are built -/

/-- A config without the first marker of any route. -/
def Unmarked (config : Bytes) : Prop :=
  ∀ launchId, validLaunchId launchId = true → cutAtText (routeBeginMarker launchId) config = none

theorem unlines_getLast? {lines : List Bytes} (h : lines ≠ []) : (unlines lines).getLast? = some newline := by
  rw [← List.dropLast_append_getLast h, unlines_append, unlines_cons, List.getLast?_append, List.getLast?_append]
  rfl

/-- The last server block ends with a whole line, in front of its end. -/
theorem lastBlock_getLast? {params : Params}
    (h : params.sqlConsoleLocations = [] ∨ params.sqlConsoleLocations.getLast? = some newline) :
    (lastBlock params).getLast? = some newline := by
  have hHead : (unlines (if params.https then httpsLines params.domain params.upstream params.certPath params.keyPath
      else httpLines params.domain params.upstream)).getLast? = some newline := by
    apply unlines_getLast?
    split
    · simp [httpsLines, serverHead]
    · simp [httpLines, serverHead]
  have hWebmail : (unlines (webmailLocations params.webmailUpstream)).getLast? = none ∨
      (unlines (webmailLocations params.webmailUpstream)).getLast? = some newline := by
    by_cases hEmpty : webmailLocations params.webmailUpstream = []
    · exact Or.inl (by simp [hEmpty, unlines])
    · exact Or.inr (unlines_getLast? hEmpty)
  have hMore : params.sqlConsoleLocations.getLast? = none ∨ params.sqlConsoleLocations.getLast? = some newline :=
    h.imp (fun hEmpty => by simp [hEmpty]) id
  rw [lastBlock, List.getLast?_append, List.getLast?_append, hHead]
  rcases hWebmail with hWebmail | hWebmail <;> rcases hMore with hMore | hMore <;> simp [hWebmail, hMore]

theorem exists_front {params : Params}
    (hMore : params.sqlConsoleLocations = [] ∨ params.sqlConsoleLocations.getLast? = some newline)
    (hUnmarked : Unmarked (build params)) : ∃ lines, Front (firstBlock params ++ lastBlock params) lines := by
  have hLast : (firstBlock params ++ lastBlock params).getLast? = some newline := by
    rw [List.getLast?_append, lastBlock_getLast? hMore]
    rfl
  obtain ⟨lines, hText, hOne⟩ := exists_lines (Or.inr hLast)
  refine ⟨lines, hText, ?_, hOne, ?_⟩
  · rintro rfl
    rw [hText] at hLast
    cases hLast
  · intro launchId hId
    have hNone := hUnmarked launchId hId
    rw [build, ← List.append_assoc, hText] at hNone
    exact not_suffix_of_cutAtText (newline_notMem_routeBegin hId) hOne hNone

theorem build_compose (params : Params) : build params = compose (firstBlock params ++ lastBlock params) [] := by
  simp [build, compose]

section Erasure

variable {front : Bytes} {frontLines : List Bytes} (hFront : Front front frontLines)

include hFront

/-- How often the first marker of a route stands in the config. -/
theorem occurrences_compose {routes : List Route} (hSound : Sound routes) {launchId : Bytes}
    (hId : validLaunchId launchId = true) : occurrences (routeBeginMarker launchId) (compose front routes) =
      if launchId ∈ routes.map Route.launchId then 1 else 0 := by
  have hBegin := newline_notMem_routeBegin hId
  have hLines : ∀ line ∈ frontLines ++ routes.flatMap Route.lines, newline ∉ line := by
    intro line hLine
    rcases List.mem_append.mp hLine with hLine | hLine
    · exact hFront.one line hLine
    · obtain ⟨route, hMem, hLine⟩ := List.mem_flatMap.mp hLine
      exact (hSound.accepted route hMem).lines_one line hLine
  have hNone : frontLines.countP (fun line => decide (routeBegin launchId <:+ line)) = 0 := by
    rw [List.countP_eq_zero]
    intro line hLine
    simpa using hFront.unmarked launchId hId line hLine
  have hRoutes : (routes.flatMap Route.lines).countP (fun line => decide (routeBegin launchId <:+ line)) =
      (routes.map Route.launchId).count launchId := by
    have hAccepted := hSound.accepted
    clear hSound hLines
    induction routes with
    | nil => rfl
    | cons route routes ih =>
        obtain ⟨hFirst, hRest⟩ := List.forall_mem_cons.mp hAccepted
        rw [List.flatMap_cons, List.countP_append, hFirst.countP_routeBegin hId, ih hRest, List.map_cons, List.count_cons]
        simp only [beq_iff_eq, eq_comm (a := route.launchId)]
        omega
  have hEnd : occurrences (routeBegin launchId ++ [newline]) serverEnd = 0 := by
    have hText : serverEnd = bytes "\x7d" ++ newline :: [] := by decide
    rw [hText, occurrences_line hBegin (by decide), if_neg (routeBegin_not_suffix_close launchId)]
    rfl
  rw [compose, hFront.text, flatMap_block hSound.accepted, ← List.append_assoc, ← unlines_append, routeBeginMarker,
    occurrences_unlines hBegin hLines, List.countP_append, hNone, hRoutes, hEnd, hSound.nodup.count]
  simp

/-- The erasure of all routes gives back the config without routes. -/
theorem foldl_erase_compose {routes : List Route} (hSound : Sound routes) :
    (routes.map Route.launchId).foldl (fun config launchId => (eraseSqlConsoleRoute config launchId).getD config)
      (compose front routes) = compose front [] := by
  induction routes with
  | nil => rfl
  | cons route routes ih =>
      obtain ⟨hFirst, hRest⟩ := List.forall_mem_cons.mp hSound.accepted
      obtain ⟨hNew, hNodup⟩ := List.nodup_cons.mp hSound.nodup
      have hPresent : eraseSqlConsoleRoute (compose front (route :: routes)) route.launchId =
          some (compose front routes) :=
        erase_present hFront (fun _ hMem => absurd hMem List.not_mem_nil) hFirst fun _ hMem => absurd hMem List.not_mem_nil
      rw [List.map_cons, List.foldl_cons, hPresent, Option.getD_some]
      exact ih ⟨hRest, hNodup⟩

end Erasure

/-- A line of a server block. -/
def ServerLine (line : Bytes) : Prop := line = [] ∨ Closed line

theorem serverLine_bytes {chars : List Char} (h : Closed (chars.map ascii)) : ServerLine (bytes (String.ofList chars)) :=
  Or.inr (closed_bytes h)

theorem serverLine_proxyHeaders : ∀ line ∈ proxyHeaders, ServerLine line := by
  simp only [proxyHeaders, List.forall_mem_cons]
  exact ⟨serverLine_bytes (by decide), serverLine_bytes (by decide), serverLine_bytes (by decide),
    by simp⟩

theorem serverLine_serverHead {listen : String} {domain : Bytes} {more : List Bytes} (hListen : newline ∉ bytes listen)
    (hDomain : newline ∉ domain) (hMore : ∀ line ∈ more, ServerLine line) :
    ∀ line ∈ serverHead listen domain more, ServerLine line := by
  have hListenLine : Closed (bytes "    listen " ++ bytes listen ++ bytes ";") :=
    closed_value hListen (by decide) (by decide)
  have hDomainLine : Closed (bytes "    server_name " ++ domain ++ bytes ";") :=
    closed_value hDomain (by decide) (by decide)
  simp only [serverHead, List.forall_mem_append, List.forall_mem_cons]
  exact ⟨⟨⟨serverLine_bytes (by decide), Or.inr hListenLine, Or.inr hDomainLine, serverLine_bytes (by decide), by simp⟩, hMore⟩,
    Or.inl rfl, by simp⟩

theorem serverLine_rootLocation {upstream : Bytes} {headers : List Bytes} (hUpstream : newline ∉ upstream)
    (hHeaders : ∀ line ∈ headers, ServerLine line) : ∀ line ∈ rootLocation upstream headers, ServerLine line := by
  have hBackend : Closed (bytes "        set $backend \"http://" ++ upstream ++ bytes "\";") :=
    closed_value hUpstream (by decide) (by decide)
  simp only [rootLocation, List.forall_mem_append, List.forall_mem_cons]
  exact ⟨⟨⟨⟨serverLine_bytes (by decide), Or.inr hBackend, serverLine_bytes (by decide), by simp⟩, serverLine_proxyHeaders⟩,
    hHeaders⟩, serverLine_bytes (by decide), by simp⟩

theorem serverLine_webmail {webmailUpstream : Bytes} (h : newline ∉ webmailUpstream) :
    ∀ line ∈ webmailLocations webmailUpstream, ServerLine line := by
  have hWebmail : Closed (bytes "        proxy_pass http://" ++ webmailUpstream ++ bytes "/;") :=
    closed_value h (by decide) (by decide)
  have hSnappymail : Closed (bytes "        proxy_pass http://" ++ webmailUpstream ++ bytes ";") :=
    closed_value h (by decide) (by decide)
  have hScheme : Closed schemeHeader := closed_bytes (by decide)
  have hEnd : Closed (bytes "    \x7d") := closed_bytes (by decide)
  rw [webmailLocations]
  split
  · simp
  · simp only [List.forall_mem_append, List.forall_mem_cons]
    exact ⟨⟨⟨⟨⟨⟨serverLine_bytes (by decide), Or.inr hWebmail, by simp⟩, serverLine_proxyHeaders⟩, Or.inr hScheme,
      Or.inr hEnd, by simp⟩, serverLine_bytes (by decide), Or.inr hSnappymail, by simp⟩, serverLine_proxyHeaders⟩,
      Or.inr hScheme, Or.inr hEnd, by simp⟩

theorem serverLine_httpLines {domain upstream : Bytes} (hDomain : newline ∉ domain) (hUpstream : newline ∉ upstream) :
    ∀ line ∈ httpLines domain upstream, ServerLine line := by
  rw [httpLines, List.forall_mem_append]
  refine ⟨serverLine_serverHead (by decide) hDomain (by simp), serverLine_rootLocation hUpstream ?_⟩
  exact List.forall_mem_singleton.mpr (serverLine_bytes (by decide))

theorem serverLine_httpsLines {domain upstream certPath keyPath : Bytes} (hDomain : newline ∉ domain)
    (hUpstream : newline ∉ upstream) (hCert : newline ∉ certPath) (hKey : newline ∉ keyPath) :
    ∀ line ∈ httpsLines domain upstream certPath keyPath, ServerLine line := by
  have hCertLine : Closed (bytes "    ssl_certificate " ++ certPath ++ bytes ";") :=
    closed_value hCert (by decide) (by decide)
  have hKeyLine : Closed (bytes "    ssl_certificate_key " ++ keyPath ++ bytes ";") :=
    closed_value hKey (by decide) (by decide)
  rw [httpsLines, List.forall_mem_append]
  refine ⟨serverLine_serverHead (by decide) hDomain ?_, serverLine_rootLocation hUpstream ?_⟩
  · simp only [List.forall_mem_cons]
    exact ⟨Or.inr hCertLine, Or.inr hKeyLine, by simp⟩
  · simp only [List.forall_mem_cons]
    exact ⟨serverLine_bytes (by decide), serverLine_bytes (by decide), serverLine_bytes (by decide), by simp⟩

theorem serverLine_redirect {domain : Bytes} (hDomain : newline ∉ domain) :
    ∀ line ∈ [bytes "server \x7b", bytes "    listen 80;", bytes "    server_name " ++ domain ++ bytes ";",
      bytes "    return 301 https://$host$request_uri;"], ServerLine line := by
  have hDomainLine : Closed (bytes "    server_name " ++ domain ++ bytes ";") :=
    closed_value hDomain (by decide) (by decide)
  simp only [List.forall_mem_cons]
  exact ⟨serverLine_bytes (by decide), serverLine_bytes (by decide), Or.inr hDomainLine,
    serverLine_bytes (by decide), by simp⟩

/-- Where the texts are lines and there are no other locations, no route stands in the
config that is built. -/
theorem unmarked_build {params : Params} (hDomain : newline ∉ params.domain) (hUpstream : newline ∉ params.upstream)
    (hCert : newline ∉ params.certPath) (hKey : newline ∉ params.keyPath) (hWebmail : newline ∉ params.webmailUpstream)
    (hMore : params.sqlConsoleLocations = []) : Unmarked (build params) := by
  have hHttp := serverLine_httpLines hDomain hUpstream
  have hHttps := serverLine_httpsLines hDomain hUpstream hCert hKey
  have hClose : serverEnd = unlines [bytes "\x7d"] := by decide
  have hFirst : ∃ lines, firstBlock params = unlines lines ∧ ∀ line ∈ lines, ServerLine line := by
    rw [firstBlock]
    split
    · refine ⟨_, by rw [buildRedirectBlock, hClose, ← unlines_append], ?_⟩
      exact List.forall_mem_append.mpr
        ⟨serverLine_redirect hDomain, List.forall_mem_singleton.mpr (serverLine_bytes (by decide))⟩
    · split
      · refine ⟨_, by rw [buildHttpBlock, hClose, ← unlines_append], ?_⟩
        exact List.forall_mem_append.mpr ⟨hHttp, List.forall_mem_singleton.mpr (serverLine_bytes (by decide))⟩
      · exact ⟨[], rfl, by simp⟩
  obtain ⟨first, hFirstText, hFirstLines⟩ := hFirst
  have hLast : ∃ lines, lastBlock params ++ serverEnd = unlines lines ∧ ∀ line ∈ lines, ServerLine line := by
    rw [lastBlock, hMore, List.append_nil, hClose, ← unlines_append, ← unlines_append]
    refine ⟨_, rfl, ?_⟩
    rw [List.forall_mem_append, List.forall_mem_append]
    refine ⟨⟨?_, serverLine_webmail hWebmail⟩, List.forall_mem_singleton.mpr (serverLine_bytes (by decide))⟩
    split
    · exact hHttps
    · exact hHttp
  obtain ⟨last, hLastText, hLastLines⟩ := hLast
  intro launchId hId
  have hLines : ∀ line ∈ first ++ last, newline ∉ line ∧ ¬routeBegin launchId <:+ line := by
    intro line hLine
    have hServer : ServerLine line := List.forall_mem_append.mpr ⟨hFirstLines, hLastLines⟩ line hLine
    rcases hServer with rfl | hClosed
    · exact ⟨List.not_mem_nil, fun hSuffix => by
        have hNil := List.suffix_nil.mp hSuffix
        have hLast := routeBegin_getLast? launchId
        rw [hNil] at hLast
        cases hLast⟩
    · exact ⟨hClosed.one, hClosed.not_suffix (routeBegin_getLast? _) (by decide)⟩
  have hNone := cutAtText_unlines (newline_notMem_routeBegin hId) hLines []
  rw [List.append_nil] at hNone
  rw [build, hFirstText, hLastText, ← unlines_append, routeBeginMarker, hNone, cutAtText]
  simp

/-- The routes of the SQL console are a set: whatever calls there were, the config is the
one that was built, with the blocks of the routes in front of the end of its last server
block, one block for each id whose last call was an upsert; without the blocks it is the
config that was built. -/
theorem sqlConsoleRoutes_set {params : Params} {calls : List Call} {file : Bytes}
    (hMore : params.sqlConsoleLocations = [] ∨ params.sqlConsoleLocations.getLast? = some newline)
    (hUnmarked : Unmarked (build params)) (hRun : Reaches Reliable (build params) calls file)
    (hValid : ∀ call ∈ calls, call.Valid) :
    ∃ routes : List Route, (routes.map Route.launchId).Nodup ∧
      (∀ route, route ∈ routes ↔ ∃ call, lastCall calls route.launchId = some call ∧ call.AsksFor route) ∧
      file = firstBlock params ++ (lastBlock params ++ (routes.flatMap Route.block ++ serverEnd)) ∧
      (∀ launchId, validLaunchId launchId = true → occurrences (routeBeginMarker launchId) file =
        if (lastCall calls launchId).any Call.isUpsert = true then 1 else 0) ∧
      (routes.map Route.launchId).foldl
        (fun config launchId => (eraseSqlConsoleRoute config launchId).getD config) file = build params := by
  obtain ⟨lines, hFront⟩ := exists_front hMore hUnmarked
  rw [build_compose] at hRun
  obtain ⟨hFile, hSound⟩ := reaches_compose hFront hRun hValid
  refine ⟨routesOf calls, hSound.nodup, mem_routesOf_iff calls, ?_, ?_, ?_⟩
  · rw [hFile, compose, List.append_assoc]
  · intro launchId hId
    rw [hFile, occurrences_compose hFront hSound hId]
    simp only [launchId_mem_routesOf_iff]
  · rw [hFile, foldl_erase_compose hFront hSound, build_compose]

section Sample

/-- The config of a panel with HTTPS. -/
def samplePanel : Params where
  domain := bytes "panel.example.org"
  upstream := bytes "127.0.0.1:8080"
  https := true
  redirect := true
  certPath := bytes "/tls/fullchain.pem"
  keyPath := bytes "/tls/privkey.pem"

def sampleLaunchId : Bytes := bytes "0123456789abcdef0123456789abcdef"

def sampleRoute : Route := ⟨sampleLaunchId, 7, bytes "http://adminer:8080/", bytes "http://127.0.0.1:9000"⟩

def sampleUpsert : Call :=
  .upsert sampleLaunchId 7 sampleRoute.adminerUpstream sampleRoute.authUpstream (bytes "site-1")

def sampleAttempt : Attempt := ⟨true, true, id, true, true⟩

theorem validLaunchId_sample : validLaunchId sampleLaunchId = true := by decide

theorem unmarked_samplePanel : Unmarked (build samplePanel) :=
  unmarked_build (notMem_bytes (by decide)) (notMem_bytes (by decide)) (notMem_bytes (by decide))
    (notMem_bytes (by decide)) List.not_mem_nil rfl

theorem valid_sampleUpsert : sampleUpsert.Valid := 
  ⟨validLaunchId_sample, notMem_bytes (by decide), notMem_bytes (by decide)⟩

theorem accepted_sampleRoute : sampleRoute.Accepted := by
  have hUpstreams : ¬(normalizeUpstream sampleRoute.adminerUpstream = [] || normalizeUpstream sampleRoute.authUpstream = []) =
      true := by
    decide
  have hId : ¬(!validLaunchId sampleRoute.launchId || sampleRoute.databaseId = 0) = true := by decide
  apply Route.accepted_of_block _ valid_sampleUpsert.2.1 valid_sampleUpsert.2.2
  rw [Route.block, sqlConsoleRouteLocations, if_neg hId, if_neg hUpstreams, unlines_cons, routeBegin]
  simp

/-- The call succeeds, whatever the write leaves in the file. -/
theorem run_sampleUpsert (stored : Bytes → Bytes) :
    (sampleUpsert.run ⟨true, true, stored, true, true⟩ (build samplePanel)).1 =
      .ok (bytes "SQL Console proxy route installed") := by
  obtain ⟨lines, hFront⟩ := exists_front (Or.inl rfl) unmarked_samplePanel
  rw [build_compose, sampleUpsert]
  have hBlock : sqlConsoleRouteLocations sampleLaunchId 7 sampleRoute.adminerUpstream sampleRoute.authUpstream ≠ [] := by
    have hText := accepted_sampleRoute.block
    rw [Route.block] at hText
    rw [show sampleLaunchId = sampleRoute.launchId from rfl, show (7 : UInt64) = sampleRoute.databaseId from rfl, hText,
      Route.lines, unlines_cons, routeBegin]
    simp
  exact run_upsert_ok hFront ⟨by simp, List.nodup_nil⟩ validLaunchId_sample hBlock rfl rfl rfl rfl

theorem sqlConsoleRoutes_set_sample :
    ∃ routes : List Route, (routes.map Route.launchId).Nodup ∧
      (∀ route, route ∈ routes ↔
        ∃ call, lastCall [sampleUpsert] route.launchId = some call ∧ call.AsksFor route) ∧
      (sampleUpsert.run sampleAttempt (build samplePanel)).2 =
        firstBlock samplePanel ++ (lastBlock samplePanel ++ (routes.flatMap Route.block ++ serverEnd)) ∧
      (∀ launchId, validLaunchId launchId = true →
        occurrences (routeBeginMarker launchId) (sampleUpsert.run sampleAttempt (build samplePanel)).2 =
          if (lastCall [sampleUpsert] launchId).any Call.isUpsert = true then 1 else 0) ∧
      (routes.map Route.launchId).foldl
        (fun config launchId => (eraseSqlConsoleRoute config launchId).getD config)
        (sampleUpsert.run sampleAttempt (build samplePanel)).2 = build samplePanel := by
  have hReliable : Reliable sampleAttempt := ⟨rfl, fun _ => rfl⟩
  have hRun : Reaches Reliable (build samplePanel) [sampleUpsert] (sampleUpsert.run sampleAttempt (build samplePanel)).2 :=
    Reaches.success Reaches.start hReliable (run_eq_of_ok (run_sampleUpsert id))
  exact sqlConsoleRoutes_set (Or.inl rfl) unmarked_samplePanel hRun (List.forall_mem_singleton.mpr valid_sampleUpsert)

/-- An upsert whose write fails is answered with success. -/
theorem sqlConsoleRoutes_no_set :
    ¬∀ (params : Params) (calls : List Call) (file : Bytes), params.sqlConsoleLocations = [] →
      newline ∉ params.upstream → newline ∉ params.webmailUpstream → Unmarked (build params) →
      Reaches (fun _ => True) (build params) calls file → (∀ call ∈ calls, call.Valid) →
      ∀ launchId, validLaunchId launchId = true →
        occurrences (routeBeginMarker launchId) file =
          if (lastCall calls launchId).any Call.isUpsert = true then 1 else 0 := by
  intro hAll
  obtain ⟨lines, hFront⟩ := exists_front (Or.inl rfl) unmarked_samplePanel
  have hPair : sampleUpsert.run ⟨true, true, fun _ => build samplePanel, true, true⟩ (build samplePanel) =
      (.ok (bytes "SQL Console proxy route installed"), build samplePanel) :=
    Prod.ext (run_sampleUpsert _) (run_unwritten fun _ => rfl)
  have hOne := hAll samplePanel [sampleUpsert] _ rfl (notMem_bytes (by decide)) List.not_mem_nil
    unmarked_samplePanel (Reaches.success Reaches.start trivial hPair)
    (List.forall_mem_singleton.mpr valid_sampleUpsert) sampleLaunchId validLaunchId_sample
  have hSound : Sound [] := ⟨by simp, List.nodup_nil⟩
  rw [build_compose, occurrences_compose hFront hSound validLaunchId_sample] at hOne
  exact absurd hOne (by simp [lastCall, sampleUpsert, Call.isUpsert, Call.launchId])

end Sample

end ContainerCP.Proxy
