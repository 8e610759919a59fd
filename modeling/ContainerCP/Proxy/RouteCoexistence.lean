import ContainerCP.Proxy.SqlConsoleRoutes

/-! Routes of several consoles in one config: the locations that nginx finds in each
server block. -/
namespace ContainerCP.Proxy

/-! ## Locations -/

/-- What a location directive is for: its modifier, empty where it has none, and its
path. -/
structure Location where
  modifier : Bytes
  path : Bytes
  deriving DecidableEq

/-- The words of a line, apart from each other by one blank. -/
def wordsOf (line : Bytes) : List Bytes := line.splitOn (ascii ' ')

/-- The location that a line opens. -/
def locationOf (line : Bytes) : Option Location :=
  let text := line.dropWhile (· = ascii ' ')
  if bytes "location " <+: text then
    match wordsOf (text.drop 9) with
    | [path, brace] => if brace = bytes "\x7b" then some ⟨[], path⟩ else none
    | [modifier, path, brace] => if brace = bytes "\x7b" then some ⟨modifier, path⟩ else none
    | _ => none
  else none

/-- One more line: it opens a server block, or a location in the last one. -/
def readLine (blocks : List (List Location)) (line : Bytes) : List (List Location) :=
  if line = bytes "server \x7b" then [] :: blocks
  else
    match locationOf line, blocks with
    | some location, block :: rest => (location :: block) :: rest
    | _, _ => blocks

/-- The locations of each server block of a config, those of its last block first. -/
def serverBlocks (config : Bytes) : List (List Location) := (getlines newline config).foldl readLine []

/-- The locations of the last server block. -/
def lastLocations (config : Bytes) : List Location := (serverBlocks config).headD []

/-- No server block has two location directives of the same modifier and path. -/
def Distinct (config : Bytes) : Prop := ∀ block ∈ serverBlocks config, block.Nodup

instance (config : Bytes) : Decidable (Distinct config) := inferInstanceAs (Decidable (∀ block ∈ serverBlocks config, block.Nodup))

/-- The config with one more route, as an upsert makes it. -/
def insertRoute (config : Bytes) (route : Route) : Option Bytes :=
  insertBeforeFinalServerClose ((eraseSqlConsoleRoute config route.launchId).getD config) route.block

/-- The config with all the routes, one upsert after the other. -/
def insertRoutes (config : Bytes) (routes : List Route) : Option Bytes := routes.foldlM insertRoute config

/-! ## Lines that open no location -/

/-- A line whose text does not begin as a location directive does. -/
structure Other (line : Bytes) : Prop where
  ne : line.dropWhile (· = ascii ' ') ≠ []
  start : ¬(line.dropWhile (· = ascii ' ')).take 2 <+: bytes "location "

instance (line : Bytes) : Decidable (Other line) :=
  decidable_of_iff (line.dropWhile (· = ascii ' ') ≠ [] ∧ ¬(line.dropWhile (· = ascii ' ')).take 2 <+: bytes "location ")
    ⟨fun h => ⟨h.1, h.2⟩, fun h => ⟨h.ne, h.start⟩⟩

theorem other_bytes {chars : List Char} (h : Other (chars.map ascii)) : Other (bytes (String.ofList chars)) := by
  rwa [bytes_ofList]

theorem Other.append {line : Bytes} (h : Other line) (more : Bytes) : Other (line ++ more) := by
  have hDrop : (line ++ more).dropWhile (· = ascii ' ') = line.dropWhile (· = ascii ' ') ++ more := by
    rw [List.dropWhile_append, if_neg (by simpa using h.ne)]
  constructor
  · rw [hDrop]
    exact List.append_ne_nil_of_left_ne_nil h.ne more
  · rw [hDrop]
    intro hStart
    apply h.start
    rw [List.take_append] at hStart
    exact (List.prefix_append _ _).trans hStart

theorem Other.locationOf {line : Bytes} (h : Other line) : locationOf line = none := by
  rw [Proxy.locationOf]
  apply if_neg
  intro hText
  apply h.start
  obtain ⟨rest, hRest⟩ := hText
  rw [← hRest, List.take_append_of_le_length (by decide)]
  exact List.take_prefix _ _

/-- A line that begins with a blank. -/
def Indented (line : Bytes) : Prop := line.head? = some (ascii ' ')

instance (line : Bytes) : Decidable (Indented line) := inferInstanceAs (Decidable (_ = _))

theorem indented_bytes {chars : List Char} (h : Indented (chars.map ascii)) : Indented (bytes (String.ofList chars)) := by
  rwa [bytes_ofList]

theorem Indented.append {line : Bytes} (h : Indented line) (more : Bytes) : Indented (line ++ more) := by
  rw [Indented] at h ⊢
  rw [List.head?_append, h]
  rfl

theorem Indented.ne_server {line : Bytes} (h : Indented line) : line ≠ bytes "server \x7b" := by
  rintro rfl
  exact absurd h (by decide)

/-- A line inside a server block adds its location to it. -/
theorem readLine_inside {line : Bytes} (h : line ≠ bytes "server \x7b") (block : List Location)
    (blocks : List (List Location)) :
    readLine (block :: blocks) line = ((locationOf line).toList ++ block) :: blocks := by
  unfold readLine
  rw [if_neg h]
  cases locationOf line with
  | none => rfl
  | some location => rfl

theorem foldl_readLine {lines : List Bytes} (h : ∀ line ∈ lines, line ≠ bytes "server \x7b") (block : List Location)
    (blocks : List (List Location)) :
    lines.foldl readLine (block :: blocks) = ((lines.filterMap locationOf).reverse ++ block) :: blocks := by
  induction lines generalizing block with
  | nil => rfl
  | cons line lines ih =>
      obtain ⟨hFirst, hRest⟩ := List.forall_mem_cons.mp h
      rw [List.foldl_cons, readLine_inside hFirst, ih hRest, List.filterMap_cons]
      cases locationOf line with
      | none => rfl
      | some location => simp

/-- Behind a line that opens a server block there is one. -/
theorem foldl_readLine_ne_nil {lines : List Bytes} {blocks : List (List Location)}
    (h : blocks ≠ [] ∨ bytes "server \x7b" ∈ lines) : lines.foldl readLine blocks ≠ [] := by
  induction lines generalizing blocks with
  | nil => exact h.resolve_right List.not_mem_nil
  | cons line lines ih =>
      rw [List.foldl_cons]
      by_cases hServer : line = bytes "server \x7b"
      · apply ih
        left
        unfold readLine
        rw [if_pos hServer]
        exact List.cons_ne_nil _ _
      · apply ih
        rcases h with hBlocks | hMem
        · left
          obtain ⟨block, rest, rfl⟩ := List.exists_cons_of_ne_nil hBlocks
          rw [readLine_inside hServer]
          exact List.cons_ne_nil _ _
        · exact Or.inr ((List.mem_cons.mp hMem).resolve_left fun hEq => hServer hEq.symm)

/-! ## The locations of a route -/

namespace Route

/-- The locations of a route, the last one first. -/
def locations (route : Route) : List Location :=
  [⟨bytes "^~", bytes "/sql-console/" ++ route.launchId ++ bytes "/"⟩,
    ⟨bytes "=", bytes "/sql-console/internal/auth/" ++ route.launchId⟩,
    ⟨bytes "=", bytes "/sql-console/internal/logout"⟩, ⟨bytes "=", bytes "/sql-console/internal/redeem"⟩]

end Route

theorem blank_notMem_launchId {launchId : Bytes} (h : validLaunchId launchId = true) : ascii ' ' ∉ launchId := by
  rw [validLaunchId, Bool.and_eq_true, List.all_eq_true] at h
  intro hMem
  exact absurd (h.2 _ hMem) (by decide)

/-- A line that opens a location with a modifier. -/
theorem locationOf_line {front modifier path : Bytes} (hFront : front = bytes "    location ")
    (hModifier : ascii ' ' ∉ modifier) (hPath : ascii ' ' ∉ path) :
    locationOf (front ++ modifier ++ bytes " " ++ path ++ bytes " \x7b") = some ⟨modifier, path⟩ := by
  subst hFront
  have hBlank : bytes "    location " = List.replicate 4 (ascii ' ') ++ bytes "location " := by decide
  have hText : bytes "    location " ++ modifier ++ bytes " " ++ path ++ bytes " \x7b" =
      List.replicate 4 (ascii ' ') ++ (bytes "location " ++ [ascii ' '].intercalate [modifier, path, bytes "\x7b"]) := by
    rw [hBlank]
    simp [List.intercalate, bytes]
  have hDrop : (List.replicate 4 (ascii ' ') ++ (bytes "location " ++
      [ascii ' '].intercalate [modifier, path, bytes "\x7b"])).dropWhile (· = ascii ' ') =
      bytes "location " ++ [ascii ' '].intercalate [modifier, path, bytes "\x7b"] := by
    rfl
  have hWords : wordsOf ([ascii ' '].intercalate [modifier, path, bytes "\x7b"]) = [modifier, path, bytes "\x7b"] := by
    rw [wordsOf, List.splitOn_intercalate]
    · simp only [List.forall_mem_cons]
      exact ⟨hModifier, hPath, by decide, by simp⟩
    · simp
  have hRest : (bytes "location " ++ [ascii ' '].intercalate [modifier, path, bytes "\x7b"]).drop 9 =
      [ascii ' '].intercalate [modifier, path, bytes "\x7b"] := rfl
  rw [locationOf, hText, hDrop, if_pos (List.prefix_append _ _), hRest, hWords]
  exact if_pos rfl

theorem filterMap_other {lines : List Bytes} (h : ∀ line ∈ lines, Other line) (more : List Bytes) :
    (lines ++ more).filterMap locationOf = more.filterMap locationOf := by
  rw [List.filterMap_append, List.filterMap_eq_nil_iff.mpr fun line hLine => (h line hLine).locationOf, List.nil_append]

/-- The lines of a route between those that open its locations. -/
theorem exists_routeLines (launchId : Bytes) (databaseId : UInt64) (adminer auth : Bytes) :
    ∃ behindAuth, (∀ line ∈ behindAuth, Other line) ∧ ∃ behindConsole, (∀ line ∈ behindConsole, Other line) ∧
      routeLines launchId databaseId adminer auth =
        bytes "    location = /sql-console/internal/redeem \x7b" :: ([bytes "        return 404;", bytes "    \x7d"] ++
          bytes "    location = /sql-console/internal/logout \x7b" :: ([bytes "        return 404;", bytes "    \x7d"] ++
            (bytes "    location = /sql-console/internal/auth/" ++ launchId ++ bytes " \x7b") :: (behindAuth ++
              (bytes "    location ^~ /sql-console/" ++ launchId ++ bytes "/ \x7b") :: behindConsole))) := by
  have hScheme : Other schemeHeader := other_bytes (by decide)
  refine ⟨((routeLines launchId databaseId adminer auth).drop 7).take 9, ?_,
    (routeLines launchId databaseId adminer auth).drop 17, ?_, rfl⟩
  · simp only [routeLines, List.drop_succ_cons, List.drop_zero, List.take_succ_cons, List.take_zero, List.forall_mem_cons]
    refine ⟨?_, ?_, ?_, ?_, ?_, ?_, ?_, hScheme, ?_, by simp⟩
    all_goals
      repeat apply Other.append
      exact other_bytes (by decide)
  · simp only [routeLines, List.drop_succ_cons, List.drop_zero, List.forall_mem_cons]
    refine ⟨?_, ?_, ?_, ?_, ?_, ?_, ?_, ?_, ?_, hScheme, ?_, by simp⟩
    all_goals
      repeat apply Other.append
      exact other_bytes (by decide)

/-- A route opens four locations. -/
theorem locations_routeLines {launchId : Bytes} (h : validLaunchId launchId = true) (databaseId : UInt64)
    (adminer auth : Bytes) :
    (routeLines launchId databaseId adminer auth).filterMap locationOf =
      [⟨bytes "=", bytes "/sql-console/internal/redeem"⟩, ⟨bytes "=", bytes "/sql-console/internal/logout"⟩,
        ⟨bytes "=", bytes "/sql-console/internal/auth/" ++ launchId⟩,
        ⟨bytes "^~", bytes "/sql-console/" ++ launchId ++ bytes "/"⟩] := by
  have hBlank := blank_notMem_launchId h
  have hRedeem : locationOf (bytes "    location = /sql-console/internal/redeem \x7b") =
      some ⟨bytes "=", bytes "/sql-console/internal/redeem"⟩ := by decide
  have hLogout : locationOf (bytes "    location = /sql-console/internal/logout \x7b") =
      some ⟨bytes "=", bytes "/sql-console/internal/logout"⟩ := by decide
  have hAuth : locationOf (bytes "    location = /sql-console/internal/auth/" ++ launchId ++ bytes " \x7b") =
      some ⟨bytes "=", bytes "/sql-console/internal/auth/" ++ launchId⟩ := by
    have hText : bytes "    location = /sql-console/internal/auth/" ++ launchId ++ bytes " \x7b" =
        bytes "    location " ++ bytes "=" ++ bytes " " ++ (bytes "/sql-console/internal/auth/" ++ launchId) ++
          bytes " \x7b" := by
      simp [bytes]
    have hFixed : ascii ' ' ∉ bytes "/sql-console/internal/auth/" := notMem_bytes (by decide)
    rw [hText]
    exact locationOf_line rfl (by decide) (by simp [hFixed, hBlank])
  have hConsole : locationOf (bytes "    location ^~ /sql-console/" ++ launchId ++ bytes "/ \x7b") =
      some ⟨bytes "^~", bytes "/sql-console/" ++ launchId ++ bytes "/"⟩ := by
    have hText : bytes "    location ^~ /sql-console/" ++ launchId ++ bytes "/ \x7b" =
        bytes "    location " ++ bytes "^~" ++ bytes " " ++ (bytes "/sql-console/" ++ launchId ++ bytes "/") ++
          bytes " \x7b" := by
      simp [bytes]
    have hFixed : ascii ' ' ∉ bytes "/sql-console/" := notMem_bytes (by decide)
    have hSlash : ascii ' ' ∉ bytes "/" := notMem_bytes (by decide)
    rw [hText]
    exact locationOf_line rfl (by decide) (by simp [hFixed, hSlash, hBlank])
  have hReturn : ∀ line ∈ [bytes "        return 404;", bytes "    \x7d"], Other line := by
    simp only [List.forall_mem_cons]
    exact ⟨other_bytes (by decide), other_bytes (by decide), by simp⟩
  obtain ⟨behindAuth, hBehindAuth, behindConsole, hBehindConsole, hLines⟩ := exists_routeLines launchId databaseId adminer auth
  rw [hLines, List.filterMap_cons_some hRedeem, filterMap_other hReturn, List.filterMap_cons_some hLogout,
    filterMap_other hReturn, List.filterMap_cons_some hAuth, filterMap_other hBehindAuth, List.filterMap_cons_some hConsole,
    ← List.append_nil behindConsole, filterMap_other hBehindConsole, List.filterMap_nil]

theorem indented_routeLines (launchId : Bytes) (databaseId : UInt64) (adminer auth : Bytes) :
    ∀ line ∈ routeLines launchId databaseId adminer auth, Indented line := by
  have hScheme : Indented schemeHeader := indented_bytes (by decide)
  simp only [routeLines, List.forall_mem_cons]
  refine ⟨?_, ?_, ?_, ?_, ?_, ?_, ?_, ?_, ?_, ?_, ?_, ?_, ?_, ?_, hScheme, ?_, ?_, ?_, ?_, ?_, ?_, ?_, ?_, ?_, ?_, ?_,
    hScheme, ?_, by simp⟩
  all_goals
    repeat apply Indented.append
    exact indented_bytes (by decide)

namespace Route

variable {route : Route}

theorem Accepted.filterMap_locationOf (h : route.Accepted) :
    (route.lines.filterMap locationOf).reverse = route.locations := by
  have hFixed : Other (bytes "    # containercp-sql-console-route ") := other_bytes (by decide)
  have hBegin : Other (routeBegin route.launchId) := (hFixed.append _).append _
  have hEnd : Other (routeEnd route.launchId) := (hFixed.append _).append _
  rw [lines, List.filterMap_cons_none hBegin.locationOf, List.filterMap_append, locations_routeLines h.id,
    List.filterMap_cons_none hEnd.locationOf]
  rfl

theorem lines_ne_server (route : Route) : ∀ line ∈ route.lines, line ≠ bytes "server \x7b" := by
  have hFixed : Indented (bytes "    # containercp-sql-console-route ") := indented_bytes (by decide)
  have hBegin : Indented (routeBegin route.launchId) := (hFixed.append _).append _
  have hEnd : Indented (routeEnd route.launchId) := (hFixed.append _).append _
  rw [lines, List.forall_mem_cons, List.forall_mem_append]
  exact ⟨hBegin.ne_server, fun line hLine => (indented_routeLines _ _ _ _ line hLine).ne_server,
    List.forall_mem_singleton.mpr hEnd.ne_server⟩

/-- The locations of one route are apart from each other. -/
theorem locations_nodup (route : Route) : route.locations.Nodup := by
  have hModifier : bytes "^~" ≠ bytes "=" := by decide
  have hFixed : bytes "/sql-console/internal/logout" ≠ bytes "/sql-console/internal/redeem" := by decide
  have hFront : ∀ path, (path = bytes "/sql-console/internal/logout" ∨ path = bytes "/sql-console/internal/redeem") →
      bytes "/sql-console/internal/auth/" ++ route.launchId ≠ path := by
    intro path hPath hEq
    have hPrefix : bytes "/sql-console/internal/auth/" <+: path := hEq ▸ List.prefix_append _ _
    rcases hPath with rfl | rfl
    · exact absurd hPrefix (by decide)
    · exact absurd hPrefix (by decide)
  simp [locations, hModifier, hFixed, hFront _ (Or.inl rfl), hFront _ (Or.inr rfl)]

/-- The locations that each route opens, whatever its id. -/
theorem redeem_mem_locations (route : Route) :
    (⟨bytes "=", bytes "/sql-console/internal/redeem"⟩ : Location) ∈ route.locations := by
  simp [locations]

end Route

/-! ## Configs with routes -/

theorem serverEnd_eq : serverEnd = unlines [bytes "\x7d"] := by decide

theorem serverBlocks_unlines {lines : List Bytes} (h : ∀ line ∈ lines, newline ∉ line) :
    serverBlocks (unlines lines) = lines.foldl readLine [] := by
  rw [serverBlocks, unlines, getlines_flatMap h]

theorem newline_notMem_close : newline ∉ bytes "\x7d" := by decide

/-- The line that ends a server block changes nothing. -/
theorem readLine_close (blocks : List (List Location)) : readLine blocks (bytes "\x7d") = blocks := by
  have hOther : Other (bytes "\x7d") := by decide
  unfold readLine
  rw [if_neg (by decide), hOther.locationOf]

section Compose

variable {front : Bytes} {frontLines : List Bytes} (hFront : Front front frontLines)

include hFront

/-- One insertion after the other puts the blocks one behind the other. -/
theorem insertRoutes_compose {before routes : List Route} (hSound : Sound (before ++ routes)) :
    insertRoutes (compose front before) routes = some (compose front (before ++ routes)) := by
  induction routes generalizing before with
  | nil =>
      rw [List.append_nil]
      rfl
  | cons route routes ih =>
      have hAccepted := hSound.accepted
      have hNodup := hSound.nodup
      rw [List.forall_mem_append, List.forall_mem_cons] at hAccepted
      rw [List.map_append, List.map_cons, List.nodup_middle, List.nodup_cons] at hNodup
      have hNew : ∀ other ∈ before, other.launchId ≠ route.launchId := by
        intro other hMem hEq
        apply hNodup.1
        rw [← hEq]
        exact List.mem_append_left _ (List.mem_map_of_mem hMem)
      have hStep : insertRoute (compose front before) route = some (compose front (before ++ [route])) := by
        rw [insertRoute, erase_absent hFront hAccepted.2.1.id hAccepted.1 hNew, Option.getD_none,
          insert_compose hFront hAccepted.1, compose, List.flatMap_append, List.flatMap_singleton]
        simp only [List.append_assoc]
      rw [List.append_cons before route routes] at hSound ⊢
      rw [insertRoutes, List.foldlM_cons, hStep]
      exact ih hSound

/-- The locations of the routes stand in the last server block. -/
theorem serverBlocks_compose {routes : List Route} (hAccepted : ∀ route ∈ routes, route.Accepted)
    {block : List Location} {blocks : List (List Location)} (hBase : serverBlocks (compose front []) = block :: blocks) :
    serverBlocks (compose front routes) = (routes.reverse.flatMap Route.locations ++ block) :: blocks := by
  have hLines : ∀ {routes : List Route}, (∀ route ∈ routes, route.Accepted) →
      serverBlocks (compose front routes) = (routes.flatMap Route.lines).foldl readLine (frontLines.foldl readLine []) := by
    intro routes hAccepted
    have hOne : ∀ line ∈ frontLines ++ routes.flatMap Route.lines ++ [bytes "\x7d"], newline ∉ line := by
      rw [List.forall_mem_append, List.forall_mem_append, List.forall_mem_singleton]
      refine ⟨⟨hFront.one, ?_⟩, newline_notMem_close⟩
      intro line hLine
      obtain ⟨route, hMem, hLine⟩ := List.mem_flatMap.mp hLine
      exact (hAccepted route hMem).lines_one line hLine
    rw [compose, hFront.text, flatMap_block hAccepted, serverEnd_eq, ← unlines_append, ← unlines_append,
      ← List.append_assoc, serverBlocks_unlines hOne, List.foldl_append, List.foldl_append, List.foldl_cons, List.foldl_nil,
      readLine_close]
  have hNone : serverBlocks (compose front []) = frontLines.foldl readLine [] := hLines (by simp)
  rw [hLines hAccepted, ← hNone, hBase]
  clear hLines hNone hBase
  induction routes generalizing block with
  | nil => rfl
  | cons route routes ih =>
      obtain ⟨hRoute, hRest⟩ := List.forall_mem_cons.mp hAccepted
      rw [List.flatMap_cons, List.foldl_append, foldl_readLine route.lines_ne_server, hRoute.filterMap_locationOf,
        ih hRest, List.reverse_cons, List.flatMap_append, List.flatMap_singleton, List.append_assoc]

end Compose

/-- Two routes have a location in common. -/
theorem nodup_locations_iff (routes : List Route) (block : List Location) :
    (routes.reverse.flatMap Route.locations ++ block).Nodup ↔
      block.Nodup ∧ (routes = [] ∨ ∃ route, routes = [route] ∧ ∀ location ∈ route.locations, location ∉ block) := by
  rw [List.nodup_append']
  constructor
  · rintro ⟨hRoutes, hBlock, hDisjoint⟩
    refine ⟨hBlock, ?_⟩
    match routes with
    | [] => exact Or.inl rfl
    | [route] =>
        refine Or.inr ⟨route, rfl, ?_⟩
        rw [List.reverse_singleton, List.flatMap_singleton] at hDisjoint
        exact fun location hMem => List.disjoint_left.mp hDisjoint hMem
    | first :: second :: rest =>
        have hPair := (List.nodup_flatMap.mp hRoutes).2
        rw [List.pairwise_reverse] at hPair
        have hFirst := (List.pairwise_cons.mp hPair).1 second (List.mem_cons_self ..)
        exact absurd first.redeem_mem_locations (List.disjoint_left.mp hFirst second.redeem_mem_locations)
  · rintro ⟨hBlock, rfl | ⟨route, rfl, hNew⟩⟩
    · exact ⟨List.nodup_nil, hBlock, List.disjoint_left.mpr fun location hMem => absurd hMem List.not_mem_nil⟩
    · rw [List.reverse_singleton, List.flatMap_singleton]
      exact ⟨route.locations_nodup, hBlock, List.disjoint_left.mpr fun location hMem => hNew location hMem⟩

/-- The config that is built has a server block. -/
theorem serverBlocks_build_ne_nil (params : Params) : serverBlocks (build params) ≠ [] := by
  have hFirst : firstBlock params = [] ∨ (firstBlock params).getLast? = some newline := by
    have hEnd : serverEnd.getLast? = some newline := by decide
    rw [firstBlock, buildRedirectBlock, buildHttpBlock]
    split
    · right
      rw [List.getLast?_append, hEnd]
      rfl
    · split
      · right
        rw [List.getLast?_append, hEnd]
        rfl
      · exact Or.inl rfl
  obtain ⟨before, hBefore, hBeforeOne⟩ := exists_lines hFirst
  have hServer : ∃ behind, lastBlock params = bytes "server \x7b" ++ newline :: behind := by
    rw [lastBlock]
    split
    · exact ⟨_, by rw [httpsLines, serverHead]; simp only [List.cons_append, unlines_cons, List.append_assoc]; rfl⟩
    · exact ⟨_, by rw [httpLines, serverHead]; simp only [List.cons_append, unlines_cons, List.append_assoc]; rfl⟩
  obtain ⟨behind, hBehind⟩ := hServer
  have hLast : behind ++ serverEnd = [] ∨ (behind ++ serverEnd).getLast? = some newline := by
    right
    rw [List.getLast?_append]
    rfl
  obtain ⟨after, hAfter, hAfterOne⟩ := exists_lines hLast
  have hText : build params = unlines (before ++ bytes "server \x7b" :: after) := by
    rw [build, hBefore, hBehind, unlines_append, unlines_cons, ← hAfter]
    simp only [List.append_assoc, List.cons_append]
  have hOne : ∀ line ∈ before ++ bytes "server \x7b" :: after, newline ∉ line := by
    rw [List.forall_mem_append, List.forall_mem_cons]
    exact ⟨hBeforeOne, by decide, hAfterOne⟩
  rw [hText, serverBlocks_unlines hOne]
  exact foldl_readLine_ne_nil (Or.inr (List.mem_append_right _ (List.mem_cons_self ..)))

/-! ## Configs without added locations -/

/-- A line of a server block that opens nothing. -/
def Plain (line : Bytes) : Prop := locationOf line = none ∧ line ≠ bytes "server \x7b"

theorem plain_nil : Plain [] := ⟨by decide, by decide⟩

theorem plain_of_indented {line : Bytes} (hIndented : Indented line) (hOther : Other line) : Plain line :=
  ⟨hOther.locationOf, hIndented.ne_server⟩

theorem plain_bytes {chars : List Char} (h : Indented (chars.map ascii) ∧ Other (chars.map ascii)) :
    Plain (bytes (String.ofList chars)) :=
  plain_of_indented (indented_bytes h.1) (other_bytes h.2)

/-- A line with a value in it. -/
theorem plain_value {chars : List Char} (h : Indented (chars.map ascii) ∧ Other (chars.map ascii)) (value more : Bytes) :
    Plain (bytes (String.ofList chars) ++ value ++ more) :=
  plain_of_indented (((indented_bytes h.1).append value).append more) (((other_bytes h.2).append value).append more)

/-- The locations that lines inside a server block open. -/
structure Opens (lines : List Bytes) (locations : List Location) : Prop where
  eq : lines.filterMap locationOf = locations
  server : ∀ line ∈ lines, line ≠ bytes "server \x7b"

theorem opens_of_plain {lines : List Bytes} (h : ∀ line ∈ lines, Plain line) : Opens lines [] where
  eq := List.filterMap_eq_nil_iff.mpr fun line hLine => (h line hLine).1
  server := fun line hLine => (h line hLine).2

theorem Opens.append {first second : List Bytes} {locations more : List Location} (h : Opens first locations)
    (hMore : Opens second more) : Opens (first ++ second) (locations ++ more) where
  eq := by rw [List.filterMap_append, h.eq, hMore.eq]
  server := List.forall_mem_append.mpr ⟨h.server, hMore.server⟩

/-- A line that opens a location, and lines that open none behind it. -/
theorem opens_location {line : Bytes} {lines : List Bytes} {location : Location} (hLocation : locationOf line = some location)
    (hLines : ∀ line ∈ lines, Plain line) : Opens (line :: lines) [location] where
  eq := by rw [List.filterMap_cons_some hLocation, (opens_of_plain hLines).eq]
  server := by
    refine List.forall_mem_cons.mpr ⟨?_, (opens_of_plain hLines).server⟩
    rintro rfl
    have hNone : locationOf (bytes "server \x7b") = none := by decide
    rw [hNone] at hLocation
    cases hLocation

theorem foldl_readLine_block {lines : List Bytes} {locations : List Location} (h : Opens lines locations)
    (blocks : List (List Location)) :
    (bytes "server \x7b" :: lines).foldl readLine blocks = locations.reverse :: blocks := by
  have hServer : readLine blocks (bytes "server \x7b") = [] :: blocks := by
    unfold readLine
    exact if_pos rfl
  rw [List.foldl_cons, hServer, foldl_readLine h.server, h.eq, List.append_nil]

theorem plain_proxyHeaders : ∀ line ∈ proxyHeaders, Plain line := by
  simp only [proxyHeaders, List.forall_mem_cons]
  exact ⟨plain_bytes (by decide), plain_bytes (by decide), plain_bytes (by decide), by simp⟩

theorem plain_schemeHeader : Plain schemeHeader := plain_bytes (by decide)

theorem plain_close : Plain (bytes "    \x7d") := plain_bytes (by decide)

/-- The location that takes all other paths. -/
def rootPath : Location := ⟨[], bytes "/"⟩

/-- The locations of the web mail, where there is one. -/
def webmailPaths (webmailUpstream : Bytes) : List Location :=
  if webmailUpstream = [] then [] else [⟨[], bytes "/webmail/"⟩, ⟨[], bytes "/snappymail/"⟩]

theorem opens_rootLocation (upstream : Bytes) {headers : List Bytes} (hHeaders : ∀ line ∈ headers, Plain line) :
    Opens (rootLocation upstream headers) [rootPath] := by
  have hRoot : locationOf (bytes "    location / \x7b") = some rootPath := by decide
  rw [rootLocation]
  simp only [List.cons_append, List.nil_append]
  apply opens_location hRoot
  rw [List.forall_mem_cons, List.forall_mem_cons, List.forall_mem_append, List.forall_mem_append, List.forall_mem_singleton]
  exact ⟨plain_value (by decide) _ _, plain_bytes (by decide), ⟨plain_proxyHeaders, hHeaders⟩, plain_close⟩

theorem opens_webmailLocations (webmailUpstream : Bytes) :
    Opens (webmailLocations webmailUpstream) (webmailPaths webmailUpstream) := by
  rw [webmailLocations, webmailPaths]
  split
  · exact opens_of_plain (by simp)
  · have hWebmail : locationOf (bytes "    location /webmail/ \x7b") = some ⟨[], bytes "/webmail/"⟩ := by decide
    have hSnappymail : locationOf (bytes "    location /snappymail/ \x7b") = some ⟨[], bytes "/snappymail/"⟩ := by
      decide
    have hLines : ∀ pass, Plain pass → ∀ line ∈ pass :: (proxyHeaders ++ [schemeHeader, bytes "    \x7d"]), Plain line := by
      intro pass hPass
      rw [List.forall_mem_cons, List.forall_mem_append, List.forall_mem_cons, List.forall_mem_singleton]
      exact ⟨hPass, plain_proxyHeaders, plain_schemeHeader, plain_close⟩
    have hPass : ∀ tail, Plain (bytes "        proxy_pass http://" ++ webmailUpstream ++ tail) :=
      plain_value (by decide) webmailUpstream
    have hFirst := opens_location hWebmail (hLines _ (hPass (bytes "/;")))
    have hSecond := opens_location hSnappymail (hLines _ (hPass (bytes ";")))
    have hBoth := hFirst.append hSecond
    simp only [List.cons_append, List.append_assoc, List.nil_append] at hBoth ⊢
    exact hBoth

/-- The start of a server block opens no location. -/
theorem exists_serverHead (listen : String) (domain : Bytes) (more : List Bytes) (hMore : ∀ line ∈ more, Plain line) :
    ∃ lines, serverHead listen domain more = bytes "server \x7b" :: lines ∧ Opens lines [] := by
  refine ⟨[bytes "    listen " ++ bytes listen ++ bytes ";", bytes "    server_name " ++ domain ++ bytes ";",
    bytes "    resolver 127.0.0.11 valid=30s;"] ++ more ++ [[]], rfl, opens_of_plain ?_⟩
  rw [List.forall_mem_append, List.forall_mem_append, List.forall_mem_cons, List.forall_mem_cons, List.forall_mem_singleton,
    List.forall_mem_singleton]
  exact ⟨⟨⟨plain_value (by decide) _ _, plain_value (by decide) _ _, plain_bytes (by decide)⟩,
    hMore⟩, plain_nil⟩

theorem exists_httpLines (domain upstream : Bytes) :
    ∃ lines, httpLines domain upstream = bytes "server \x7b" :: lines ∧ Opens lines [rootPath] := by
  obtain ⟨lines, hHead, hLines⟩ := exists_serverHead "80" domain [] (by simp)
  have hRoot := opens_rootLocation upstream (List.forall_mem_singleton.mpr plain_schemeHeader)
  exact ⟨_, by rw [httpLines, hHead]; rfl, hLines.append hRoot⟩

theorem exists_httpsLines (domain upstream certPath keyPath : Bytes) :
    ∃ lines, httpsLines domain upstream certPath keyPath = bytes "server \x7b" :: lines ∧ Opens lines [rootPath] := by
  have hCert : ∀ line ∈ [bytes "    ssl_certificate " ++ certPath ++ bytes ";",
      bytes "    ssl_certificate_key " ++ keyPath ++ bytes ";"], Plain line := by
    rw [List.forall_mem_cons, List.forall_mem_singleton]
    exact ⟨plain_value (by decide) _ _, plain_value (by decide) _ _⟩
  obtain ⟨lines, hHead, hLines⟩ := exists_serverHead "443 ssl" domain _ hCert
  have hRoot : Opens (rootLocation upstream [bytes "        proxy_set_header X-Forwarded-Proto https;",
      bytes "        proxy_set_header X-Forwarded-Port 443;", bytes "        proxy_set_header X-Forwarded-Ssl on;"])
      [rootPath] := by
    apply opens_rootLocation
    rw [List.forall_mem_cons, List.forall_mem_cons, List.forall_mem_singleton]
    exact ⟨plain_bytes (by decide), plain_bytes (by decide), plain_bytes (by decide)⟩
  exact ⟨_, by rw [httpsLines, hHead]; rfl, hLines.append hRoot⟩

/-- The texts of a config are lines, and no locations are added to it. -/
structure OneLine (params : Params) : Prop where
  domain : newline ∉ params.domain
  upstream : newline ∉ params.upstream
  cert : newline ∉ params.certPath
  key : newline ∉ params.keyPath
  webmail : newline ∉ params.webmailUpstream
  locations : params.sqlConsoleLocations = []

theorem ServerLine.newline_notMem {line : Bytes} (h : ServerLine line) : newline ∉ line := by
  rcases h with rfl | hClosed
  · exact List.not_mem_nil
  · exact hClosed.one

/-- Behind a whole server block, the locations are those that it opens. -/
theorem readBlock {lines inner : List Bytes} {locations : List Location} (hLines : lines = bytes "server \x7b" :: inner)
    (hInner : Opens inner locations) (blocks : List (List Location)) :
    (lines ++ [bytes "\x7d"]).foldl readLine blocks = locations.reverse :: blocks := by
  rw [List.foldl_append, hLines, foldl_readLine_block hInner, List.foldl_cons, List.foldl_nil, readLine_close]

/-- The block in front of the last one opens no location twice. -/
theorem exists_firstLines {params : Params} (h : OneLine params) :
    ∃ lines, firstBlock params = unlines lines ∧ (∀ line ∈ lines, newline ∉ line) ∧
      ∀ block ∈ lines.foldl readLine [], block.Nodup := by
  rw [firstBlock]
  split
  · refine ⟨[bytes "server \x7b", bytes "    listen 80;", bytes "    server_name " ++ params.domain ++ bytes ";",
      bytes "    return 301 https://$host$request_uri;"] ++ [bytes "\x7d"],
      by rw [buildRedirectBlock, serverEnd_eq, ← unlines_append], ?_, ?_⟩
    · rw [List.forall_mem_append, List.forall_mem_singleton]
      exact ⟨fun line hLine => (serverLine_redirect h.domain line hLine).newline_notMem, newline_notMem_close⟩
    · have hInner : Opens [bytes "    listen 80;", bytes "    server_name " ++ params.domain ++ bytes ";",
          bytes "    return 301 https://$host$request_uri;"] [] := by
        apply opens_of_plain
        rw [List.forall_mem_cons, List.forall_mem_cons, List.forall_mem_singleton]
        exact ⟨plain_bytes (by decide), plain_value (by decide) _ _, plain_bytes (by decide)⟩
      rw [readBlock rfl hInner]
      simp
  · split
    · refine ⟨httpLines params.domain params.upstream ++ [bytes "\x7d"],
        by rw [buildHttpBlock, serverEnd_eq, ← unlines_append], ?_, ?_⟩
      · rw [List.forall_mem_append, List.forall_mem_singleton]
        exact ⟨fun line hLine => (serverLine_httpLines h.domain h.upstream line hLine).newline_notMem, newline_notMem_close⟩
      · obtain ⟨inner, hLines, hInner⟩ := exists_httpLines params.domain params.upstream
        rw [readBlock hLines hInner]
        simp
    · exact ⟨[], rfl, by simp, by simp⟩

/-- The locations that a config is built with: `/`, and those of the web mail. -/
theorem serverBlocks_build {params : Params} (h : OneLine params) :
    ∃ blocks, serverBlocks (build params) = ([rootPath] ++ webmailPaths params.webmailUpstream).reverse :: blocks ∧
      ∀ block ∈ blocks, block.Nodup := by
  obtain ⟨first, hFirst, hFirstOne, hFirstBlocks⟩ := exists_firstLines h
  have hLast : ∃ lines inner, lastBlock params = unlines (lines ++ webmailLocations params.webmailUpstream) ∧
      (∀ line ∈ lines, ServerLine line) ∧ lines = bytes "server \x7b" :: inner ∧ Opens inner [rootPath] := by
    rw [lastBlock, h.locations, List.append_nil]
    simp only [unlines_append]
    split
    · obtain ⟨inner, hLines, hInner⟩ := exists_httpsLines params.domain params.upstream params.certPath params.keyPath
      exact ⟨_, inner, rfl, serverLine_httpsLines h.domain h.upstream h.cert h.key, hLines, hInner⟩
    · obtain ⟨inner, hLines, hInner⟩ := exists_httpLines params.domain params.upstream
      exact ⟨_, inner, rfl, serverLine_httpLines h.domain h.upstream, hLines, hInner⟩
  obtain ⟨lines, inner, hLast, hLastLines, hLines, hInner⟩ := hLast
  have hOne : ∀ line ∈ first ++ (lines ++ webmailLocations params.webmailUpstream ++ [bytes "\x7d"]), newline ∉ line := by
    rw [List.forall_mem_append, List.forall_mem_append, List.forall_mem_append, List.forall_mem_singleton]
    exact ⟨hFirstOne, ⟨fun line hLine => (hLastLines line hLine).newline_notMem,
      fun line hLine => (serverLine_webmail h.webmail line hLine).newline_notMem⟩, newline_notMem_close⟩
  refine ⟨first.foldl readLine [], ?_, hFirstBlocks⟩
  rw [build, hFirst, hLast, serverEnd_eq, ← unlines_append, ← unlines_append, serverBlocks_unlines hOne, List.foldl_append]
  exact readBlock (by rw [hLines]; rfl) (hInner.append (opens_webmailLocations _)) _

/-- No location of a route is one that a config is built with. -/
theorem Route.locations_fresh (route : Route) (webmailUpstream : Bytes) :
    ∀ location ∈ route.locations, location ∉ ([rootPath] ++ webmailPaths webmailUpstream).reverse := by
  have hModifier : ∀ location ∈ route.locations, location.modifier ≠ [] := by
    simp only [Route.locations, List.forall_mem_cons]
    exact ⟨by decide, by decide, by decide, by decide, by simp⟩
  have hNone : ∀ location ∈ ([rootPath] ++ webmailPaths webmailUpstream).reverse, location.modifier = [] := by
    rw [webmailPaths]
    split <;> simp [rootPath]
  exact fun location hMem hBase => hModifier location hMem (hNone location hBase)

/-- In a config without added locations, one console is all that nginx takes. -/
theorem insertRoutes_distinct_iff_length {params : Params} {routes : List Route} (h : OneLine params)
    (hAccepted : ∀ route ∈ routes, route.Accepted) (hIds : (routes.map Route.launchId).Nodup) :
    ∃ config, insertRoutes (build params) routes = some config ∧ (Distinct config ↔ routes.length ≤ 1) := by
  have hUnmarked : Unmarked (build params) := unmarked_build h.domain h.upstream h.cert h.key h.webmail h.locations
  obtain ⟨lines, hFront⟩ := exists_front (Or.inl h.locations) hUnmarked
  obtain ⟨blocks, hBlocks, hNodup⟩ := serverBlocks_build h
  have hBase : ([rootPath] ++ webmailPaths params.webmailUpstream).reverse.Nodup := by
    rw [List.nodup_reverse, webmailPaths]
    split <;> decide
  rw [build_compose] at hBlocks
  refine ⟨compose (firstBlock params ++ lastBlock params) routes, ?_, ?_⟩
  · rw [build_compose]
    exact insertRoutes_compose hFront ⟨hAccepted, hIds⟩
  · rw [Distinct, serverBlocks_compose hFront hAccepted hBlocks, List.forall_mem_cons, nodup_locations_iff]
    constructor
    · rintro ⟨⟨-, rfl | ⟨route, rfl, -⟩⟩, -⟩
      · exact Nat.zero_le 1
      · exact le_refl 1
    · intro hLength
      refine ⟨⟨hBase, ?_⟩, hNodup⟩
      match routes, hLength with
      | [], _ => exact Or.inl rfl
      | [route], _ => exact Or.inr ⟨route, rfl, route.locations_fresh _⟩

/-! ## All configs -/

/-- Consoles coexist in a config only where there is no second one: whatever ids they
have, two routes open the same locations in the last server block. One route is fine where
the block has none of its locations. -/
theorem insertRoutes_distinct_iff {params : Params} {routes : List Route}
    (hMore : params.sqlConsoleLocations = [] ∨ params.sqlConsoleLocations.getLast? = some newline)
    (hUnmarked : Unmarked (build params)) (hAccepted : ∀ route ∈ routes, route.Accepted)
    (hIds : (routes.map Route.launchId).Nodup) :
    ∃ config, insertRoutes (build params) routes = some config ∧
      (Distinct config ↔ Distinct (build params) ∧ (routes = [] ∨ ∃ route, routes = [route] ∧
        ∀ location ∈ route.locations, location ∉ lastLocations (build params))) := by
  obtain ⟨lines, hFront⟩ := exists_front hMore hUnmarked
  obtain ⟨block, blocks, hBase⟩ := List.exists_cons_of_ne_nil (serverBlocks_build_ne_nil params)
  have hCompose := hBase
  rw [build_compose] at hCompose
  refine ⟨compose (firstBlock params ++ lastBlock params) routes, ?_, ?_⟩
  · rw [build_compose]
    exact insertRoutes_compose hFront ⟨hAccepted, hIds⟩
  · rw [Distinct, Distinct, lastLocations, hBase, serverBlocks_compose hFront hAccepted hCompose, List.forall_mem_cons,
      List.forall_mem_cons, nodup_locations_iff, List.headD_cons]
    tauto

section Sample

/-- The route of a second console. -/
def secondRoute : Route :=
  ⟨bytes "fedcba9876543210fedcba9876543210", 8, bytes "http://adminer:8081/", bytes "http://127.0.0.1:9000"⟩

theorem accepted_secondRoute : secondRoute.Accepted := by
  have hUpstreams : ¬(normalizeUpstream secondRoute.adminerUpstream = [] || normalizeUpstream secondRoute.authUpstream = []) =
      true := by
    decide
  have hId : ¬(!validLaunchId secondRoute.launchId || secondRoute.databaseId = 0) = true := by decide
  apply Route.accepted_of_block
  · rw [Route.block, sqlConsoleRouteLocations, if_neg hId, if_neg hUpstreams, unlines_cons, routeBegin]
    simp
  · exact notMem_bytes (by decide)
  · exact notMem_bytes (by decide)

theorem oneLine_samplePanel : OneLine samplePanel :=
  ⟨notMem_bytes (by decide), notMem_bytes (by decide), notMem_bytes (by decide),
    notMem_bytes (by decide), List.not_mem_nil, rfl⟩

theorem insertRoutes_distinct_iff_sample :
    ∃ config, insertRoutes (build samplePanel) [sampleRoute] = some config ∧
      (Distinct config ↔ Distinct (build samplePanel) ∧ ([sampleRoute] = [] ∨ ∃ route, [sampleRoute] = [route] ∧
        ∀ location ∈ route.locations, location ∉ lastLocations (build samplePanel))) :=
  insertRoutes_distinct_iff (Or.inl rfl) unmarked_samplePanel (List.forall_mem_singleton.mpr accepted_sampleRoute)
    (List.nodup_singleton _)

/-- Two consoles of the panel do not go together. -/
theorem two_routes_not_distinct :
    ¬∀ (params : Params) (routes : List Route), OneLine params → (∀ route ∈ routes, route.Accepted) →
      (routes.map Route.launchId).Nodup →
      ∃ config, insertRoutes (build params) routes = some config ∧ Distinct config := by
  intro hAll
  have hAccepted : ∀ route ∈ [sampleRoute, secondRoute], route.Accepted := by
    rw [List.forall_mem_cons, List.forall_mem_singleton]
    exact ⟨accepted_sampleRoute, accepted_secondRoute⟩
  have hIds : ([sampleRoute, secondRoute].map Route.launchId).Nodup := by decide
  obtain ⟨config, hConfig, hDistinct⟩ := hAll samplePanel _ oneLine_samplePanel hAccepted hIds
  obtain ⟨other, hOther, hIff⟩ := insertRoutes_distinct_iff_length oneLine_samplePanel hAccepted hIds
  obtain rfl : config = other := Option.some.inj (hConfig.symm.trans hOther)
  exact absurd (hIff.mp hDistinct) (by decide)

end Sample

end ContainerCP.Proxy
