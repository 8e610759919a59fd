import ContainerCP.Proxy.ConfigDirectory
import ContainerCP.Proxy.RouteCoexistence

/-! What the operations on the directory of the configs keep of each other's work. -/
namespace ContainerCP.Proxy

/-! ## Names -/

theorem configName_inj {domain other : Bytes} : configName domain = configName other ↔ domain = other :=
  List.append_left_inj _

/-- No config has the name of a temporary file. -/
theorem configName_ne_append {suffix : Bytes} {c : UInt8} (hSuffix : suffix.getLast? = some c) (hLast : c ≠ ascii 'f')
    (domain name : Bytes) : configName domain ≠ name ++ suffix := by
  intro hEq
  have hConf : (bytes ".conf").getLast? = some (ascii 'f') := by decide
  have hEnd : (configName domain).getLast? = some (ascii 'f') := by
    rw [configName, List.getLast?_append, hConf]
    rfl
  rw [hEq, List.getLast?_append, hSuffix] at hEnd
  exact hLast (Option.some.inj hEnd)

def defaultDomain : Bytes := bytes "00-default"

theorem configName_defaultDomain : configName defaultDomain = defaultName := by decide

theorem findByDomain_eq_none_iff {proxies : List ReverseProxy} {domain : Bytes} :
    findByDomain proxies domain = none ↔ ∀ proxy ∈ proxies, proxy.domain ≠ domain := by
  rw [findByDomain, List.find?_eq_none]
  simp only [decide_eq_true_eq, ne_eq]

/-- The config of a proxy is no orphan. -/
theorem findByDomain_of_isOrphan {sitesDir domain : Bytes} {proxies : List ReverseProxy}
    (h : isOrphan sitesDir proxies (configName domain) = true) : findByDomain proxies domain = none := by
  rw [isOrphan, Bool.and_eq_true, Bool.not_eq_true', ← Bool.not_eq_true, List.contains_iff_mem] at h
  rw [findByDomain_eq_none_iff]
  rintro proxy hMem rfl
  exact h.2 (List.mem_map_of_mem hMem)

/-! ## What an operation does to the directory -/

/-- The new config stays. -/
def Exchange.Replaces (exchange : Exchange) : Prop :=
  exchange.copied = true ∧ exchange.renamed = true ∧ (exchange.valid = true ∨ exchange.restored = false)

/-- The upstream that the records have for a domain. -/
def upstreamOf (proxies : List ReverseProxy) (domain : Bytes) : Bytes :=
  ((findByDomain proxies domain).map ReverseProxy.upstream).getD []

namespace Operation

/-- The config of the domain is built anew. -/
def Rewrites (context : Context) (files : Files) (domain : Bytes) : Operation → Prop
  | ensureCentralProxy _ _ => False
  | createProxy proxy _ => proxy.upstream ≠ [] ∧ proxy.domain = domain
  | attachCertificate target attachment exchange =>
      target = domain ∧ files (configName target) ≠ none ∧ upstreamOf context.proxies target ≠ [] ∧
        attachment.certExists = true ∧ attachment.keyExists = true ∧ exchange.Replaces
  | detachCertificate target exchange =>
      target = domain ∧ files (configName target) ≠ none ∧ upstreamOf context.proxies target ≠ [] ∧ exchange.Replaces
  | syncAllProxies sync => sync.swept = true ∧ findByDomain context.proxies domain ≠ none
  | sqlConsoleRoute _ _ _ => False

/-- The file is removed as an orphan. -/
def Drops (context : Context) (name : Bytes) : Operation → Prop
  | syncAllProxies sync =>
      isOrphan context.sitesDir context.proxies name = true ∧ (sync.swept = true ∨ sync.removed name = true)
  | _ => False

/-- The texts that the operation builds configs from. -/
def built (context : Context) : Operation → List Params
  | ensureCentralProxy _ _ => []
  | createProxy proxy _ => [createParams proxy]
  | attachCertificate domain attachment _ =>
      [attachParams context.webmailUpstream domain (upstreamOf context.proxies domain) attachment]
  | detachCertificate domain _ => [{ domain := domain, upstream := upstreamOf context.proxies domain }]
  | syncAllProxies sync => context.proxies.map (syncParams context.webmailUpstream sync.certificates)
  | sqlConsoleRoute _ _ _ => []

/-- What a write of the operation leaves of its content. -/
def stored : Operation → Bytes → Bytes
  | ensureCentralProxy _ stored => stored
  | createProxy _ stored => stored
  | attachCertificate _ _ exchange => exchange.stored
  | detachCertificate _ exchange => exchange.stored
  | syncAllProxies sync => sync.stored
  | sqlConsoleRoute _ _ attempt => attempt.stored

/-- The route that the operation is about, if it is about one. -/
def call? : Operation → Option (Bytes × Call)
  | sqlConsoleRoute domain call _ => some (domain, call)
  | _ => none

end Operation

/-- What becomes of the config of a domain where no call about a route is made. -/
inductive Effect (context : Context) (operation : Operation) (files files' : Files) (domain : Bytes) : Prop where
  | kept : files' (configName domain) = files (configName domain) → Effect context operation files files' domain
  | built (params : Params) : operation.Rewrites context files domain → params ∈ operation.built context →
      files' (configName domain) = some (operation.stored (build params)) → Effect context operation files files' domain
  | created : configName domain = defaultName → files (configName domain) = none →
      files' (configName domain) = some (operation.stored defaultConf) → Effect context operation files files' domain
  | dropped : operation.Drops context (configName domain) → files' (configName domain) = none →
      Effect context operation files files' domain

theorem buildHttpBlock_eq (domain upstream : Bytes) : buildHttpBlock domain upstream = build { domain, upstream } := by
  simp [buildHttpBlock, build, firstBlock, lastBlock, webmailLocations, unlines]

/-- The exchange touches no other config, and leaves the old or the new one. -/
theorem exchangeConfig_files (exchange : Exchange) {domain old newSuffix bakSuffix : Bytes} (config : Bytes) {files : Files}
    (other : Bytes) (hOld : files (configName domain) = some old)
    (hNewName : ∀ name, configName other ≠ name ++ newSuffix) (hBakName : ∀ name, configName other ≠ name ++ bakSuffix) :
    (exchange.Replaces ∧ domain = other ∧ (exchangeConfig exchange domain (configName domain) old config newSuffix bakSuffix
        files).2 (configName other) = some (exchange.stored config)) ∨
      (exchangeConfig exchange domain (configName domain) old config newSuffix bakSuffix files).2 (configName other) =
        files (configName other) := by
  rw [exchangeConfig, Exchange.Replaces]
  cases exchange.copied with
  | false => exact Or.inr rfl
  | true =>
      cases exchange.renamed with
      | false => simp [Function.update_of_ne, hNewName, hBakName]
      | true =>
          by_cases hDomain : domain = other
          · subst hDomain
            cases exchange.valid with
            | false =>
                cases exchange.restored with
                | false => simp
                | true => simp [hOld]
            | true =>
                cases exchange.cleaned with
                | false => simp
                | true => cases exchange.reloaded <;> simp [Function.update_of_ne, hBakName]
          · have hName : configName other ≠ configName domain := fun hEq => hDomain (configName_inj.mp hEq).symm
            cases exchange.valid with
            | false => cases exchange.restored <;> simp [Function.update_of_ne, hNewName, hBakName, hName]
            | true =>
                cases exchange.cleaned with
                | false => simp [Function.update_of_ne, hNewName, hBakName, hName]
                | true => cases exchange.reloaded <;> simp [Function.update_of_ne, hNewName, hBakName, hName]

theorem generateConfigs_files (webmailUpstream : Bytes) (sync : Sync) (proxies : List ReverseProxy) (files : Files)
    (name : Bytes) :
    (∃ proxy ∈ proxies, configName proxy.domain = name ∧ generateConfigs webmailUpstream sync proxies files name =
        some (sync.stored (build (syncParams webmailUpstream sync.certificates proxy)))) ∨
      ((∀ proxy ∈ proxies, configName proxy.domain ≠ name) ∧
        generateConfigs webmailUpstream sync proxies files name = files name) := by
  induction proxies using List.reverseRecOn with
  | nil => exact Or.inr ⟨by simp, rfl⟩
  | append_singleton proxies proxy ih =>
      rw [generateConfigs, List.foldl_append, List.foldl_cons, List.foldl_nil]
      by_cases hName : configName proxy.domain = name
      · subst hName
        exact Or.inl ⟨proxy, List.mem_append_right _ (List.mem_singleton_self _), rfl, Function.update_self ..⟩
      · rw [Function.update_of_ne (Ne.symm hName)]
        rcases ih with ⟨other, hMem, hOther, hFile⟩ | ⟨hNone, hFile⟩
        · exact Or.inl ⟨other, List.mem_append_left _ hMem, hOther, hFile⟩
        · refine Or.inr ⟨?_, hFile⟩
          rw [List.forall_mem_append, List.forall_mem_singleton]
          exact ⟨hNone, hName⟩

/-- What each operation can do to a config. -/
theorem run_effect (context : Context) (files : Files) (operation : Operation) (hCall : operation.call? = none) (domain : Bytes) :
    Effect context operation files (operation.run context files).2 domain := by
  cases operation with
  | ensureCentralProxy container stored =>
      have hFiles : (ensureCentralProxy container stored files).2 = files ∨ (files defaultName = none ∧
          (ensureCentralProxy container stored files).2 =
            Function.update files defaultName (some (stored defaultConf))) := by
        rw [ensureCentralProxy]
        repeat' split
        all_goals simp_all
      change Effect context _ files (ensureCentralProxy container stored files).2 domain
      rcases hFiles with hFiles | ⟨hNone, hFiles⟩
      · rw [hFiles]
        exact Effect.kept rfl
      · rw [hFiles]
        by_cases hName : configName domain = defaultName
        · apply Effect.created hName
          · rw [hName, hNone]
          · rw [hName, Function.update_self]
            rfl
        · exact Effect.kept (Function.update_of_ne hName ..)
  | createProxy proxy stored =>
      change Effect context _ files (createProxy proxy stored files).2 domain
      rw [createProxy]
      split
      · exact Effect.kept rfl
      · next hUpstream =>
        by_cases hDomain : proxy.domain = domain
        · subst hDomain
          exact Effect.built (createParams proxy) ⟨hUpstream, rfl⟩ (List.mem_singleton_self _) (Function.update_self ..)
        · apply Effect.kept
          exact Function.update_of_ne (fun hEq => hDomain (configName_inj.mp hEq).symm) ..
  | attachCertificate target attachment exchange =>
      change Effect context _ files
        (attachCertificate context.webmailUpstream context.proxies target attachment exchange files).2 domain
      rw [attachCertificate]
      split
      · exact Effect.kept rfl
      · next old hOld =>
        dsimp only
        split
        · exact Effect.kept rfl
        · next hUpstream =>
          split
          · exact Effect.kept rfl
          · next hCert =>
            split
            · exact Effect.kept rfl
            · next hKey =>
              have hNew : (bytes ".new").getLast? = some (ascii 'w') := by decide
              have hBak : (bytes ".bak").getLast? = some (ascii 'k') := by decide
              rcases exchangeConfig_files exchange _ domain hOld (configName_ne_append hNew (by decide) domain)
                  (configName_ne_append hBak (by decide) domain) with
                ⟨hReplaces, hDomain, hFile⟩ | hFile
              · refine Effect.built _ ⟨hDomain, ?_, hUpstream, by simpa using hCert, by simpa using hKey, hReplaces⟩
                  (List.mem_singleton_self _) hFile
                rw [hOld]
                exact Option.some_ne_none _
              · exact Effect.kept hFile
  | detachCertificate target exchange =>
      change Effect context _ files (detachCertificate context.proxies target exchange files).2 domain
      rw [detachCertificate]
      split
      · exact Effect.kept rfl
      · next old hOld =>
        dsimp only
        split
        · exact Effect.kept rfl
        · next hUpstream =>
          have hNew : (bytes ".detach_new").getLast? = some (ascii 'w') := by decide
          have hBak : (bytes ".detach_bak").getLast? = some (ascii 'k') := by decide
          rw [buildHttpBlock_eq]
          rcases exchangeConfig_files exchange _ domain hOld (configName_ne_append hNew (by decide) domain)
              (configName_ne_append hBak (by decide) domain) with ⟨hReplaces, hDomain, hFile⟩ | hFile
          · refine Effect.built _ ⟨hDomain, ?_, hUpstream, hReplaces⟩ (List.mem_singleton_self _) hFile
            rw [hOld]
            exact Option.some_ne_none _
          · exact Effect.kept hFile
  | syncAllProxies sync =>
      change Effect context _ files
        (syncAllProxies context.sitesDir context.webmailUpstream context.proxies sync files).2 domain
      cases hSwept : sync.swept with
      | false =>
          rw [syncAllProxies, hSwept]
          cases hRemoved : isOrphan context.sitesDir context.proxies (configName domain) &&
              sync.removed (configName domain) with
          | false => exact Effect.kept (if_neg (by simp [hRemoved]))
          | true =>
              rw [Bool.and_eq_true] at hRemoved
              exact Effect.dropped ⟨hRemoved.1, Or.inr hRemoved.2⟩ (by simp [hRemoved])
      | true =>
          have hFiles : (syncAllProxies context.sitesDir context.webmailUpstream context.proxies sync files).2 =
              generateConfigs context.webmailUpstream sync context.proxies
                fun name => if isOrphan context.sitesDir context.proxies name then none else files name := by
            rw [syncAllProxies, hSwept]
            by_cases hInvalid : sync.invalid = 0
            · cases sync.reloaded <;> simp [hInvalid]
            · simp [hInvalid]
          rw [hFiles]
          rcases generateConfigs_files context.webmailUpstream sync context.proxies _ (configName domain) with
            ⟨proxy, hMem, hName, hFile⟩ | ⟨hNone, hFile⟩
          · refine Effect.built _ ⟨hSwept, ?_⟩ (List.mem_map_of_mem hMem) hFile
            rw [Ne, findByDomain_eq_none_iff]
            exact fun hAll => hAll proxy hMem (configName_inj.mp hName)
          · cases hOrphan : isOrphan context.sitesDir context.proxies (configName domain) with
            | false => exact Effect.kept (by rw [hFile, hOrphan]; rfl)
            | true => exact Effect.dropped ⟨hOrphan, Or.inl hSwept⟩ (by rw [hFile, hOrphan]; rfl)
  | sqlConsoleRoute target call attempt => cases hCall

/-! ## Runs -/

/-- The directory, with what was put into it: the routes that were installed on each domain
and not removed, and the default config. -/
structure Store where
  files : Files
  installed : Bytes → List Route
  default : Option Bytes

namespace Store

def empty : Store := ⟨fun _ => none, fun _ => [], none⟩

/-- The routes of the domains that are still proxied. -/
def proxied (store : Store) (context : Context) (domain : Bytes) : List Route :=
  if findByDomain context.proxies domain = none then [] else store.installed domain

/-- The routes behind an operation: a call changes them where it succeeds. -/
def routesAfter (store : Store) (context : Context) (operation : Operation) (result : Option OperationResult) :
    Bytes → List Route :=
  match operation.call?, result with
  | some (domain, call), some (.ok _) =>
      Function.update (store.proxied context) domain (applyCall (store.proxied context domain) call)
  | _, _ => store.proxied context

/-- The default config behind an operation: what `ensure_central_proxy` writes. -/
def defaultAfter (store : Store) (operation : Operation) (files : Files) : Option Bytes :=
  match operation with
  | .ensureCentralProxy _ _ => (if store.files defaultName = none then files defaultName else none) <|> store.default
  | _ => store.default

def after (store : Store) (context : Context) (operation : Operation) : Store :=
  let result := operation.run context store.files
  ⟨result.2, store.routesAfter context operation result.1, store.defaultAfter operation result.2⟩

/-- What was put into the directory is still there. -/
structure Kept (store : Store) : Prop where
  routes : ∀ domain, ∀ route ∈ store.installed domain, ∃ file,
    store.files (configName domain) = some file ∧ route.block <:+: file
  default : ∀ file, store.default = some file → store.files defaultName = some file

end Store

/-- The stores that the operations lead to, where each of them is allowed. -/
inductive Leads (allowed : Context → Store → Operation → Prop) : Store → Prop where
  | start : Leads allowed Store.empty
  | step {store : Store} (context : Context) (operation : Operation) : Leads allowed store → allowed context store operation →
      Leads allowed (store.after context operation)

/-- An operation that does away with nothing: no config with a route is built anew, the
default config is let alone, the texts are lines, and what is written gets into the file. -/
structure Harmless (context : Context) (store : Store) (operation : Operation) : Prop where
  routes : ∀ domain, operation.Rewrites context store.files domain → store.proxied context domain = []
  default : store.default ≠ none → ¬operation.Rewrites context store.files defaultDomain ∧
    ¬operation.Drops context defaultName ∧ ∀ call, operation.call? ≠ some (defaultDomain, call)
  texts : ∀ params ∈ operation.built context, OneLine params
  writes : ∀ content, operation.stored content = content
  call : ∀ domain call, operation.call? = some (domain, call) → call.Valid

/-! ## The invariant -/

/-- A config of the builder with routes in it, the given ones among them. -/
def Composed (file : Bytes) (kept : List Route) : Prop :=
  ∃ front lines routes, Front front lines ∧ Sound routes ∧ file = compose front routes ∧ ∀ route ∈ kept, route ∈ routes

/-- Where there is no config there are no routes. -/
def Holds (file : Option Bytes) (kept : List Route) : Prop :=
  match file with
  | none => kept = []
  | some file => Composed file kept

theorem Composed.infix {file : Bytes} {kept : List Route} (h : Composed file kept) {route : Route} (hMem : route ∈ kept) :
    route.block <:+: file := by
  obtain ⟨front, lines, routes, -, -, rfl, hKept⟩ := h
  obtain ⟨before, behind, rfl⟩ := List.append_of_mem (hKept route hMem)
  refine ⟨front ++ before.flatMap Route.block, behind.flatMap Route.block ++ serverEnd, ?_⟩
  simp [compose]

theorem composed_build {params : Params} (h : OneLine params) : Composed (build params) [] := by
  obtain ⟨lines, hFront⟩ := exists_front (Or.inl h.locations)
    (unmarked_build h.domain h.upstream h.cert h.key h.webmail h.locations)
  exact ⟨_, lines, [], hFront, ⟨by simp, List.nodup_nil⟩, build_compose params, by simp⟩

theorem composed_defaultConf : Composed defaultConf [] := by
  have hLines : ∀ line ∈ [bytes "server \x7b", bytes "    listen 80 default_server;", bytes "    server_name _;",
      bytes "    return 404;"], Closed line := by
    simp only [List.forall_mem_cons]
    exact ⟨closed_bytes (by decide), closed_bytes (by decide), closed_bytes (by decide),
      closed_bytes (by decide), by simp⟩
  refine ⟨_, _, [], ⟨rfl, List.cons_ne_nil _ _, fun line hLine => (hLines line hLine).one, ?_⟩,
    ⟨by simp, List.nodup_nil⟩, by simp [compose, defaultConf], by simp⟩
  exact fun launchId _ line hLine => (hLines line hLine).not_suffix (routeBegin_getLast? _) (by decide)

theorem Holds.subset {file : Option Bytes} {kept fewer : List Route} (h : Holds file kept)
    (hSubset : ∀ route ∈ fewer, route ∈ kept) : Holds file fewer := by
  cases file with
  | none =>
      obtain rfl : kept = [] := h
      exact List.eq_nil_iff_forall_not_mem.mpr fun route hMem => absurd (hSubset route hMem) List.not_mem_nil
  | some file =>
      obtain ⟨front, lines, routes, hFront, hSound, hFile, hKept⟩ := h
      exact ⟨front, lines, routes, hFront, hSound, hFile, fun route hMem => hKept route (hSubset route hMem)⟩

theorem Store.proxied_subset (store : Store) (context : Context) (domain : Bytes) :
    ∀ route ∈ store.proxied context domain, route ∈ store.installed domain := by
  intro route hMem
  rw [Store.proxied] at hMem
  split at hMem
  · cases hMem
  · exact hMem

/-- Each config is one of the builder, with the routes that were installed on its domain. -/
structure Store.Composed (store : Store) : Prop where
  holds : ∀ domain, Holds (store.files (configName domain)) (store.installed domain)
  default : ∀ file, store.default = some file → store.files defaultName = some file

theorem Store.Composed.kept {store : Store} (h : store.Composed) : store.Kept where
  routes := by
    intro domain route hMem
    have hHolds := h.holds domain
    cases hFile : store.files (configName domain) with
    | none =>
        rw [hFile] at hHolds
        rw [show store.installed domain = [] from hHolds] at hMem
        cases hMem
    | some file =>
        rw [hFile] at hHolds
        exact ⟨file, rfl, Proxy.Composed.infix hHolds hMem⟩
  default := h.default

/-! ## Calls about routes -/

/-- Where the config cannot be read, nothing is written, and no route is installed. -/
theorem run_unreadable (call : Call) (attempt : Attempt) (h : attempt.readable = false) (file : Bytes) :
    (call.run attempt file).2 = file ∧ ((∃ message, (call.run attempt file).1 = .ok message) → call.isUpsert = false) := by
  cases call with
  | upsert launchId databaseId adminerUpstream authUpstream siteNetwork =>
      simp only [Call.run, upsertSqlConsoleRoute, h]
      constructor
      · repeat' split
        all_goals first | rfl | contradiction
      · rintro ⟨message, hOk⟩
        repeat' split at hOk
        all_goals first | cases hOk | contradiction
  | remove launchId => exact ⟨by simp [Call.run, removeSqlConsoleRoute, h], fun _ => rfl⟩

theorem applyCall_of_remove {routes : List Route} {call : Call} (h : call.isUpsert = false) :
    ∀ route ∈ applyCall routes call, route ∈ routes := by
  cases call with
  | upsert launchId databaseId adminerUpstream authUpstream siteNetwork => cases h
  | remove launchId => exact fun route hMem => List.mem_of_mem_filter hMem

theorem applyCall_subset {kept routes : List Route} (h : ∀ route ∈ kept, route ∈ routes) (call : Call) :
    ∀ route ∈ applyCall kept call, route ∈ applyCall routes call := by
  intro route hMem
  rw [mem_applyCall_iff] at hMem ⊢
  split at hMem
  · next hId => rwa [if_pos hId]
  · next hId =>
    rw [if_neg hId]
    exact h route hMem

theorem routeCall_of_some (files : Files) (domain : Bytes) {file : Bytes} (h : files (configName domain) = some file)
    (call : Call) (attempt : Attempt) :
    routeCall domain call attempt files =
      ((call.run attempt file).1, Function.update files (configName domain) (some (call.run attempt file).2)) := by
  have hAttempt : { attempt with readable := attempt.readable && true } = attempt := by simp
  rw [routeCall, h]
  simp only [Option.isSome_some, Option.getD_some, if_true, hAttempt]

/-- A call about a route, on the config of its domain. -/
theorem routeCall_holds {domain : Bytes} {call : Call} {attempt : Attempt} {files : Files} {kept : List Route}
    (hHolds : Holds (files (configName domain)) kept) (hValid : call.Valid)
    (hStored : ∀ content, attempt.stored content = content) :
    (∀ message, (routeCall domain call attempt files).1 = .error message →
        Holds ((routeCall domain call attempt files).2 (configName domain)) kept) ∧
      ∀ message, (routeCall domain call attempt files).1 = .ok message →
        Holds ((routeCall domain call attempt files).2 (configName domain)) (applyCall kept call) := by
  cases hFile : files (configName domain) with
  | none =>
      have hUnread := run_unreadable call { attempt with readable := attempt.readable && false } (by simp) []
      rw [hFile] at hHolds
      simp only [routeCall, hFile, Option.isSome_none, Bool.false_eq_true, if_false, Option.getD_none]
      refine ⟨fun _ _ => hHolds, fun message hOk => hHolds.subset ?_⟩
      exact applyCall_of_remove (hUnread.2 ⟨message, hOk⟩)
  | some file =>
      rw [hFile] at hHolds
      rw [routeCall_of_some files domain hFile]
      dsimp only
      rw [Function.update_self]
      cases hRead : attempt.readable with
      | false =>
          have hUnread := run_unreadable call attempt hRead file
          rw [hUnread.1]
          refine ⟨fun _ _ => hHolds, fun message hOk => hHolds.subset ?_⟩
          exact applyCall_of_remove (hUnread.2 ⟨message, hOk⟩)
      | true =>
          obtain ⟨front, lines, routes, hFront, hSound, rfl, hKept⟩ := hHolds
          have hReliable : Reliable attempt := ⟨hRead, hStored⟩
          constructor
          · intro message hError
            have hSame : (call.run attempt (compose front routes)).2 = compose front routes :=
              run_error hReliable (Prod.ext hError rfl)
            rw [hSame]
            exact ⟨front, lines, routes, hFront, hSound, rfl, hKept⟩
          · intro message hOk
            obtain ⟨hNew, hNewSound⟩ := run_ok hFront hSound hReliable hValid (run_eq_of_ok hOk)
            rw [hNew]
            exact ⟨front, lines, _, hFront, hNewSound, rfl, applyCall_subset hKept call⟩

/-- A call about a route touches no other file. -/
theorem routeCall_other {domain name : Bytes} (call : Call) (attempt : Attempt) (files : Files) (h : name ≠ configName domain) :
    (routeCall domain call attempt files).2 name = files name := by
  rw [routeCall]
  dsimp only
  split
  · exact Function.update_of_ne h ..
  · rfl

theorem installed_after (store : Store) (context : Context) {operation : Operation} (h : operation.call? = none) :
    (store.after context operation).installed = store.proxied context := by
  simp [Store.after, Store.routesAfter, h]

theorem installed_after_routeCall (store : Store) (context : Context) (domain : Bytes) (call : Call) (attempt : Attempt) :
    (store.after context (.sqlConsoleRoute domain call attempt)).installed =
      match (routeCall domain call attempt store.files).1 with
      | .error _ => store.proxied context
      | .ok _ => Function.update (store.proxied context) domain (applyCall (store.proxied context domain) call) := by
  simp only [Store.after, Store.routesAfter, Operation.call?, Operation.run, Prod.map_fst]
  cases (routeCall domain call attempt store.files).1 with
  | error message => rfl
  | ok message => rfl

/-! ## Steps -/

namespace Store.Composed

variable {store : Store} {context : Context}

/-- A step without a call about a route. -/
theorem holds_of_effect (h : store.Composed) {operation : Operation} (hHarmless : Harmless context store operation)
    {files' : Files} {domain : Bytes} (hEffect : Effect context operation store.files files' domain) :
    Holds (files' (configName domain)) (store.proxied context domain) := by
  cases hEffect with
  | kept hFile =>
      rw [hFile]
      exact (h.holds domain).subset (store.proxied_subset context domain)
  | built params hRewrites hBuilt hFile =>
      rw [hFile, hHarmless.routes domain hRewrites, hHarmless.writes]
      exact composed_build (hHarmless.texts params hBuilt)
  | created hName hNone hFile =>
      have hHolds := h.holds domain
      rw [hNone] at hHolds
      have hRoutes : store.proxied context domain = [] := by
        rw [Store.proxied, show store.installed domain = [] from hHolds, ite_self]
      rw [hFile, hRoutes, hHarmless.writes]
      exact composed_defaultConf
  | dropped hDrops hFile =>
      have hRoutes : store.proxied context domain = [] := by
        cases operation with
        | syncAllProxies sync => exact if_pos (findByDomain_of_isOrphan hDrops.1)
        | _ => cases hDrops
      rw [hFile, hRoutes]
      rfl

/-- The default config stays, or is written. -/
theorem default_of_effect (h : store.Composed) {operation : Operation} (hHarmless : Harmless context store operation)
    {files' : Files} (hEffect : Effect context operation store.files files' defaultDomain) :
    ∀ file, store.defaultAfter operation files' = some file → files' defaultName = some file := by
  intro file hAfter
  have hOld : store.default = some file → files' defaultName = some file := by
    intro hDefault
    have hFile := h.default file hDefault
    have hSafe := hHarmless.default (hDefault ▸ Option.some_ne_none file)
    rw [← configName_defaultDomain] at hFile hSafe ⊢
    cases hEffect with
    | kept hKept => rw [hKept, hFile]
    | built params hRewrites _ _ => exact absurd hRewrites hSafe.1
    | created _ hNone _ => exact absurd (hNone.symm.trans hFile) (Option.some_ne_none file).symm
    | dropped hDrops _ => exact absurd hDrops hSafe.2.1
  cases operation with
  | ensureCentralProxy container stored =>
      rw [Store.defaultAfter] at hAfter
      split at hAfter
      · cases hNew : files' defaultName with
        | none =>
            rw [hNew] at hAfter
            rw [← hNew]
            exact hOld hAfter
        | some new =>
            rw [hNew] at hAfter
            exact hAfter
      · exact hOld hAfter
  | _ => exact hOld hAfter

/-- One harmless call about a route. -/
theorem after_routeCall (h : store.Composed) {domain : Bytes} {call : Call} {attempt : Attempt}
    (hHarmless : Harmless context store (.sqlConsoleRoute domain call attempt)) :
    (store.after context (.sqlConsoleRoute domain call attempt)).Composed := by
  have hProxied : ∀ other, Holds (store.files (configName other)) (store.proxied context other) :=
    fun other => (h.holds other).subset (store.proxied_subset context other)
  have hTarget := routeCall_holds (hProxied domain) (hHarmless.call domain call rfl) hHarmless.writes
  constructor
  · intro other
    change Holds ((routeCall domain call attempt store.files).2 (configName other)) _
    rw [installed_after_routeCall]
    by_cases hDomain : other = domain
    · subst hDomain
      cases hResult : (routeCall other call attempt store.files).1 with
      | error message => exact hTarget.1 message hResult
      | ok message =>
          dsimp only
          rw [Function.update_self]
          exact hTarget.2 message hResult
    · rw [routeCall_other _ _ _ fun hEq => hDomain (configName_inj.mp hEq)]
      cases (routeCall domain call attempt store.files).1 with
      | error message => exact hProxied other
      | ok message =>
          dsimp only
          rw [Function.update_of_ne hDomain]
          exact hProxied other
  · intro file hDefault
    have hNotDefault := (hHarmless.default (hDefault ▸ Option.some_ne_none file)).2.2 call
    have hName : defaultName ≠ configName domain := by
      rw [← configName_defaultDomain]
      intro hEq
      obtain rfl := configName_inj.mp hEq
      exact hNotDefault rfl
    change (routeCall domain call attempt store.files).2 defaultName = some file
    rw [routeCall_other _ _ _ hName]
    exact h.default file hDefault

/-- One harmless operation. -/
theorem after (h : store.Composed) {operation : Operation} (hHarmless : Harmless context store operation) :
    (store.after context operation).Composed := by
  by_cases hCall : operation.call? = none
  · have hEffect := run_effect context store.files operation hCall
    refine ⟨?_, h.default_of_effect hHarmless (hEffect defaultDomain)⟩
    intro domain
    rw [installed_after store context hCall]
    exact h.holds_of_effect hHarmless (hEffect domain)
  · cases operation with
    | sqlConsoleRoute domain call attempt => exact h.after_routeCall hHarmless
    | _ => exact absurd rfl hCall

end Store.Composed

/-- Operations that are harmless keep each other's work: in each state of a run, the routes
that were installed and not removed on domains still proxied stand in their configs, and the
default config is the one that was written. -/
theorem leads_kept {store : Store} (h : Leads Harmless store) : store.Kept := by
  have hComposed : store.Composed := by
    induction h with
    | start => exact ⟨fun _ => rfl, fun file hDefault => absurd hDefault (Option.some_ne_none file).symm⟩
    | step context operation _ hHarmless ih => exact ih.after hHarmless
  exact hComposed.kept

/-! ## What a renewal and a sync do away with -/

theorem not_isInfix_of_cutAtText {pattern text : Bytes} (h : cutAtText pattern text = none) : ¬pattern <:+: text := by
  induction text with
  | nil =>
      rw [cutAtText] at h
      intro hInfix
      rw [List.infix_nil.mp hInfix] at h
      simp at h
  | cons c rest ih =>
      rw [cutAtText] at h
      split at h
      · cases h
      · next hPrefix =>
        rw [Option.map_eq_none_iff] at h
        intro hInfix
        rcases List.infix_cons_iff.mp hInfix with hStart | hRest
        · exact hPrefix (by simpa using hStart)
        · exact ih h hRest

/-- A config that is built anew holds no route. -/
theorem not_isInfix_build {params : Params} {route : Route} (h : OneLine params) (hRoute : route.Accepted) :
    ¬route.block <:+: build params := by
  have hUnmarked := unmarked_build h.domain h.upstream h.cert h.key h.webmail h.locations route.launchId hRoute.id
  intro hInfix
  apply not_isInfix_of_cutAtText hUnmarked
  refine List.IsInfix.trans (List.IsPrefix.isInfix ?_) hInfix
  rw [hRoute.block, Route.lines, unlines_cons, routeBeginMarker]
  exact ⟨_, by rw [List.append_assoc, List.singleton_append]⟩

/-- A certificate that is attached to a domain takes its routes away. -/
theorem attachCertificate_files (webmailUpstream : Bytes) {domain : Bytes} {proxies : List ReverseProxy}
    (attachment : Attachment) (exchange : Exchange) {files : Files} (hFile : files (configName domain) ≠ none)
    (hUpstream : upstreamOf proxies domain ≠ []) (hCert : attachment.certExists = true) (hKey : attachment.keyExists = true)
    (hCopied : exchange.copied = true) (hRenamed : exchange.renamed = true) (hValid : exchange.valid = true)
    (hCleaned : exchange.cleaned = true) (hReloaded : exchange.reloaded = .ok ()) :
    (attachCertificate webmailUpstream proxies domain attachment exchange files).1 = some (.ok []) ∧
      (attachCertificate webmailUpstream proxies domain attachment exchange files).2 (configName domain) =
        some (exchange.stored (build (attachParams webmailUpstream domain (upstreamOf proxies domain) attachment))) := by
  obtain ⟨old, hOld⟩ := Option.ne_none_iff_exists'.mp hFile
  have hBak : (bytes ".bak").getLast? = some (ascii 'k') := by decide
  have hBakName := configName_ne_append hBak (by decide) domain (configName domain)
  rw [upstreamOf] at hUpstream ⊢
  simp [attachCertificate, exchangeConfig, hOld, hUpstream, hCert, hKey, hCopied, hRenamed, hValid, hCleaned, hReloaded,
    Function.update_of_ne hBakName]

section Sample

def panelProxy : ReverseProxy := ⟨samplePanel.domain, samplePanel.upstream, 0⟩

def sampleContext : Context := ⟨bytes "/srv/containercp/proxy/sites/", [], [panelProxy]⟩

/-- The panel is proxied, and a console is open. -/
def openConsole : Store :=
  (Store.empty.after sampleContext (.createProxy panelProxy id)).after sampleContext
    (.sqlConsoleRoute panelProxy.domain sampleUpsert sampleAttempt)

theorem oneLine_panel (params : Params) (hDomain : params.domain = samplePanel.domain)
    (hUpstream : params.upstream = samplePanel.upstream) (hCert : params.certPath = samplePanel.certPath ∨ params.certPath = [])
    (hKey : params.keyPath = samplePanel.keyPath ∨ params.keyPath = []) (hWebmail : params.webmailUpstream = [])
    (hMore : params.sqlConsoleLocations = []) : OneLine params where
  domain := hDomain ▸ oneLine_samplePanel.domain
  upstream := hUpstream ▸ oneLine_samplePanel.upstream
  cert := hCert.elim (fun h => h ▸ oneLine_samplePanel.cert) fun h => h ▸ List.not_mem_nil
  key := hKey.elim (fun h => h ▸ oneLine_samplePanel.key) fun h => h ▸ List.not_mem_nil
  webmail := hWebmail ▸ List.not_mem_nil
  locations := hMore

theorem oneLine_createPanel : OneLine (createParams panelProxy) :=
  oneLine_panel _ rfl rfl (Or.inr rfl) (Or.inr rfl) rfl rfl

theorem upstream_ne_nil : samplePanel.upstream ≠ [] := by decide

theorem findByDomain_panel : findByDomain sampleContext.proxies panelProxy.domain = some panelProxy := by
  simp [findByDomain, sampleContext]

theorem files_createPanel : (Store.empty.after sampleContext (.createProxy panelProxy id)).files (configName panelProxy.domain) =
    some (build (createParams panelProxy)) := by
  have hUpstream : panelProxy.upstream ≠ [] := upstream_ne_nil
  simp [Store.after, Operation.run, createProxy, hUpstream]

theorem routeCall_panel : (routeCall panelProxy.domain sampleUpsert sampleAttempt
    (Store.empty.after sampleContext (.createProxy panelProxy id)).files).1 =
      .ok (bytes "SQL Console proxy route installed") := by
  have hOneLine := oneLine_createPanel
  obtain ⟨lines, hFront⟩ := exists_front (Or.inl hOneLine.locations) (unmarked_build hOneLine.domain hOneLine.upstream
    hOneLine.cert hOneLine.key hOneLine.webmail hOneLine.locations)
  have hBlock : sqlConsoleRouteLocations sampleLaunchId 7 sampleRoute.adminerUpstream sampleRoute.authUpstream ≠ [] := by
    have hText := accepted_sampleRoute.block
    rw [Route.block] at hText
    rw [show sampleLaunchId = sampleRoute.launchId from rfl, show (7 : UInt64) = sampleRoute.databaseId from rfl, hText,
      Route.lines, unlines_cons, routeBegin]
    simp
  rw [routeCall_of_some _ panelProxy.domain files_createPanel, build_compose, sampleUpsert]
  dsimp only
  exact run_upsert_ok hFront ⟨by simp, List.nodup_nil⟩ validLaunchId_sample hBlock rfl rfl rfl rfl

theorem installed_openConsole : openConsole.installed panelProxy.domain = [sampleRoute] := by
  rw [openConsole, installed_after_routeCall, routeCall_panel]
  dsimp only
  rw [Function.update_self, Store.proxied, findByDomain_panel, if_neg (Option.some_ne_none _)]
  rfl

theorem files_openConsole : openConsole.files (configName panelProxy.domain) ≠ none := by
  change (routeCall panelProxy.domain sampleUpsert sampleAttempt
    (Store.empty.after sampleContext (.createProxy panelProxy id)).files).2 (configName panelProxy.domain) ≠ none
  rw [routeCall_of_some _ panelProxy.domain files_createPanel]
  dsimp only
  rw [Function.update_self]
  exact Option.some_ne_none _

theorem leads_openConsole : Leads Harmless openConsole := by
  apply Leads.step _ _ (Leads.step _ _ Leads.start _)
  · refine ⟨fun _ hRewrites => absurd hRewrites id, fun hDefault => absurd rfl hDefault, by simp [Operation.built],
      fun _ => rfl, ?_⟩
    intro domain call hCall
    cases hCall
    exact valid_sampleUpsert
  · refine ⟨fun domain _ => ?_, fun hDefault => absurd rfl hDefault, ?_, fun _ => rfl, fun _ _ hCall => absurd hCall ?_⟩
    · rw [Store.proxied]
      exact ite_self _
    · exact List.forall_mem_singleton.mpr oneLine_createPanel
    · exact (Option.some_ne_none _).symm

theorem leads_kept_sample : openConsole.Kept := leads_kept leads_openConsole

/-- A certificate for the panel. -/
def panelAttachment : Attachment := ⟨samplePanel.certPath, samplePanel.keyPath, true, true, true⟩

def panelExchange : Exchange := ⟨true, true, id, true, true, true, .ok ()⟩

/-- An operation that succeeds. -/
def Succeeds (context : Context) (store : Store) (operation : Operation) : Prop :=
  ∃ message, (operation.run context store.files).1 = some (.ok message)

theorem run_routeCall (context : Context) (files : Files) (domain : Bytes) (call : Call) (attempt : Attempt) :
    (Operation.run context files (.sqlConsoleRoute domain call attempt)).1 = some (routeCall domain call attempt files).1 :=
  rfl

theorem run_ensureCentralProxy (context : Context) (files : Files) (container : Container) (stored : Bytes → Bytes) :
    (Operation.run context files (.ensureCentralProxy container stored)).1 =
      some (ensureCentralProxy container stored files).1 :=
  rfl

theorem run_attachCertificate (context : Context) (files : Files) (domain : Bytes) (attachment : Attachment)
    (exchange : Exchange) : Operation.run context files (.attachCertificate domain attachment exchange) =
      attachCertificate context.webmailUpstream context.proxies domain attachment exchange files :=
  rfl

theorem succeeds_createPanel : Succeeds sampleContext Store.empty (.createProxy panelProxy id) := by
  have hNe : panelProxy.upstream ≠ [] := upstream_ne_nil
  exact ⟨[], by simp [Operation.run, createProxy, hNe]⟩

theorem leads_succeeds_openConsole : Leads Succeeds openConsole := by
  apply Leads.step _ _ (Leads.step _ _ Leads.start succeeds_createPanel)
  refine ⟨bytes "SQL Console proxy route installed", ?_⟩
  rw [run_routeCall, routeCall_panel]

def panelContainer : Container := ⟨false, false, false, false, true, true⟩

def panelSync : Sync := ⟨fun _ => ⟨false, false, false, false, [], [], false⟩, true, fun _ => true, id, 0, .ok ()⟩

/-- The default config, written and taken for an orphan. -/
theorem ensureCentralProxy_panel (files : Files) (h : files defaultName = none) :
    ensureCentralProxy panelContainer id files =
      (.ok (bytes "Central proxy created and running"), Function.update files defaultName (some defaultConf)) := by
  rw [ensureCentralProxy, if_pos h]
  rfl

theorem syncAllProxies_panel (files : Files) :
    (syncAllProxies sampleContext.sitesDir sampleContext.webmailUpstream sampleContext.proxies panelSync files).1 =
        some (.ok (bytes "Proxy sync completed")) ∧
      (syncAllProxies sampleContext.sitesDir sampleContext.webmailUpstream sampleContext.proxies panelSync files).2
        defaultName = none := by
  have hName : defaultName ≠ configName panelProxy.domain := by decide
  have hOrphan : isOrphan sampleContext.sitesDir sampleContext.proxies defaultName = true := by decide
  have hFiles : ∀ files : Files, generateConfigs sampleContext.webmailUpstream panelSync sampleContext.proxies files
      defaultName = files defaultName := by
    intro files
    rw [generateConfigs, sampleContext, List.foldl_cons, List.foldl_nil, Function.update_of_ne hName]
  constructor
  · rfl
  · change generateConfigs sampleContext.webmailUpstream panelSync sampleContext.proxies
      (fun name => if isOrphan sampleContext.sitesDir sampleContext.proxies name then none else files name) defaultName = none
    rw [hFiles, if_pos hOrphan]

/-- A renewal takes the route of the open console away, and a sync the default config,
although all operations succeed. -/
theorem leads_not_kept :
    (¬∀ store, Leads Succeeds store → ∀ domain, ∀ route ∈ store.installed domain, ∃ file,
        store.files (configName domain) = some file ∧ route.block <:+: file) ∧
      ¬∀ store, Leads Succeeds store → ∀ file, store.default = some file → store.files defaultName = some file := by
  constructor
  · intro hAll
    have hUpstream : upstreamOf sampleContext.proxies panelProxy.domain = samplePanel.upstream := by
      rw [upstreamOf, findByDomain_panel]
      rfl
    have hAttach := attachCertificate_files sampleContext.webmailUpstream panelAttachment panelExchange files_openConsole
      (hUpstream ▸ upstream_ne_nil) rfl rfl rfl rfl rfl rfl rfl
    have hLeads : Leads Succeeds
        (openConsole.after sampleContext (.attachCertificate panelProxy.domain panelAttachment panelExchange)) :=
      Leads.step _ _ leads_succeeds_openConsole ⟨[], by rw [run_attachCertificate, hAttach.1]⟩
    have hInstalled : sampleRoute ∈ (openConsole.after sampleContext
        (.attachCertificate panelProxy.domain panelAttachment panelExchange)).installed panelProxy.domain := by
      rw [installed_after openConsole sampleContext rfl, Store.proxied, findByDomain_panel, if_neg (Option.some_ne_none _), installed_openConsole]
      exact List.mem_singleton_self _
    obtain ⟨file, hFile, hInfix⟩ := hAll _ hLeads panelProxy.domain sampleRoute hInstalled
    obtain rfl := Option.some.inj (hAttach.2.symm.trans hFile)
    refine not_isInfix_build (oneLine_panel _ rfl ?_ (Or.inl rfl) (Or.inl rfl) rfl rfl) accepted_sampleRoute hInfix
    exact hUpstream
  · intro hAll
    have hEnsure := ensureCentralProxy_panel Store.empty.files rfl
    have hLeads : Leads Succeeds ((Store.empty.after sampleContext (.ensureCentralProxy panelContainer id)).after sampleContext
        (.syncAllProxies panelSync)) :=
      Leads.step _ _ (Leads.step _ _ Leads.start ⟨_, by rw [run_ensureCentralProxy, hEnsure]⟩)
        ⟨_, (syncAllProxies_panel _).1⟩
    have hDefault : (Store.empty.after sampleContext (.ensureCentralProxy panelContainer id)).default = some defaultConf := by
      change (if Store.empty.files defaultName = none then
        (ensureCentralProxy panelContainer id Store.empty.files).2 defaultName else none).or none = some defaultConf
      rw [if_pos (show Store.empty.files defaultName = none from rfl), hEnsure]
      dsimp only
      rw [Function.update_self]
      rfl
    have hFile := hAll _ hLeads defaultConf hDefault
    have hNone := (syncAllProxies_panel (Store.empty.after sampleContext (.ensureCentralProxy panelContainer id)).files).2
    exact absurd (hNone.symm.trans hFile) (Option.some_ne_none _).symm

end Sample

end ContainerCP.Proxy
