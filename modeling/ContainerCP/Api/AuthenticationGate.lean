import ContainerCP.Api.ApiServer
import ContainerCP.Api.WebServer

/-! The gate in front of the API: what a request needs to be passed on, and that the API
reads the same method and path from it as the gate did. -/
namespace ContainerCP.Api.WebServer

open Auth

/-! ## Who may pass -/

/-- One of the lines before the first empty one is a header with this name and value. -/
def HasHeader (raw name value : Bytes) : Prop :=
  ∃ line ∈ headerLines raw, line = name ++ ascii ':' :: value ∨ line = name ++ ascii ':' :: ascii ' ' :: value

theorem hasHeader_extractHeader {raw name : Bytes} (h : extractHeader raw name ≠ []) :
    HasHeader raw name (extractHeader raw name) := by
  cases hFind : ((headerLines raw).filterMap splitHeader).find? (·.1 = name) with
  | none => simp [extractHeader, hFind] at h
  | some header =>
      have hName : header.1 = name := by simpa using List.find?_some hFind
      obtain ⟨line, hMem, hSplit⟩ := List.mem_filterMap.mp (List.mem_of_find?_eq_some hFind)
      obtain ⟨⟨key, behind⟩, hCut, hHeader⟩ := Option.map_eq_some_iff.mp hSplit
      have hValue : extractHeader raw name = header.2 := by simp [extractHeader, hFind]
      have hLine := (cutAt_eq_some.mp hCut).1
      refine ⟨line, hMem, ?_⟩
      rw [hValue, ← hName, ← hHeader, hLine]
      simp only
      split
      · next hSpace =>
        right
        cases behind with
        | nil => cases hSpace
        | cons c rest =>
            obtain rfl : c = ascii ' ' := by simpa using hSpace
            rfl
      · exact .inl rfl

/-- The request names a session that has not expired. -/
def Authenticated (manager : SessionManager) (now : Int) (raw : Bytes) : Prop :=
  ∃ token, HasHeader raw (bytes "X-Session-Token") token ∧ manager.Valid now token

theorem authenticated_of_requireSession {manager : SessionManager} {now : Int} {raw : Bytes}
    (h : (requireSession manager now raw).1 = true) : Authenticated manager now raw := by
  rw [requireSession] at h
  simp only at h
  split at h
  · cases h
  · next hToken =>
    have hSome : (manager.validate now (extractSessionToken raw)).1 ≠ none := Option.isSome_iff_ne_none.mp h
    exact ⟨extractSessionToken raw, hasHeader_extractHeader hToken, (SessionManager.valid_of_validate hSome).2⟩

/-- The two places under which the API is reached. -/
def UnderApi (path : Bytes) : Prop := bytes "/ui-api/" <+: path ∨ bytes "/api/" <+: path

theorem underApi_of_public {path : Bytes} (h : path ∈ publicHealthPaths) : UnderApi path := by
  simp only [publicHealthPaths, List.mem_cons, List.not_mem_nil, or_false] at h
  rcases h with rfl | rfl | rfl
  · exact .inl (by decide)
  · exact .inr (by decide)
  · exact .inl (by decide)

theorem authenticated_of_guarded {manager : SessionManager} {now : Int} {raw : Bytes}
    (h : (guarded manager now raw).1 = .proxyToApi) : Authenticated manager now raw := by
  simp only [guarded] at h
  split at h
  · next hSession => exact authenticated_of_requireSession hSession
  · cases h

theorem branch_cases {condition : Prop} [Decidable condition] {first second : Action × SessionManager} {action : Action}
    (h : (if condition then first else second).1 = action) :
    condition ∧ first.1 = action ∨ second.1 = action := by
  by_cases hCondition : condition
  · rw [if_pos hCondition] at h
    exact .inl ⟨hCondition, h⟩
  · rw [if_neg hCondition] at h
    exact .inr h

/-- The cases in which a request is passed on. -/
theorem proxied_cases {manager : SessionManager} {now : Int} {raw method path : Bytes}
    (h : (dispatch manager now raw method path).1 = .proxyToApi) :
    UnderApi path ∧ (path ∈ publicHealthPaths ∨ Authenticated manager now raw) := by
  rw [dispatch] at h
  obtain ⟨-, h⟩ | h := branch_cases h
  · cases h
  obtain ⟨-, h⟩ | h := branch_cases h
  · cases h
  obtain ⟨hPublic, -⟩ | h := branch_cases h
  · exact ⟨underApi_of_public hPublic, .inl hPublic⟩
  obtain ⟨-, h⟩ | h := branch_cases h
  · cases h
  obtain ⟨-, h⟩ | h := branch_cases h
  · cases h
  obtain ⟨-, h⟩ | h := branch_cases h
  · cases h
  obtain ⟨-, h⟩ | h := branch_cases h
  · cases h
  obtain ⟨-, h⟩ | h := branch_cases h
  · cases h
  obtain ⟨-, h⟩ | h := branch_cases h
  · cases h
  obtain ⟨hUi, h⟩ | h := branch_cases h
  · exact ⟨.inl (List.isPrefixOf_iff_prefix.mp hUi), .inr (authenticated_of_guarded h)⟩
  obtain ⟨hApi, h⟩ | h := branch_cases h
  · exact ⟨.inr (List.isPrefixOf_iff_prefix.mp hApi), .inr (authenticated_of_guarded h)⟩
  · cases h

theorem forwarded_eq_some {manager : SessionManager} {now : Int} {connects : Bool} {raw sent : Bytes}
    (h : forwarded manager now connects raw = some sent) :
    (handleRequest manager now raw).1 = .proxyToApi ∧ rewrite raw = some sent := by
  rw [forwarded] at h
  split at h
  · next hProxied => exact ⟨hProxied.1, h⟩
  · cases h

/-! ## What the API reads -/

theorem pathOf_append {front : Bytes} (h : ascii '?' ∉ front) (text : Bytes) :
    pathOf (front ++ text) = front ++ pathOf text := by
  rw [pathOf, pathOf, cutAt_append h]
  cases cutAt (ascii '?') text with
  | none => rfl
  | some cut => rfl

theorem pathOf_prefix_self (target : Bytes) : pathOf target <+: target := by
  rw [pathOf]
  cases hCut : cutAt (ascii '?') target with
  | none => exact List.prefix_rfl
  | some cut =>
      rw [(cutAt_eq_some.mp hCut).1]
      exact List.prefix_append cut.1 _

/-- The prefix is taken off at the front, so it does not matter what comes behind. -/
theorem stripUiApi_append {target : Bytes} (h : UnderApi target) (rest : Bytes) :
    stripUiApi (target ++ rest) = stripUiApi target ++ rest := by
  obtain ⟨tail, rfl⟩ | ⟨tail, rfl⟩ := h
  · have hUi : bytes "/ui-api" <+: bytes "/ui-api/" := by decide
    have hPrefix : ∀ text, (bytes "/ui-api").isPrefixOf (bytes "/ui-api/" ++ text) = true := by
      intro text
      exact List.isPrefixOf_iff_prefix.mpr (hUi.trans (List.prefix_append _ _))
    rw [stripUiApi, stripUiApi, List.append_assoc, if_pos (hPrefix _), if_pos (hPrefix _)]
    rfl
  · have hNone : ∀ text, ¬(bytes "/ui-api").isPrefixOf (bytes "/api/" ++ text) = true := by
      intro text hUi
      obtain ⟨rest, hText⟩ := List.isPrefixOf_iff_prefix.mp hUi
      have hSecond : some (ascii 'u') = some (ascii 'a') := congrArg (·[1]?) hText
      exact absurd hSecond (by decide)
    rw [stripUiApi, stripUiApi, List.append_assoc, if_neg (hNone _), if_neg (hNone _), List.append_assoc]

theorem pathOf_stripUiApi {target : Bytes} (h : UnderApi target) :
    pathOf (stripUiApi target) = stripUiApi (pathOf target) := by
  obtain ⟨tail, rfl⟩ | ⟨tail, rfl⟩ := h
  · have hUi : UnderApi (bytes "/ui-api/") := .inl List.prefix_rfl
    rw [stripUiApi_append hUi, pathOf_append (by decide), pathOf_append (by decide), stripUiApi_append hUi]
  · have hApi : UnderApi (bytes "/api/") := .inr List.prefix_rfl
    rw [stripUiApi_append hApi, pathOf_append (by decide), pathOf_append (by decide), stripUiApi_append hApi]

/-- A request starts with its method, one space and its target, as the protocol has it. -/
structure StartsWith (raw method target rest : Bytes) : Prop where
  text : raw = method ++ ascii ' ' :: (target ++ rest)
  method : IsWord method
  target : IsWord target
  rest : StartsBlank rest

theorem StartsWith.parseRequest {raw method target rest : Bytes} (h : StartsWith raw method target rest) :
    (parseRequest raw).method = method ∧ (parseRequest raw).path = pathOf target := by
  obtain ⟨line, behind, hLine, hWords⟩ := parse_getline h.method h.target h.rest
  rw [WebServer.parseRequest, h.text, hLine]
  simp only [hWords, and_self]

theorem IsWord.space_notMem {text : Bytes} (h : IsWord text) : ascii ' ' ∉ text := by
  intro hMem
  exact absurd (h.2 _ hMem) (by decide)

/-- The rewritten request differs in its target only. -/
theorem StartsWith.rewrite {raw method target rest sent : Bytes} (h : StartsWith raw method target rest)
    (hUnder : UnderApi target) (hSent : rewrite raw = some sent) :
    sent = method ++ ascii ' ' :: (stripUiApi target ++ rest) := by
  have hFirst : cutAt (ascii ' ') raw = some (method, target ++ rest) :=
    cutAt_eq_some.mpr ⟨h.text, IsWord.space_notMem h.method⟩
  rw [WebServer.rewrite, hFirst] at hSent
  simp only [cutAt_append (IsWord.space_notMem h.target)] at hSent
  cases hSecond : cutAt (ascii ' ') rest with
  | none => simp [hSecond] at hSent
  | some cut =>
      obtain ⟨before, behind⟩ := cut
      simp only [hSecond, Option.map_some, Option.some.injEq] at hSent
      rw [← hSent, stripUiApi_append hUnder, (cutAt_eq_some.mp hSecond).1, List.append_assoc]

theorem isWord_stripUiApi {target : Bytes} (hWord : IsWord target) (hUnder : UnderApi target) :
    IsWord (stripUiApi target) := by
  have hMem : ∀ c ∈ stripUiApi target, c ∈ target := by
    intro c hc
    rw [stripUiApi] at hc
    split at hc
    · exact List.mem_of_mem_drop hc
    · exact hc
  refine ⟨?_, fun c hc => hWord.2 c (hMem c hc)⟩
  obtain ⟨tail, rfl⟩ | ⟨tail, rfl⟩ := hUnder
  · rw [stripUiApi_append (.inl List.prefix_rfl)]
    simp [stripUiApi, bytes]
  · rw [stripUiApi_append (.inr List.prefix_rfl)]
    simp [stripUiApi, bytes]

/-- A text that starts as another one does, and holds its request line, starts with the
same words. -/
theorem startsWith_of_append {received behind method target rest : Bytes} (hMethod : IsWord method)
    (hTarget : IsWord target) (hRest : StartsBlank rest)
    (hSent : received ++ behind = method ++ ascii ' ' :: (target ++ rest))
    (hLength : method.length + 1 + target.length ≤ received.length) :
    ∃ rest', StartsWith received method target rest' := by
  have hHead : method ++ ascii ' ' :: (target ++ rest) = (method ++ ascii ' ' :: target) ++ rest := by simp
  have hPrefix : method ++ ascii ' ' :: target <+: received := by
    apply List.prefix_of_prefix_length_le (List.prefix_append _ rest)
    · rw [← hHead, ← hSent]
      exact List.prefix_append received behind
    · simp only [List.length_append, List.length_cons]
      omega
  obtain ⟨rest', rfl⟩ := hPrefix
  have hRest' : rest' ++ behind = rest := by
    rw [hHead, List.append_assoc] at hSent
    exact List.append_cancel_left hSent
  refine ⟨rest', by simp, hMethod, hTarget, ?_⟩
  intro c hc
  apply hRest c
  cases rest' with
  | nil => cases hc
  | cons d rest' =>
      rw [← hRest']
      exact hc

/-- What the gate decided on is what the API reads, whatever else it makes of the
request. -/
theorem StartsWith.relayed {raw method target rest sent : Bytes} (h : StartsWith raw method target rest)
    (hUnder : UnderApi target) (hSent : WebServer.rewrite raw = some sent) {socket : Socket}
    (hSocket : socket.flatten = sent)
    (hFirst : method.length + 1 + (stripUiApi target).length ≤ (read (ApiServer.bufferSize - 1) socket).1.length)
    {request : Request} (hRequest : ApiServer.parseRequest socket = .ok request) :
    request.method = (WebServer.parseRequest raw).method ∧
      request.path = stripUiApi (WebServer.parseRequest raw).path := by
  obtain ⟨hGateMethod, hGatePath⟩ := h.parseRequest
  have hStripped := isWord_stripUiApi h.target hUnder
  rw [ApiServer.parseRequest] at hRequest
  split at hRequest
  · next hNone =>
    -- nothing was received, so the first read was empty
    have hEmpty : (read (ApiServer.bufferSize - 1) socket).1 = [] := by
      by_contra hSome
      simp only [receive, if_neg hSome] at hNone
      split at hNone
      · cases hNone
      · split at hNone <;> cases hNone
    rw [hEmpty, List.length_nil] at hFirst
    omega
  · next received hReceived =>
    obtain ⟨more, behind, hMore, hBehind⟩ := receive_eq_append hReceived
    rw [hSocket, h.rewrite hUnder hSent] at hBehind
    have hLength : method.length + 1 + (stripUiApi target).length ≤ received.length := by
      rw [hMore, List.length_append]
      omega
    obtain ⟨rest', hStarts⟩ := startsWith_of_append h.method hStripped h.rest hBehind hLength
    obtain ⟨line, stream, hLine, hWords⟩ := parse_getline hStarts.method hStarts.target hStarts.rest
    rw [← hStarts.text] at hLine
    obtain ⟨hMethod, hPath⟩ := ApiServer.parseText_line hLine hRequest
    rw [hMethod, hPath, hWords, hGateMethod, hGatePath, pathOf_stripUiApi hUnder]
    exact ⟨rfl, rfl⟩

/-! ## The gate -/

/-- The API reads from what is sent to it the method and the path that the gate saw,
however the connection cuts it into reads, if the first one holds the request line. -/
def Relayed (raw sent : Bytes) : Prop :=
  ∀ method target rest, StartsWith raw method target rest →
    ∀ socket : Socket, socket.flatten = sent →
      method.length + 1 + (stripUiApi target).length ≤ (read (ApiServer.bufferSize - 1) socket).1.length →
        ∀ request, ApiServer.parseRequest socket = .ok request →
          request.method = (parseRequest raw).method ∧ request.path = stripUiApi (parseRequest raw).path

/-- A request reaches the API only if it is public or names a session that is valid now,
and the API reads what the gate read. -/
theorem forwarded_authenticated {manager : SessionManager} {now : Int} {connects : Bool} {raw sent : Bytes}
    (hForwarded : forwarded manager now connects raw = some sent) :
    ((parseRequest raw).path ∈ publicHealthPaths ∨ Authenticated manager now raw) ∧ Relayed raw sent := by
  obtain ⟨hProxied, hSent⟩ := forwarded_eq_some hForwarded
  obtain ⟨hUnder, hPass⟩ := proxied_cases hProxied
  refine ⟨hPass, ?_⟩
  intro method target rest hStarts socket hSocket hFirst request hRequest
  have hTarget : UnderApi target := by
    rw [hStarts.parseRequest.2] at hUnder
    exact hUnder.imp (·.trans (pathOf_prefix_self target)) (·.trans (pathOf_prefix_self target))
  exact hStarts.relayed hTarget hSent hSocket hFirst hRequest

/-- One session, which ends at 100. -/
def oneSession : SessionManager := ⟨(∅ : Table Bytes Session).insert (bytes "f00d") ⟨bytes "admin", bytes "admin", 0, 100⟩⟩

/-- A request with the session's token, and without a cookie. -/
def listSites : Bytes := bytes "GET /ui-api/api/sites?page=2 HTTP/1.1\r\nX-Session-Token: f00d\r\n\r\n"

def listSitesSent : Bytes := bytes "GET /api/sites?page=2 HTTP/1.1\r\nX-Session-Token: f00d\r\n\r\n"

theorem forwarded_listSites : forwarded oneSession 7 true listSites = some listSitesSent := by
  unfold oneSession listSites listSitesSent
  repeat rw [bytes_ofList]
  decide +kernel

/-- The API reads the request for the sites that the gate let through. -/
theorem relayed_listSites :
    Authenticated oneSession 7 listSites ∧
      ∃ request, ApiServer.parseRequest [listSitesSent] = .ok request ∧ request.method = bytes "GET" ∧
        request.path = bytes "/api/sites" := by
  obtain ⟨hPass, hRelayed⟩ := forwarded_authenticated forwarded_listSites
  have hStarts : StartsWith listSites (bytes "GET") (bytes "/ui-api/api/sites?page=2")
      (bytes " HTTP/1.1\r\nX-Session-Token: f00d\r\n\r\n") := by
    refine ⟨by decide +kernel, by decide +kernel, by decide +kernel, ?_⟩
    intro c hc
    obtain rfl : ascii ' ' = c := by simpa [bytes] using hc
    decide
  have hRead : (ApiServer.parseRequest [listSitesSent]).toOption.isSome = true := by decide +kernel
  have hGate : (parseRequest listSites).method = bytes "GET" ∧
      (parseRequest listSites).path = bytes "/ui-api/api/sites" := by decide +kernel
  constructor
  · refine hPass.resolve_left ?_
    rw [hGate.2]
    decide
  · cases hParse : ApiServer.parseRequest [listSitesSent] with
    | error failure =>
        rw [hParse] at hRead
        cases hRead
    | ok request =>
        obtain ⟨hMethod, hPath⟩ := hRelayed _ _ _ hStarts [listSitesSent] (List.append_nil _) (by decide +kernel) request
          hParse
        rw [hGate.1] at hMethod
        rw [hGate.2] at hPath
        exact ⟨request, rfl, hMethod, hPath⟩

/-- The session does not come in a cookie. -/
theorem not_forwarded_only_with_cookie :
    ¬∀ (manager : SessionManager) (now : Int) (connects : Bool) (raw sent : Bytes),
      forwarded manager now connects raw = some sent →
        (parseRequest raw).path ∈ publicHealthPaths ∨ ∃ name, manager.Valid now (extractCookie raw name) := by
  intro hClaim
  have hGuarded : (parseRequest listSites).path ∉ publicHealthPaths := by decide +kernel
  have hNoCookies : cookieHeaders listSites = [] := by decide +kernel
  have hNoToken : oneSession.sessions.lookup [] = none := by decide +kernel
  obtain hPublic | ⟨name, session, hSession, -⟩ := hClaim oneSession 7 true listSites listSitesSent forwarded_listSites
  · exact hGuarded hPublic
  · rw [extractCookie, hNoCookies, List.flatMap_nil, List.find?_nil] at hSession
    cases hNoToken.symm.trans hSession

end ContainerCP.Api.WebServer
