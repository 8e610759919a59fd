import ContainerCP.SqlConsole.SessionManager
import ContainerCP.Text.Decimal
import ContainerCP.Text.Lines

/-! `SqlConsoleSessionStore`: the sessions in a text file, without their secrets. -/
namespace ContainerCP.SqlConsole

def percent : UInt8 := ascii '%'

def hexDigit (n : UInt8) : UInt8 := (bytes "0123456789ABCDEF").getD n.toNat 0

def hexValue (c : UInt8) : Option UInt8 :=
  if ascii '0' ≤ c ∧ c ≤ ascii '9' then some (c - ascii '0')
  else if ascii 'A' ≤ c ∧ c ≤ ascii 'F' then some (10 + c - ascii 'A')
  else if ascii 'a' ≤ c ∧ c ≤ ascii 'f' then some (10 + c - ascii 'a')
  else none

def encodeByte (c : UInt8) : Bytes :=
  if c = percent ∨ c = pipe ∨ c = newline ∨ c = ascii '\r' then [percent, hexDigit (c / 16), hexDigit (c % 16)]
  else [c]

/-- `sql_console_session_store_encode`. -/
def storeEncode (value : Bytes) : Bytes := value.flatMap encodeByte

/-- `sql_console_session_store_decode`. A percent sign without two hexadecimal
digits behind it stands for itself. -/
def storeDecode : Bytes → Bytes
  | c :: hi :: lo :: rest =>
      if c = percent then
        match hexValue hi, hexValue lo with
        | some high, some low => (16 * high + low) :: storeDecode rest
        | _, _ => c :: storeDecode (hi :: lo :: rest)
      else c :: storeDecode (hi :: lo :: rest)
  | c :: rest => c :: storeDecode rest
  | [] => []

theorem storeDecode_cons {c : UInt8} (h : c ≠ percent) (rest : Bytes) :
    storeDecode (c :: rest) = c :: storeDecode rest := by
  match rest with
  | [] => rfl
  | [_] => rfl
  | hi :: lo :: rest => rw [storeDecode, if_neg h]

theorem storeDecode_encodeByte (c : UInt8) (rest : Bytes) :
    storeDecode (encodeByte c ++ rest) = c :: storeDecode rest := by
  rw [encodeByte]
  split
  · next hEscaped =>
    have hHigh : hexValue (hexDigit (c / 16)) = some (c / 16) ∧ hexValue (hexDigit (c % 16)) = some (c % 16) ∧
        16 * (c / 16) + c % 16 = c := by
      rcases hEscaped with rfl | rfl | rfl | rfl <;> decide
    obtain ⟨hHi, hLo, hByte⟩ := hHigh
    simp only [List.cons_append, List.nil_append, storeDecode, if_true, hHi, hLo, hByte]
  · next hPlain =>
    have hPercent : c ≠ percent := fun h => hPlain (.inl h)
    exact storeDecode_cons hPercent rest

@[simp]
theorem storeDecode_storeEncode (value : Bytes) : storeDecode (storeEncode value) = value := by
  induction value with
  | nil => rfl
  | cons c rest ih =>
      rw [storeEncode, List.flatMap_cons, storeDecode_encodeByte]
      exact congrArg (c :: ·) ih

theorem not_mem_storeEncode {c : UInt8} (h : c = pipe ∨ c = newline) (value : Bytes) : c ∉ storeEncode value := by
  intro hMem
  obtain ⟨d, -, hByte⟩ := List.mem_flatMap.mp hMem
  rw [encodeByte] at hByte
  split at hByte
  · next hEscaped =>
    have hOutside : c ∉ [percent, hexDigit (d / 16), hexDigit (d % 16)] := by
      rcases h with rfl | rfl <;> rcases hEscaped with rfl | rfl | rfl | rfl <;> decide
    exact hOutside hByte
  · next hPlain =>
    rw [List.mem_singleton] at hByte
    subst hByte
    rcases h with rfl | rfl
    · exact hPlain (.inr (.inl rfl))
    · exact hPlain (.inr (.inr (.inl rfl)))

/-! ## Lines -/

def statusText : SqlConsoleSessionStatus → Bytes
  | .created => bytes "created"
  | .redeemed => bytes "redeemed"
  | .expired => bytes "expired"
  | .revoked => bytes "revoked"

def statusFromText (value : Bytes) : SqlConsoleSessionStatus :=
  if value = bytes "redeemed" then .redeemed
  else if value = bytes "expired" then .expired
  else if value = bytes "revoked" then .revoked
  else .created

/-- The whole seconds of a point in time, cut towards the epoch. -/
def toEpoch (time : Time) : Int64 := time / 1000000000

def epochText (time : Time) : Bytes := decimalInt (toEpoch time).toInt

def fromEpoch (value : Bytes) : Time :=
  match stoll value with
  | some n => seconds n
  | none => 0

def optionalEpochText : Option Time → Bytes
  | none => bytes "-"
  | some time => epochText time

def optionalFromEpoch (value : Bytes) : Option Time := if value = bytes "-" then none else some (fromEpoch value)

/-- The fields of a line, in the order of the file. -/
def sessionFields (session : SqlConsoleSession) : List Bytes :=
  [storeEncode session.launchId, decimal session.databaseId.toNat, decimal session.siteId.toNat,
    storeEncode session.adminUsername, storeEncode session.adminRole, storeEncode session.provider,
    statusText session.status, storeEncode session.databaseName, storeEncode session.temporaryUserName,
    epochText session.createdAt, epochText session.expiresAt, epochText session.idleExpiresAt,
    epochText session.lastSeenAt, optionalEpochText session.redeemedAt, optionalEpochText session.revokedAt]

def sessionLine (session : SqlConsoleSession) : Bytes := [pipe].intercalate (sessionFields session)

/-- One round of the loop of `load`; a line that is not understood is left out. -/
def parseSessionLine (line : Bytes) : Option SqlConsoleSession :=
  match line.splitOn pipe with
  | [launchId, databaseId, siteId, adminUsername, adminRole, provider, status, databaseName, temporaryUserName,
      createdAt, expiresAt, idleExpiresAt, lastSeenAt, redeemedAt, revokedAt] =>
      match stoull databaseId, stoull siteId with
      | some database, some site =>
          some {
            launchId := storeDecode launchId
            databaseId := database
            siteId := site
            adminUsername := storeDecode adminUsername
            adminRole := storeDecode adminRole
            provider := storeDecode provider
            status := statusFromText status
            databaseName := storeDecode databaseName
            temporaryUserName := storeDecode temporaryUserName
            createdAt := fromEpoch createdAt
            expiresAt := fromEpoch expiresAt
            idleExpiresAt := fromEpoch idleExpiresAt
            lastSeenAt := fromEpoch lastSeenAt
            redeemedAt := optionalFromEpoch redeemedAt
            revokedAt := optionalFromEpoch revokedAt }
      | _, _ => none
  | _ => none

def storeHeader : Bytes := bytes "# containercp-sql-console-sessions-v1"

/-- The text that `save` writes. -/
def storeText (sessions : List SqlConsoleSession) : Bytes :=
  (storeHeader :: sessions.map sessionLine).flatMap (· ++ [newline])

/-- What `load` gives of a file that may be missing. -/
def loadStore : Option Bytes → List SqlConsoleSession
  | none => []
  | some text =>
      match getlines newline text with
      | [] => []
      | header :: lines => if header = storeHeader then (lines.filter (· ≠ [])).filterMap parseSessionLine else []

/-- What becomes of a session in the file: no digest, no password, whole seconds. -/
def persisted (session : SqlConsoleSession) : SqlConsoleSession :=
  { session with
    secretDigest := []
    temporaryUserPassword := []
    createdAt := seconds (toEpoch session.createdAt)
    expiresAt := seconds (toEpoch session.expiresAt)
    idleExpiresAt := seconds (toEpoch session.idleExpiresAt)
    lastSeenAt := seconds (toEpoch session.lastSeenAt)
    redeemedAt := session.redeemedAt.map fun time => seconds (toEpoch time)
    revokedAt := session.revokedAt.map fun time => seconds (toEpoch time) }

@[simp]
theorem statusFromText_statusText (status : SqlConsoleSessionStatus) : statusFromText (statusText status) = status := by
  cases status <;> decide

@[simp]
theorem fromEpoch_epochText (time : Time) : fromEpoch (epochText time) = seconds (toEpoch time) := by
  simp [fromEpoch, epochText]

@[simp]
theorem optionalFromEpoch_optionalEpochText (time : Option Time) :
    optionalFromEpoch (optionalEpochText time) = time.map fun time => seconds (toEpoch time) := by
  cases time with
  | none => rfl
  | some time =>
      have hNe : epochText time ≠ bytes "-" := by
        intro hDash
        obtain ⟨numeral, hScan, -⟩ := scanNumeral_decimalInt (toEpoch time).toInt
        have hNone : scanNumeral (bytes "-") = none := by decide
        rw [← epochText, hDash, hNone] at hScan
        cases hScan
      simp [optionalFromEpoch, optionalEpochText, hNe]

/-- The separators stand in no field. -/
theorem not_mem_sessionFields {c : UInt8} (h : c = pipe ∨ c = newline) {session : SqlConsoleSession} {field : Bytes}
    (hField : field ∈ sessionFields session) : c ∉ field := by
  have hDigit : isDigit c = false := by rcases h with rfl | rfl <;> decide
  have hMinus : c ≠ ascii '-' := by rcases h with rfl | rfl <;> decide
  have hText : ∀ value, c ∉ storeEncode value := not_mem_storeEncode h
  have hEpoch : ∀ time, c ∉ epochText time := fun _ => not_mem_decimalInt hDigit hMinus
  have hOptional : ∀ time, c ∉ optionalEpochText time := by
    intro time
    cases time with
    | none => rcases h with rfl | rfl <;> decide
    | some time => exact hEpoch time
  have hStatus : ∀ status, c ∉ statusText status := by
    intro status
    rcases h with rfl | rfl <;> cases status <;> decide
  simp only [sessionFields, List.mem_cons, List.not_mem_nil, or_false] at hField
  rcases hField with rfl | rfl | rfl | rfl | rfl | rfl | rfl | rfl | rfl | rfl | rfl | rfl | rfl | rfl | rfl
  all_goals first
    | exact hText _
    | exact not_mem_decimal hDigit
    | exact hStatus _
    | exact hEpoch _
    | exact hOptional _

/-- A line of fourteen whole fields with any text behind them. -/
theorem parseSessionLine_fields (session : SqlConsoleSession) {last : Bytes} (h : pipe ∉ last) :
    parseSessionLine ([pipe].intercalate ((sessionFields session).dropLast ++ [last])) =
      some { persisted session with revokedAt := optionalFromEpoch last } := by
  have hSplit : ([pipe].intercalate ((sessionFields session).dropLast ++ [last])).splitOn pipe =
      (sessionFields session).dropLast ++ [last] := List.splitOn_intercalate pipe ?_ (by simp)
  · rw [parseSessionLine, hSplit]
    simp [sessionFields, persisted]
  · intro field hField
    rcases List.mem_append.mp hField with hFront | hLast
    · exact not_mem_sessionFields (.inl rfl) (List.dropLast_subset _ hFront)
    · rwa [List.mem_singleton.mp hLast]

theorem sessionLine_eq (session : SqlConsoleSession) :
    sessionLine session =
      [pipe].intercalate ((sessionFields session).dropLast ++ [optionalEpochText session.revokedAt]) :=
  rfl

theorem pipe_not_mem_revokedAt (session : SqlConsoleSession) : pipe ∉ optionalEpochText session.revokedAt :=
  @not_mem_sessionFields _ (.inl rfl) session _ (by simp [sessionFields])

theorem parseSessionLine_sessionLine (session : SqlConsoleSession) :
    parseSessionLine (sessionLine session) = some (persisted session) := by
  rw [sessionLine_eq, parseSessionLine_fields session (pipe_not_mem_revokedAt session)]
  simp [persisted]

theorem newline_not_mem_sessionLine (session : SqlConsoleSession) : newline ∉ sessionLine session := by
  intro hMem
  rcases mem_of_mem_intercalate hMem with hPipe | ⟨field, hField, hIn⟩
  · exact absurd hPipe (by decide)
  · exact not_mem_sessionFields (.inr rfl) hField hIn

theorem sessionLine_ne_nil (session : SqlConsoleSession) : sessionLine session ≠ [] := by
  intro hNil
  have hParsed := parseSessionLine_sessionLine session
  rw [hNil] at hParsed
  exact absurd hParsed (by simp [parseSessionLine])

/-- The lines of sessions are read back without their secrets, and what stands behind them as it is. -/
theorem loadStore_of_getlines {text : Bytes} {front : List SqlConsoleSession} {rest : List Bytes}
    (h : getlines newline text = storeHeader :: (front.map sessionLine ++ rest)) :
    loadStore (some text) = front.map persisted ++ (rest.filter (· ≠ [])).filterMap parseSessionLine := by
  have hKeep : (front.map sessionLine).filter (· ≠ []) = front.map sessionLine := by
    apply List.filter_eq_self.mpr
    intro line hLine
    obtain ⟨session, -, rfl⟩ := List.mem_map.mp hLine
    simp [sessionLine_ne_nil session]
  have hParsed : (front.map sessionLine).filterMap parseSessionLine = front.map persisted := by
    rw [List.filterMap_map, ← List.filterMap_eq_map]
    congr 1
    funext session
    exact parseSessionLine_sessionLine session
  simp only [loadStore, h, if_true, List.filter_append, List.filterMap_append, hKeep, hParsed]

theorem newline_not_mem_lines (sessions : List SqlConsoleSession) :
    ∀ line ∈ storeHeader :: sessions.map sessionLine, newline ∉ line := by
  intro line hLine
  rcases List.mem_cons.mp hLine with rfl | hLine
  · decide
  · obtain ⟨session, -, rfl⟩ := List.mem_map.mp hLine
    exact newline_not_mem_sessionLine session

/-- A file that was written completely is read back without its secrets. -/
theorem loadStore_storeText (sessions : List SqlConsoleSession) :
    loadStore (some (storeText sessions)) = sessions.map persisted := by
  rw [@loadStore_of_getlines (storeText sessions) sessions [] (by
    rw [List.append_nil]
    exact getlines_flatMap (newline_not_mem_lines sessions))]
  exact List.append_nil _

end ContainerCP.SqlConsole
