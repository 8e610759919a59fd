import ContainerCP.Text.Decimal
import ContainerCP.Text.QuotedPieces

/-! The marker of a migration, `.containercp-migration.json`: its parser, and its text. -/
namespace ContainerCP.Migration

open Json

structure MigrationMarker where
  version : UInt64 := 0
  domain : Bytes := []
  owner : Bytes := []
  siteId : UInt64 := 0
  stage : UInt64 := 0
  filesPending : Bool := false
  filesImported : Bool := false
  sqlPending : Bool := false
  deriving DecidableEq

namespace MigrationMarker

/-- The name of a member between its quotes. -/
def keyText (key : Bytes) : Bytes := quote :: (key ++ [quote])

/-- The colon with and without blanks. -/
def colons : List Bytes := [bytes ":", bytes ": ", bytes " :", bytes " : "]

/-- The text behind the first occurrence of a pattern. -/
def behind (pattern content : Bytes) : Option Bytes := (cutAtText pattern content).map Prod.snd

/-- `gs`. -/
def getString (content key : Bytes) : Bytes :=
  (colons.findSome? fun colon =>
    (behind (keyText key ++ colon ++ [quote]) content).bind fun start => (cutAt quote start).map Prod.fst).getD []

/-- The number at the front of a text, behind its blanks; one that is too large counts as
none. -/
def numberAt (start : Bytes) : Option UInt64 :=
  let digits := (start.dropWhile (· = ascii ' ')).takeWhile isDigit
  if digits = [] then none else some ((stoull digits).getD 0)

/-- `gi`. -/
def getNumber (content key : Bytes) : UInt64 :=
  (colons.findSome? fun colon => (behind (keyText key ++ colon) content).bind numberAt).getD 0

/-- `gb`. -/
def getFlag (content key : Bytes) : Bool :=
  (colons.map (· ++ bytes "true") ++ [bytes ":\"true\"", bytes ": \"true\""]).any fun value =>
    (behind (keyText key ++ value) content).isSome

/-- `MigrationMarker::parse`. A marker of the first stage from before the other members had
them pending. -/
def parse (content : Bytes) : MigrationMarker :=
  let stage := getNumber content (bytes "stage")
  let lacks := fun key => (behind (keyText key) content).isNone
  { version := getNumber content (bytes "version")
    domain := getString content (bytes "domain")
    owner := getString content (bytes "owner")
    siteId := getNumber content (bytes "site_id")
    stage := stage
    filesPending := getFlag content (bytes "files_pending") || (stage = 1 && lacks (bytes "files_pending"))
    filesImported := getFlag content (bytes "files_imported")
    sqlPending := getFlag content (bytes "sql_pending") || (stage = 1 && lacks (bytes "sql_pending")) }

def boolText (value : Bool) : Bytes := if value then bytes "true" else bytes "false"

/-- `to_json`. -/
def toJson (marker : MigrationMarker) : Bytes :=
  bytes "\x7b\"version\":" ++ decimal (if 0 < marker.version then marker.version.toNat else 1) ++
    bytes ",\"domain\":\"" ++ marker.domain ++ bytes "\",\"owner\":\"" ++ marker.owner ++
    bytes "\",\"site_id\":" ++ decimal marker.siteId.toNat ++ bytes ",\"stage\":" ++ decimal marker.stage.toNat ++
    bytes ",\"files_pending\":" ++ boolText marker.filesPending ++
    bytes ",\"files_imported\":" ++ boolText marker.filesImported ++
    bytes ",\"sql_pending\":" ++ boolText marker.sqlPending ++ bytes "\x7d"

/-! ## Texts that it wrote -/

/-- The pieces of the text of a marker, between its quotes. -/
def pieces (marker : MigrationMarker) : List Bytes :=
  [bytes "version", bytes ":" ++ decimal (if 0 < marker.version then marker.version.toNat else 1) ++ bytes ",",
    bytes "domain", bytes ":", marker.domain, bytes ",", bytes "owner", bytes ":", marker.owner, bytes ",",
    bytes "site_id", bytes ":" ++ decimal marker.siteId.toNat ++ bytes ",",
    bytes "stage", bytes ":" ++ decimal marker.stage.toNat ++ bytes ",",
    bytes "files_pending", bytes ":" ++ boolText marker.filesPending ++ bytes ",",
    bytes "files_imported", bytes ":" ++ boolText marker.filesImported ++ bytes ",",
    bytes "sql_pending", bytes ":" ++ boolText marker.sqlPending ++ bytes "\x7d"]

theorem toJson_eq (marker : MigrationMarker) : marker.toJson = quoted (bytes "\x7b") marker.pieces := by
  have hDomain : bytes ",\"domain\":\"" = bytes "," ++ quote :: (bytes "domain" ++ quote :: (bytes ":" ++ [quote])) := by decide
  have hVersion : bytes "\x7b\"version\":" = bytes "\x7b" ++ quote :: (bytes "version" ++ quote :: bytes ":") := by decide
  have hOwner : bytes "\",\"owner\":\"" = quote :: (bytes "," ++ quote :: (bytes "owner" ++ quote :: (bytes ":" ++ [quote]))) := by decide
  have hSite : bytes "\",\"site_id\":" = quote :: (bytes "," ++ quote :: (bytes "site_id" ++ quote :: bytes ":")) := by decide
  have hStage : bytes ",\"stage\":" = bytes "," ++ quote :: (bytes "stage" ++ quote :: bytes ":") := by decide
  have hPending : bytes ",\"files_pending\":" = bytes "," ++ quote :: (bytes "files_pending" ++ quote :: bytes ":") := by decide
  have hImported : bytes ",\"files_imported\":" = bytes "," ++ quote :: (bytes "files_imported" ++ quote :: bytes ":") := by decide
  have hSql : bytes ",\"sql_pending\":" = bytes "," ++ quote :: (bytes "sql_pending" ++ quote :: bytes ":") := by decide
  simp only [toJson, pieces, quoted, hDomain, hVersion, hOwner, hSite, hStage, hPending, hImported, hSql, List.flatMap_cons,
    List.flatMap_nil, List.append_assoc, List.cons_append, List.nil_append, List.append_nil]

theorem quote_notMem_boolText (value : Bool) : quote ∉ boolText value := by
  cases value <;> decide

theorem quote_notMem_member {value close : Bytes} (hValue : quote ∉ value) (hClose : quote ∉ close) :
    quote ∉ bytes ":" ++ value ++ close := by
  have hColon : quote ∉ bytes ":" := by decide
  simp only [List.mem_append, not_or]
  exact ⟨⟨hColon, hValue⟩, hClose⟩

theorem quote_notMem_pieces {marker : MigrationMarker} (hDomain : quote ∉ marker.domain) (hOwner : quote ∉ marker.owner) :
    ∀ piece ∈ marker.pieces, quote ∉ piece := by
  have hDigit : isDigit quote = false := by decide
  have hComma : quote ∉ bytes "," := by decide
  have hBrace : quote ∉ bytes "\x7d" := by decide
  simp only [pieces, List.forall_mem_cons]
  exact ⟨by decide, quote_notMem_member (not_mem_decimal hDigit) hComma, by decide, by decide, hDomain, hComma, by decide, by decide,
    hOwner, hComma, by decide, quote_notMem_member (not_mem_decimal hDigit) hComma, by decide,
    quote_notMem_member (not_mem_decimal hDigit) hComma, by decide, quote_notMem_member (quote_notMem_boolText _) hComma, by decide,
    quote_notMem_member (quote_notMem_boolText _) hComma, by decide, quote_notMem_member (quote_notMem_boolText _) hBrace,
    fun _ hMem => absurd hMem List.not_mem_nil⟩

theorem behind_quoted {key colon first : Bytes} {rest : List Bytes} (hKey : quote ∉ key) (hFirst : quote ∉ first)
    (hRest : ∀ piece ∈ rest, quote ∉ piece) : behind (keyText key ++ colon) (quoted first rest) = searchPieces key colon rest := by
  have hPattern : keyText key ++ colon = quote :: (key ++ quote :: colon) := by simp [keyText]
  rw [behind, hPattern, cutAtText_quoted hKey hFirst hRest]

theorem numberAt_decimal {number : UInt64} {rest : Bytes} (hRest : ∀ c ∈ rest.head?, isDigit c = false) :
    numberAt (decimal number.toNat ++ rest) = some number := by
  have hDigits : ∀ c ∈ decimal number.toNat, isDigit c = true := fun c hMem => isDigit_of_mem_decimal hMem
  obtain ⟨c, tail, hDecimal⟩ := List.exists_cons_of_ne_nil (decimal_ne_nil number.toNat)
  have hBlank : decide (c = ascii ' ') = false := by
    refine decide_eq_false fun hEq => ?_
    have hDigit := hDigits c (hDecimal ▸ List.mem_cons_self)
    rw [hEq] at hDigit
    exact absurd hDigit (by decide)
  have hFront : (decimal number.toNat ++ rest).dropWhile (· = ascii ' ') = decimal number.toNat ++ rest := by
    rw [hDecimal, List.cons_append, List.dropWhile_cons_of_neg (by simp [hBlank])]
  have hRun : (decimal number.toNat ++ rest).takeWhile isDigit = decimal number.toNat := by
    rw [List.takeWhile_append_of_pos hDigits]
    cases rest with
    | nil => simp
    | cons d rest => rw [List.takeWhile_cons_of_neg (by simp [hRest d rfl]), List.append_nil]
  rw [numberAt, hFront, hRun, if_neg (decimal_ne_nil number.toNat), stoull_decimal, Option.getD_some]

/-- No piece in front of the stage is its name with a colon behind it. -/
theorem searchPieces_stage (marker : MigrationMarker) :
    ∃ rest, searchPieces (bytes "stage") (bytes ":") marker.pieces =
      some (decimal marker.stage.toNat ++ (bytes "," ++ rest)) := by
  have hValue : ∀ value close : Bytes, bytes ":" ++ value ++ close ≠ bytes "stage" := by
    intro value close hEq
    exact absurd (congrArg List.head? hEq) (by simp [bytes, ascii])
  have hComma : ∀ rest : List Bytes, (bytes ":").isPrefixOf (quoted (bytes ",") rest) = false := by
    intro rest
    simp [quoted, bytes, ascii, List.isPrefixOf]
  have hName : ∀ {piece : Bytes} (next : Bytes) (rest : List Bytes), piece ≠ bytes "stage" →
      ¬(piece = bytes "stage" ∧ (bytes ":").isPrefixOf (quoted next rest) = true) := fun next rest hNe h => hNe h.1
  have hText : ∀ (piece : Bytes) (rest : List Bytes),
      ¬(piece = bytes "stage" ∧ (bytes ":").isPrefixOf (quoted (bytes ",") rest) = true) := by
    intro piece rest h
    rw [hComma] at h
    exact Bool.false_ne_true h.2
  refine ⟨(marker.pieces.drop 14).flatMap (quote :: ·), ?_⟩
  rw [pieces, searchPieces_skip (hName _ _ (by decide)), searchPieces_skip (hName _ _ (hValue _ _)),
    searchPieces_skip (hName _ _ (by decide)), searchPieces_skip (hName _ _ (by decide)), searchPieces_skip (hText _ _),
    searchPieces_skip (hName _ _ (by decide)), searchPieces_skip (hName _ _ (by decide)),
    searchPieces_skip (hName _ _ (by decide)), searchPieces_skip (hText _ _), searchPieces_skip (hName _ _ (by decide)),
    searchPieces_skip (hName _ _ (by decide)), searchPieces_skip (hName _ _ (hValue _ _))]
  refine searchPieces_found ?_
  simp only [quoted, List.append_assoc, List.drop_succ_cons, List.drop_zero]

/-- The number of a stage is read back. -/
theorem stage_parse_toJson {marker : MigrationMarker} (hDomain : quote ∉ marker.domain) (hOwner : quote ∉ marker.owner) :
    (parse marker.toJson).stage = marker.stage := by
  have hStage : quote ∉ bytes "stage" := by decide
  have hBrace : quote ∉ bytes "\x7b" := by decide
  obtain ⟨rest, hSearch⟩ := searchPieces_stage marker
  have hNumber : (behind (keyText (bytes "stage") ++ bytes ":") marker.toJson).bind numberAt = some marker.stage := by
    rw [toJson_eq, behind_quoted hStage hBrace (quote_notMem_pieces hDomain hOwner), hSearch, Option.bind_some]
    refine numberAt_decimal ?_
    intro c hMem
    obtain rfl : ascii ',' = c := by simpa [bytes] using hMem
    decide
  simp only [parse]
  rw [getNumber, colons, List.findSome?_cons, hNumber, Option.getD_some]

/-- No text that it reads has a quote in it. -/
theorem quote_notMem_getString (content key : Bytes) : quote ∉ getString content key := by
  rw [getString]
  generalize hFound : colons.findSome? _ = found
  cases found with
  | none => exact List.not_mem_nil
  | some text =>
      obtain ⟨colon, -, hText⟩ := List.exists_of_findSome?_eq_some hFound
      obtain ⟨start, -, hMap⟩ := Option.bind_eq_some_iff.mp hText
      obtain ⟨⟨before, rest⟩, hCut, hBefore⟩ := Option.map_eq_some_iff.mp hMap
      subst hBefore
      exact (cutAt_eq_some.mp hCut).2

end MigrationMarker

end ContainerCP.Migration
