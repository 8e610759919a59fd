import ContainerCP.Api.WebServer
import ContainerCP.Posix.LexicalPath

/-! The files that the web server opens for a request: the assets of the panel, and the
tokens of the ACME challenges. -/
namespace ContainerCP.Api.WebServer

open Posix

/-- `Config::source_root`. -/
def sourceRoot : Bytes := bytes "/opt/containercp"

/-- `Config::data_root`. -/
def dataRoot : Bytes := bytes "/srv/containercp"

/-- What a `std::ifstream` reads at a path, if it opens there. A directory opens too, and
nothing is read from it. -/
abbrev Files := Bytes → Option Bytes

def Files.opens (files : Files) (path : Bytes) : Bool := (files (cString path)).isSome

def Files.content (files : Files) (path : Bytes) : Bytes := (files (cString path)).getD []

/-! ## Challenges -/

def challengePaths (token : Bytes) : List Bytes :=
  [dataRoot ++ bytes "/ssl/0/.well-known/acme-challenge/" ++ token,
    dataRoot ++ bytes "/ssl/.well-known/acme-challenge/" ++ token]

/-- The loop over the paths ends at the first file that opens. -/
def openChallenge (files : Files) (token : Bytes) : Option Bytes := (challengePaths token).find? files.opens

/-- The file is read up to its first NUL byte. -/
def challengeContent (files : Files) (token : Bytes) : Bytes :=
  match openChallenge files token with
  | none => []
  | some path => cString (files.content path)

def serveChallenge (files : Files) (token : Bytes) : Response :=
  let content := challengeContent files token
  if content ≠ [] then ⟨200, content, bytes "application/octet-stream"⟩
  else ⟨404, bytes "\x7b\"success\":false,\"error\":\"Challenge token not found\"\x7d", bytes "application/json"⟩

/-! ## Assets -/

/-- The path of an asset. With two dots in it the path is forbidden. -/
def staticPath (path : Bytes) : Option Bytes :=
  if path = bytes "/" ∨ path = [] then some (sourceRoot ++ bytes "/web" ++ bytes "/index.html")
  else if parent <:+: path.drop 1 then none
  else some (sourceRoot ++ bytes "/web" ++ bytes "/" ++ path.drop 1)

/-- The text from the last dot on. -/
def extension (path : Bytes) : Bytes :=
  if ascii '.' ∈ path then ascii '.' :: path.rtakeWhile (· ≠ ascii '.') else []

def contentTypeOf (extension : Bytes) : Bytes :=
  if extension = bytes ".css" then bytes "text/css"
  else if extension = bytes ".js" then bytes "application/javascript"
  else if extension = bytes ".png" then bytes "image/png"
  else if extension = bytes ".ico" then bytes "image/x-icon"
  else bytes "text/html"

/-- `serve_static`. -/
def serveStatic (files : Files) (path : Bytes) : Response :=
  match staticPath path with
  | none => { statusCode := 403, body := bytes "Forbidden" }
  | some filePath =>
      if files.opens filePath then ⟨200, files.content filePath, contentTypeOf (extension filePath)⟩
      else { statusCode := 404, body := bytes "Not found" }

/-! ## What is opened, and where it lies -/

/-- The paths of the files that are open at some time while a request is answered. -/
def openedFiles (files : Files) : Action → List Bytes
  | .challenge token => (openChallenge files token).toList
  | .serveStatic path => ((staticPath path).filter files.opens).toList
  | _ => []

def webRoot : Path := [bytes "opt", bytes "containercp", bytes "web"]

def adminChallenges : Path :=
  [bytes "srv", bytes "containercp", bytes "ssl", bytes "0", bytes ".well-known", bytes "acme-challenge"]

def siteChallenges : Path :=
  [bytes "srv", bytes "containercp", bytes "ssl", bytes ".well-known", bytes "acme-challenge"]

/-- Where a path leads from the root. -/
def location (path : Bytes) : Path := resolveFrom [] (pathNames (cString path))

/-- The directories out of which an action serves. -/
def directoriesOf : Action → List Path
  | .challenge _ => [adminChallenges, siteChallenges]
  | .serveStatic _ => [webRoot]
  | _ => []

/-- Every file that a request makes the server open is in one of the directories that the
request is about, whichever files there are. -/
def Confined (action : Action) : Prop :=
  ∀ files, ∀ path ∈ openedFiles files action, ∃ directory ∈ directoriesOf action, directory <+: location path

/-- A token that comes back into its directory, if it leaves it at all: by the names by
which it went up, or from the root down to one of the two directories. -/
def Returns (token : Bytes) : Prop :=
  let route := Route.of (pathNames (cString token))
  route.up = 0 ∨ (route.up = 1 ∧ [bytes "acme-challenge"] <+: route.down) ∨
    (route.up = 2 ∧ [bytes ".well-known", bytes "acme-challenge"] <+: route.down) ∨
    (6 ≤ route.up ∧ (adminChallenges <+: route.down ∨ siteChallenges <+: route.down))

instance (token : Bytes) : Decidable (Returns token) := inferInstanceAs (Decidable (_ ∨ _))

/-! ## Assets stay below the web root -/

theorem location_append {front directory : Bytes} (hDirectory : directory = front ++ [slash]) (h : 0 ∉ front)
    (text : Bytes) : location (directory ++ text) = resolveFrom (location front) (pathNames (cString text)) := by
  have hText : cString (directory ++ text) = front ++ slash :: cString text := by
    rw [hDirectory, List.append_assoc, cString_append h, List.singleton_append, cString,
      List.takeWhile_cons_of_pos (by decide)]
    rfl
  have hAlone : cString front = front := by simpa [cString] using cString_append h []
  rw [location, hText, pathNames_append_slash, resolveFrom_append, location, hAlone]

theorem location_web (text : Bytes) :
    location (sourceRoot ++ bytes "/web" ++ bytes "/" ++ text) = resolveFrom webRoot (pathNames (cString text)) := by
  have hWeb : location (sourceRoot ++ bytes "/web") = webRoot := by decide
  have hSlash : sourceRoot ++ bytes "/web" ++ bytes "/" = sourceRoot ++ bytes "/web" ++ [slash] := rfl
  rw [location_append hSlash (by decide) text, hWeb]

theorem confined_staticPath {path filePath : Bytes} (h : staticPath path = some filePath) :
    webRoot <+: location filePath := by
  rw [staticPath] at h
  split at h
  · obtain rfl := Option.some.inj h
    decide
  · split at h
    · cases h
    · next hParent =>
      obtain rfl := Option.some.inj h
      have hClean : ¬parent <:+: cString (path.drop 1) := fun hInfix =>
        hParent (hInfix.trans (cString_isPrefix _).isInfix)
      rw [location_web]
      exact isPrefix_resolveFrom_of_parent_notMem (parent_notMem_pathNames hClean) webRoot

theorem confined_serveStatic (path : Bytes) : Confined (.serveStatic path) := by
  intro files filePath hMem
  rw [openedFiles, Option.mem_toList] at hMem
  obtain ⟨hPath, -⟩ := Option.filter_eq_some_iff.mp hMem
  exact ⟨webRoot, List.mem_singleton_self _, confined_staticPath hPath⟩

/-! ## Where a token leads -/

theorem location_adminChallenge (token : Bytes) :
    location (dataRoot ++ bytes "/ssl/0/.well-known/acme-challenge/" ++ token) =
      resolveFrom adminChallenges (pathNames (cString token)) := by
  have hDirectory : location (dataRoot ++ bytes "/ssl/0/.well-known/acme-challenge") = adminChallenges := by
    decide
  have hSlash : dataRoot ++ bytes "/ssl/0/.well-known/acme-challenge/" =
      dataRoot ++ bytes "/ssl/0/.well-known/acme-challenge" ++ [slash] := by decide
  rw [location_append hSlash (by decide) token, hDirectory]

theorem location_siteChallenge (token : Bytes) :
    location (dataRoot ++ bytes "/ssl/.well-known/acme-challenge/" ++ token) =
      resolveFrom siteChallenges (pathNames (cString token)) := by
  have hDirectory : location (dataRoot ++ bytes "/ssl/.well-known/acme-challenge") = siteChallenges := by
    decide
  have hSlash : dataRoot ++ bytes "/ssl/.well-known/acme-challenge/" =
      dataRoot ++ bytes "/ssl/.well-known/acme-challenge" ++ [slash] := by decide
  rw [location_append hSlash (by decide) token, hDirectory]

/-- Any of the two paths may be the one that is opened. -/
theorem confined_challenge_iff (token : Bytes) :
    Confined (.challenge token) ↔
      ∀ path ∈ challengePaths token, ∃ directory ∈ directoriesOf (.challenge token), directory <+: location path := by
  constructor
  · intro h path hPath
    let files : Files := fun name => if name = cString path then some [] else none
    have hOpens : files.opens path = true := by simp [files, Files.opens]
    obtain ⟨found, hFound⟩ := Option.isSome_iff_exists.mp (List.find?_isSome.mpr ⟨path, hPath, hOpens⟩)
    have hSame : cString found = cString path := by
      have hIsOpen := List.find?_some hFound
      by_contra hOther
      simp [files, Files.opens, hOther] at hIsOpen
    have hLocation : location found = location path := by rw [location, hSame, location]
    rw [← hLocation]
    exact h files found (by simpa [openedFiles, openChallenge] using hFound)
  · intro h files path hMem
    rw [openedFiles, Option.mem_toList] at hMem
    exact h path (List.mem_of_find?_eq_some hMem)

section Routes

/-! Two directories that differ in one name in the middle, and one route from both. -/

variable {a b s z w c : Name} (down : List Name)

def BelowEither (deep flat place : Path) : Prop := deep <+: place ∨ flat <+: place

/-- From different levels the same name would have to be two names. -/
theorem not_below_between (hab : a ≠ b) (hbs : b ≠ s) (hsz : s ≠ z) (hsw : s ≠ w) {up : Nat} (hLow : 3 ≤ up)
    (hHigh : up < 6) :
    ¬(BelowEither [a, b, s, z, w, c] [a, b, s, w, c] ((Posix.Route.mk up down).apply [a, b, s, z, w, c]) ∧
      BelowEither [a, b, s, z, w, c] [a, b, s, w, c] ((Posix.Route.mk up down).apply [a, b, s, w, c])) := by
  cases down with
  | nil =>
      rintro ⟨-, hFlat⟩
      have hShort : 5 ≤ ((Posix.Route.mk up []).apply [a, b, s, w, c]).length := by
        rcases hFlat with hDeep | hFlat
        · exact (by simp : 5 ≤ [a, b, s, z, w, c].length).trans hDeep.length_le
        · exact hFlat.length_le
      simp [Posix.Route.apply] at hShort
      omega
  | cons d down =>
      obtain rfl | rfl | rfl : up = 3 ∨ up = 4 ∨ up = 5 := by omega
      all_goals
        simp only [BelowEither, Posix.Route.apply, List.length_cons, List.length_nil, List.take_succ_cons, List.take_zero,
          List.cons_append, List.nil_append, List.cons_prefix_cons]
        grind

theorem below_iff (hab : a ≠ b) (hbs : b ≠ s) (hsz : s ≠ z) (hsw : s ≠ w) (hzw : z ≠ w) (up : Nat) :
    (BelowEither [a, b, s, z, w, c] [a, b, s, w, c] ((Posix.Route.mk up down).apply [a, b, s, z, w, c]) ∧
      BelowEither [a, b, s, z, w, c] [a, b, s, w, c] ((Posix.Route.mk up down).apply [a, b, s, w, c])) ↔
      up = 0 ∨ (up = 1 ∧ [c] <+: down) ∨ (up = 2 ∧ [w, c] <+: down) ∨
        (6 ≤ up ∧ BelowEither [a, b, s, z, w, c] [a, b, s, w, c] down) := by
  obtain rfl | rfl | rfl | hMiddle | hHigh : up = 0 ∨ up = 1 ∨ up = 2 ∨ (3 ≤ up ∧ up < 6) ∨ 6 ≤ up := by omega
  · simp [BelowEither, Posix.Route.apply]
  · simp [BelowEither, Posix.Route.apply, List.cons_prefix_cons, hzw, hzw.symm]
  · simp only [BelowEither, Posix.Route.apply, List.length_cons, List.length_nil, List.take_succ_cons, List.take_zero,
      List.cons_append, List.nil_append, List.cons_prefix_cons]
    grind
  · have hNot := not_below_between (c := c) down hab hbs hsz hsw hMiddle.1 hMiddle.2
    refine iff_of_false hNot ?_
    omega
  · have hDeep : 6 - up = 0 := by omega
    have hFlat : 5 - up = 0 := by omega
    have hUp : up ≠ 0 ∧ up ≠ 1 ∧ up ≠ 2 := by omega
    simp [Posix.Route.apply, hDeep, hFlat, hUp, hHigh]

end Routes

theorem confined_challenge (token : Bytes) : Confined (.challenge token) ↔ Returns token := by
  have hBelow := below_iff (a := bytes "srv") (b := bytes "containercp") (s := bytes "ssl") (z := bytes "0")
    (w := bytes ".well-known") (c := bytes "acme-challenge") (Route.of (pathNames (cString token))).down
    (by decide) (by decide) (by decide) (by decide) (by decide) (Route.of (pathNames (cString token))).up
  rw [confined_challenge_iff, Returns]
  simp only [challengePaths, directoriesOf, List.forall_mem_cons, List.not_mem_nil, false_implies, implies_true,
    and_true, List.exists_mem_cons_iff, false_and, exists_false, or_false, location_adminChallenge,
    location_siteChallenge, resolveFrom_eq_apply]
  exact hBelow

/-! ## Every request -/

/-- A request makes the server open a file outside the web root and outside the directories
of the challenges if, and only if, it asks for a challenge with a token that leads out
of them. -/
theorem confined_iff (manager : Auth.SessionManager) (now : Int) (raw : Bytes) :
    Confined (handleRequest manager now raw).1 ↔
      ∀ token, (handleRequest manager now raw).1 = .challenge token → Returns token := by
  cases hAction : (handleRequest manager now raw).1 with
  | challenge token =>
      rw [confined_challenge]
      exact ⟨fun h _ hEq => Action.challenge.inj hEq ▸ h, fun h => h token rfl⟩
  | serveStatic path => exact iff_of_true (confined_serveStatic path) (by simp)
  | _ => exact iff_of_true (by simp [Confined, openedFiles]) (by simp)

/-- A request that nobody has to log in for, and the private key of the panel. -/
def keyRequest : Bytes := bytes "GET /.well-known/acme-challenge/../../current/privkey.pem HTTP/1.1\r\n\r\n"

theorem not_confined_keyRequest : ¬Confined (handleRequest ⟨∅⟩ 0 keyRequest).1 := by
  have hAction : (handleRequest ⟨∅⟩ 0 keyRequest).1 = .challenge (bytes "../../current/privkey.pem") := by decide
  rw [hAction, confined_challenge]
  decide

end ContainerCP.Api.WebServer
