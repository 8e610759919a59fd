import ContainerCP.Database.DumpService
import ContainerCP.Sql.Statements

/-! What the policy of an import lets through. It looks for fragments of the text, and the
client reads statements: only some spellings of some statements have a fragment in them. -/
namespace ContainerCP.DatabaseDump

open Sql

/-! ## The statements that are not to be imported -/

def isObject (keyword : Option Bytes) : Bool :=
  keyword ∈ [some (bytes "database"), some (bytes "schema"), some (bytes "user")]

/-- What stands behind `OR REPLACE`, where that stands. -/
def skipReplace : List Bytes → List Bytes
  | first :: second :: rest =>
      if first = bytes "or" ∧ second = bytes "replace" then rest else first :: second :: rest
  | short => short

/-- A statement switches the database, creates, drops or alters a database or a user, or
issues a grant or a revoke. -/
def forbiddenKeywords : List Bytes → Bool
  | [] => false
  | first :: rest =>
      first ∈ [bytes "use", bytes "grant", bytes "revoke"] ||
        (first = bytes "create" && isObject (skipReplace rest).head?) ||
        (first ∈ [bytes "drop", bytes "alter"] && isObject rest.head?)

/-- The statement at the front of the pieces is not to be imported. -/
def Forbidden (behind : List Piece) : Prop := forbiddenKeywords (keywords behind) = true

/-- The fragments that the policy has for such a statement. -/
def spellings : List Bytes :=
  [bytes "create database", bytes "drop database", bytes "use ", bytes "grant ", bytes "create user", bytes "alter user"]

/-- The statement at the front of the pieces starts with one of them. -/
def Spelled (behind : List Piece) : Prop := ∃ spelling ∈ spellings, spelling <+: lowerCopy (leadText behind)

/-- The policy refuses a file: it is no safe regular file, too large, without the marker of
an export, or has a fragment in it. -/
def Refused (file : ArtifactFile) : Prop :=
  (∀ size, safeFileStat file = some size → maxImportSizeBytes < size) ∨ ¬exportMarker <:+: file.content ∨
    ∃ fragment ∈ rejectedFragments, fragment <:+: lowerCopy file.content

theorem importContentPolicy_eq_none_iff (file : ArtifactFile) : importContentPolicy file = none ↔ ¬Refused file := by
  unfold importContentPolicy Refused
  cases safeFileStat file with
  | none => simp
  | some size =>
      dsimp only
      simp only [Option.some.injEq, forall_eq', not_or, not_lt, not_not]
      split
      · next hLarge => simp [Nat.not_le.mpr hLarge]
      · next hSmall =>
        split
        · next hMarker => simp [hMarker]
        · next hMarker =>
          split
          · next hFragment => simp [hFragment]
          · next hFragment => simp [Nat.not_lt.mp hSmall, not_not.mp hMarker, hFragment]

/-- A statement with one of the spellings in it has the file refused. -/
theorem refused_of_spelled {file : ArtifactFile} {behind : List Piece} (hBegins : Begins (pieces file.content) behind)
    (h : Spelled behind) : Refused file := by
  obtain ⟨spelling, hMem, hPrefix⟩ := h
  have hRejected : ∀ spelling ∈ spellings, spelling ∈ rejectedFragments := by decide
  refine .inr (.inr ⟨spelling, hRejected spelling hMem, ?_⟩)
  exact hPrefix.isInfix.trans (List.IsInfix.map toLower ( leadText_infix hBegins))

/-- The policy keeps the statements out of a file that it refuses, and of one where each is
spelled as the fragments have it. -/
theorem importContentPolicy_sound_iff (file : ArtifactFile) :
    (importContentPolicy file = none → ∀ behind, Begins (pieces file.content) behind → ¬Forbidden behind) ↔
      Refused file ∨ ∀ behind, Begins (pieces file.content) behind → Forbidden behind → Spelled behind := by
  rw [importContentPolicy_eq_none_iff]
  constructor
  · intro hSound
    by_cases hRefused : Refused file
    · exact .inl hRefused
    · exact .inr fun behind hBegins hForbidden => absurd hForbidden (hSound hRefused behind hBegins)
  · rintro (hRefused | hSpelled) hAccepted behind hBegins hForbidden
    · exact hAccepted hRefused
    · exact hAccepted (refused_of_spelled hBegins (hSpelled behind hBegins hForbidden))

/-- A file with one statement behind the marker. -/
def singleStatement (statement : Bytes) : ArtifactFile := { content := exportMarker ++ newline :: statement }

/-- A statement that drops a user, and one with two spaces. -/
theorem importContentPolicy_unsound :
    (importContentPolicy (singleStatement (bytes "DROP USER a;")) = none ∧
      Begins (pieces (singleStatement (bytes "DROP USER a;")).content) (pieces (singleStatement (bytes "DROP USER a;")).content) ∧
      Forbidden (pieces (singleStatement (bytes "DROP USER a;")).content)) ∧
    importContentPolicy (singleStatement (bytes "CREATE  DATABASE b;")) = none ∧
      Begins (pieces (singleStatement (bytes "CREATE  DATABASE b;")).content)
        (pieces (singleStatement (bytes "CREATE  DATABASE b;")).content) ∧
      Forbidden (pieces (singleStatement (bytes "CREATE  DATABASE b;")).content) := by
  unfold Forbidden
  exact ⟨⟨by decide, .inl rfl, by decide⟩, by decide, .inl rfl, by decide⟩

end ContainerCP.DatabaseDump
