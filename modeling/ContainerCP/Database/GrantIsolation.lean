import ContainerCP.Database.LifecycleService
import ContainerCP.Sql.Pattern

/-! The statements by which `MariaDBProvider` grants privileges on a database, as texts.
The server reads the name between the quotes as a pattern, and nothing escapes it. -/
namespace ContainerCP.DatabaseLifecycle

open Sql

/-- A name that `validate_database_name` accepts. -/
structure DatabaseName where
  text : Bytes
  valid : validateDatabaseName text = true

/-- `quote_identifier`. -/
def quoteIdentifier (value : Bytes) : Bytes :=
  if validateDatabaseName value then ascii (Char.ofNat 96) :: value ++ [ascii (Char.ofNat 96)] else []

/-- A byte of a string literal. -/
def quoteSqlByte (c : UInt8) : Bytes :=
  if c = 0 then bytes "\\0"
  else if c = 8 then bytes "\\b"
  else if c = 10 then bytes "\\n"
  else if c = 13 then bytes "\\r"
  else if c = 9 then bytes "\\t"
  else if c = 26 then bytes "\\Z"
  else if c = ascii '\\' then bytes "\\\\"
  else if c = ascii '\'' then bytes "\\'"
  else [c]

/-- `mariadb_quote_sql_string`. -/
def quoteSqlString (value : Bytes) : Bytes := bytes "'" ++ value.flatMap quoteSqlByte ++ bytes "'"

/-- `quote_user`. -/
def quoteUser (user : Bytes) : Bytes := quoteSqlString user ++ bytes "@" ++ quoteSqlString (bytes "%")

def sqlConsoleExtraPrivileges : Bytes :=
  bytes "SHOW VIEW, CREATE VIEW, TRIGGER, EVENT, CREATE ROUTINE, ALTER ROUTINE, EXECUTE, REFERENCES"

def grantStatement (privileges database user : Bytes) : Bytes :=
  bytes "GRANT " ++ privileges ++ bytes " ON " ++ quoteIdentifier database ++ bytes ".* TO " ++ quoteUser user ++
    bytes ";\n"

/-- The statement of `grant_database_privileges`. -/
def managedGrant (database user : Bytes) : Bytes := grantStatement managedDatabasePrivileges database user

/-- The statement of `create_temporary_sql_console_user`. -/
def sqlConsoleGrant (database user : Bytes) : Bytes :=
  grantStatement (managedDatabasePrivileges ++ bytes ", " ++ sqlConsoleExtraPrivileges) database user

/-! ## What the server reads -/

/-- The rest of an identifier behind its opening quote; a quote in it is doubled. -/
def unquoteIdentifier : Bytes → Option Bytes
  | [] => none
  | [c] => if c = 96 then some [] else none
  | c :: d :: rest =>
      if c = 96 then if d = 96 then (unquoteIdentifier rest).map (c :: ·) else some []
      else (unquoteIdentifier (d :: rest)).map (c :: ·)

/-- The first quoted identifier of a statement: in a grant it is the database part. -/
def databasePart (statement : Bytes) : Option Bytes := unquoteIdentifier (statement.dropWhile (· ≠ 96)).tail

/-- A grant gives its user access to a database. -/
def GivesAccess (statement database : Bytes) : Prop :=
  ∃ pattern, databasePart statement = some pattern ∧ matchesPattern pattern database = true

/-- Two names that no grant for the first one can mix up: the lengths differ, or they
differ in a place where the first has no underscore. -/
def Apart (first second : Bytes) : Prop :=
  first.length ≠ second.length ∨
    ∃ (i : Nat) (c d : UInt8), first[i]? = some c ∧ second[i]? = some d ∧ c ≠ ascii '_' ∧ c ≠ d

theorem identifierByte_of_valid {name : Bytes} (h : validateDatabaseName name = true) :
    ∀ c ∈ name, identifierByte c = true := by
  unfold validateDatabaseName validateIdentifier at h
  split at h
  · cases h
  · rw [Bool.and_eq_true] at h
    exact List.all_eq_true.mp h.2

theorem not_quote_of_identifierByte {c : UInt8} (h : identifierByte c = true) : c ≠ 96 := by
  rintro rfl
  exact absurd h (by decide)

theorem DatabaseName.plain (name : DatabaseName) : Plain name.text := by
  constructor
  · intro hMem
    exact absurd (identifierByte_of_valid name.valid _ hMem) (by decide)
  · intro hMem
    exact absurd (identifierByte_of_valid name.valid _ hMem) (by decide)

theorem unquoteIdentifier_append {name rest : Bytes} (h : ∀ c ∈ name, c ≠ 96) (hRest : rest.head? ≠ some 96) :
    unquoteIdentifier (name ++ 96 :: rest) = some name := by
  induction name with
  | nil =>
      cases rest with
      | nil => rfl
      | cons d rest =>
          have hNext : d ≠ 96 := fun hEq => hRest (congrArg some hEq)
          rw [List.nil_append, unquoteIdentifier, if_pos rfl, if_neg hNext]
  | cons c name ih =>
      have hByte := h c List.mem_cons_self
      have hTail := ih fun d hMem => h d (List.mem_cons_of_mem _ hMem)
      cases name with
      | nil =>
          rw [List.nil_append] at hTail
          rw [List.singleton_append, unquoteIdentifier, if_neg hByte, hTail]
          rfl
      | cons d name =>
          rw [List.cons_append, List.cons_append, unquoteIdentifier, if_neg hByte, ← List.cons_append, hTail]
          rfl

/-- The database part of a grant is the name as it was given. -/
theorem databasePart_grantStatement {privileges : Bytes} (hPrivileges : ∀ c ∈ privileges, c ≠ 96) (name : DatabaseName)
    (user : Bytes) : databasePart (grantStatement privileges name.text user) = some name.text := by
  have hLead : ∀ c ∈ bytes "GRANT " ++ privileges ++ bytes " ON ", decide (c ≠ 96) = true := by
    have hGrant : ∀ c ∈ bytes "GRANT ", c ≠ 96 := by decide
    have hOn : ∀ c ∈ bytes " ON ", c ≠ 96 := by decide
    intro c hMem
    rw [decide_eq_true_iff]
    rcases List.mem_append.mp hMem with hMem | hMem
    · rcases List.mem_append.mp hMem with hMem | hMem
      · exact hGrant c hMem
      · exact hPrivileges c hMem
    · exact hOn c hMem
  have hQuoted : quoteIdentifier name.text = 96 :: name.text ++ [96] := by
    rw [quoteIdentifier, if_pos name.valid]
    rfl
  have hNext : (bytes ".* TO " ++ (quoteUser user ++ bytes ";\n")).head? ≠ some 96 := by
    have hDot : (bytes ".* TO ").head? = some 46 := by decide
    rw [List.head?_append, hDot, Option.some_or]
    decide
  have hStatement : grantStatement privileges name.text user = (bytes "GRANT " ++ privileges ++ bytes " ON ") ++
      96 :: (name.text ++ 96 :: (bytes ".* TO " ++ (quoteUser user ++ bytes ";\n"))) := by
    simp only [grantStatement, hQuoted, List.append_assoc, List.cons_append, List.nil_append]
  rw [databasePart, hStatement, List.dropWhile_append_of_pos hLead, List.dropWhile_cons_of_neg (by decide), List.tail_cons]
  exact unquoteIdentifier_append (fun c hMem => not_quote_of_identifierByte (identifierByte_of_valid name.valid c hMem)) hNext

theorem givesAccess_iff {privileges : Bytes} (hPrivileges : ∀ c ∈ privileges, c ≠ 96) (first second : DatabaseName)
    (user : Bytes) :
    GivesAccess (grantStatement privileges first.text user) second.text ↔ ¬ Apart first.text second.text := by
  rw [GivesAccess, databasePart_grantStatement hPrivileges]
  simp only [Option.some.injEq, exists_eq_left', matchesPattern_iff first.plain, Apart, not_or, not_not, not_exists, not_and]
  apply and_congr_right
  intro _
  constructor
  · intro hFits i c d hC hD hOne
    exact (hFits i c d hC hD).resolve_left hOne
  · intro hFits i c d hC hD
    by_cases hOne : c = ascii '_'
    · exact .inl hOne
    · exact .inr (hFits i c d hC hD hOne)

theorem managedDatabasePrivileges_unquoted : ∀ c ∈ managedDatabasePrivileges, c ≠ 96 := by
  intro c hMem hEq
  exact notMem_bytes (by decide) (hEq ▸ hMem)

/-- A grant keeps to its database where the two names are the same or apart. -/
theorem grant_isolates_iff (first second : DatabaseName) (user : Bytes) :
    ((GivesAccess (managedGrant first.text user) second.text ∨
        GivesAccess (sqlConsoleGrant first.text user) second.text) → first.text = second.text) ↔
      first.text = second.text ∨ Apart first.text second.text := by
  have hExtra : ∀ c ∈ sqlConsoleExtraPrivileges, c ≠ 96 := by
    intro c hMem hEq
    exact notMem_bytes (by decide) (hEq ▸ hMem)
  have hConsole : ∀ c ∈ managedDatabasePrivileges ++ bytes ", " ++ sqlConsoleExtraPrivileges, c ≠ 96 := by
    have hComma : ∀ c ∈ bytes ", ", c ≠ 96 := by decide
    simp only [List.forall_mem_append]
    exact ⟨⟨managedDatabasePrivileges_unquoted, hComma⟩, hExtra⟩
  rw [managedGrant, sqlConsoleGrant, givesAccess_iff managedDatabasePrivileges_unquoted, givesAccess_iff hConsole, or_self]
  exact or_iff_not_imp_right.symm

/-- The user of `a_b` also gets `axb`. -/
theorem grant_not_isolates :
    GivesAccess (managedGrant (bytes "a_b") (bytes "app")) (bytes "axb") ∧ bytes "a_b" ≠ bytes "axb" ∧
      validateDatabaseName (bytes "a_b") = true ∧ validateDatabaseName (bytes "axb") = true := by
  refine ⟨⟨bytes "a_b", ?_, by decide⟩, by decide⟩
  exact databasePart_grantStatement managedDatabasePrivileges_unquoted ⟨bytes "a_b", by decide⟩ (bytes "app")

end ContainerCP.DatabaseLifecycle
