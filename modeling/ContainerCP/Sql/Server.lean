import Mathlib.Logic.Function.Basic
import ContainerCP.Text.Bytes

/-! A MariaDB server: its databases, its users and what they are granted, and the
statements that change them. -/
namespace ContainerCP.Sql

/-- An account. The server notes when its password was set; here it is counted how often. -/
structure User where
  password : Bytes
  settings : Nat
  deriving DecidableEq

/-- The content of each database, each account, and the privileges of an account on a
database. Only an account that there is has privileges. -/
@[ext]
structure Server where
  databases : Bytes → Option Bytes
  users : Bytes → Option User
  grants : Bytes → Bytes → List Bytes
  granted : ∀ user database, users user = none → grants user database = []

inductive Statement where
  | createDatabase (database : Bytes)
  | createUserIfNotExists (user password : Bytes)
  | alterUser (user password : Bytes)
  | grant (privileges database user : Bytes)
  | revokeAll (database user : Bytes)
  | dropDatabaseIfExists (database : Bytes)
  | dropUserIfExists (user : Bytes)
  deriving DecidableEq

namespace Server

variable (server : Server)

def setDatabase (database : Bytes) (content : Option Bytes) : Server :=
  { server with databases := Function.update server.databases database content }

def setUser (user : Bytes) (account : User) : Server where
  databases := server.databases
  users := Function.update server.users user (some account)
  grants := server.grants
  granted := by
    intro other database hNone
    by_cases hUser : other = user
    · subst hUser
      simp at hNone
    · rw [Function.update_of_ne hUser] at hNone
      exact server.granted other database hNone

def dropUser (user : Bytes) : Server where
  databases := server.databases
  users := Function.update server.users user none
  grants := Function.update server.grants user fun _ => []
  granted := by
    intro other database hNone
    by_cases hUser : other = user
    · subst hUser
      simp
    · rw [Function.update_of_ne hUser] at hNone ⊢
      exact server.granted other database hNone

def setGrant (user database : Bytes) (privileges : List Bytes) (h : server.users user ≠ none) : Server where
  databases := server.databases
  users := server.users
  grants := Function.update server.grants user (Function.update (server.grants user) database privileges)
  granted := by
    intro other database hNone
    have hOther : other ≠ user := fun hEq => h (hEq ▸ hNone)
    rw [Function.update_of_ne hOther]
    exact server.granted other database hNone

variable (database user : Bytes) (content : Option Bytes) (account : User) (privileges : List Bytes)

@[simp] theorem databases_setDatabase :
    (server.setDatabase database content).databases = Function.update server.databases database content := rfl

@[simp] theorem users_setDatabase : (server.setDatabase database content).users = server.users := rfl

@[simp] theorem grants_setDatabase : (server.setDatabase database content).grants = server.grants := rfl

@[simp] theorem databases_setUser : (server.setUser user account).databases = server.databases := rfl

@[simp] theorem users_setUser :
    (server.setUser user account).users = Function.update server.users user (some account) := rfl

@[simp] theorem grants_setUser : (server.setUser user account).grants = server.grants := rfl

@[simp] theorem databases_dropUser : (server.dropUser user).databases = server.databases := rfl

@[simp] theorem users_dropUser : (server.dropUser user).users = Function.update server.users user none := rfl

@[simp] theorem grants_dropUser :
    (server.dropUser user).grants = Function.update server.grants user fun _ => [] := rfl

@[simp] theorem databases_setGrant (h : server.users user ≠ none) :
    (server.setGrant user database privileges h).databases = server.databases := rfl

@[simp] theorem users_setGrant (h : server.users user ≠ none) :
    (server.setGrant user database privileges h).users = server.users := rfl

@[simp] theorem grants_setGrant (h : server.users user ≠ none) :
    (server.setGrant user database privileges h).grants =
      Function.update server.grants user (Function.update (server.grants user) database privileges) := rfl

end Server

/-- What a statement does, if it does not fail. -/
def Statement.apply (server : Server) : Statement → Option Server
  | createDatabase database =>
      match server.databases database with
      | some _ => none
      | none => some (server.setDatabase database (some []))
  | createUserIfNotExists user password =>
      match server.users user with
      | some _ => some server
      | none => some (server.setUser user ⟨password, 1⟩)
  | alterUser user password =>
      match server.users user with
      | none => none
      | some account => some (server.setUser user ⟨password, account.settings + 1⟩)
  | grant privileges database user =>
      if h : server.users user ≠ none then
        some (server.setGrant user database (privileges :: server.grants user database) h)
      else none
  | revokeAll database user =>
      if h : server.users user ≠ none then
        if server.grants user database = [] then none else some (server.setGrant user database [] h)
      else none
  | dropDatabaseIfExists database => some (server.setDatabase database none)
  | dropUserIfExists user => some (server.dropUser user)

/-- A script that the client sends. It stops at a statement that fails. Where a limit is
given the connection breaks behind so many statements, and the client reports a failure. -/
def execute : Option Nat → List Statement → Server → Bool × Server
  | limit, [], server => (limit.isNone, server)
  | some 0, _ :: _, server => (false, server)
  | limit, statement :: rest, server =>
      match statement.apply server with
      | none => (false, server)
      | some after => execute (limit.map Nat.pred) rest after

/-- What every statement of a script preserves, the script preserves, wherever it ends. -/
theorem execute_invariant {holds : Server → Prop} {script : List Statement}
    (hStep : ∀ statement ∈ script, ∀ server after, holds server → statement.apply server = some after → holds after)
    (limit : Option Nat) {server : Server} (h : holds server) : holds (execute limit script server).2 := by
  induction script generalizing limit server with
  | nil =>
      rw [execute]
      exact h
  | cons statement rest ih =>
      have hRest := ih fun other hOther => hStep other (List.mem_cons_of_mem _ hOther)
      have hRun : ∀ limit, holds (match statement.apply server with
          | none => (false, server)
          | some after => execute limit rest after).2 := by
        intro limit
        cases hApply : statement.apply server with
        | none => exact h
        | some after => exact hRest limit (hStep statement List.mem_cons_self server after h hApply)
      rcases limit with - | (- | limit)
      · exact hRun none
      · exact h
      · exact hRun (some limit)

/-! ## Scripts of one statement -/

theorem execute_single_fails {statement : Statement} {server : Server} (h : statement.apply server = none) (limit : Option Nat) :
    execute limit [statement] server = (false, server) := by
  rcases limit with - | (- | limit)
  · simp [execute, h]
  · rfl
  · simp [execute, h]

theorem execute_single {statement : Statement} {server after : Server} (h : statement.apply server = some after) (limit : Option Nat) :
    execute limit [statement] server = (limit.isNone, if limit = some 0 then server else after) := by
  rcases limit with - | (- | limit)
  · simp [execute, h]
  · rfl
  · simp [execute, h]

end ContainerCP.Sql
