import Mathlib.Logic.Function.Basic

/-! Programs that talk to a database, statement by statement. A statement can
fail, and the process can stop in front of any statement; what is left then
depends on the savepoints that are open. Events record what a program did
besides, and no rollback takes them back. -/
namespace ContainerCP.Sql

/-- What becomes of a statement: it is carried out, it is refused without an
effect, or the process stops in front of it. -/
inductive Verdict where
  | succeeds
  | fails
  | stops
  deriving DecidableEq

/-- A connection: the data as the connection sees it, for each open savepoint,
innermost first, the data at the time it was set, and the events so far, the
latest first. -/
structure Connection (Name Data Event : Type) where
  data : Data
  savepoints : List (Name × Data) := []
  events : List Event := []

/-- What other connections see, and what a new process finds: the outermost open
savepoint began a transaction that is not committed. -/
def Connection.committed {Name Data Event : Type} (conn : Connection Name Data Event) : Data :=
  match conn.savepoints.getLast? with
  | some (_, data) => data
  | none => conn.data

/-- How a program ends: with a value, or in front of a statement that it did not
get to. -/
inductive Outcome (Name Data Event α : Type) where
  | done (value : α) (conn : Connection Name Data Event)
  | stopped (conn : Connection Name Data Event)

def Outcome.conn {Name Data Event α : Type} : Outcome Name Data Event α → Connection Name Data Event
  | .done _ conn => conn
  | .stopped conn => conn

def Script (Name Data Event α : Type) := Connection Name Data Event → Outcome Name Data Event α

namespace Script

variable {Name Data Event α β : Type}

instance : Monad (Script Name Data Event) where
  pure value := fun conn => .done value conn
  bind script next := fun conn =>
    match script conn with
    | .done value conn' => next value conn'
    | .stopped conn' => .stopped conn'

@[simp]
theorem pure_apply (value : α) (conn : Connection Name Data Event) :
    (pure value : Script Name Data Event α) conn = .done value conn := rfl

theorem bind_apply (script : Script Name Data Event α) (next : α → Script Name Data Event β)
    (conn : Connection Name Data Event) :
    (script >>= next) conn =
      match script conn with
      | .done value conn' => next value conn'
      | .stopped conn' => .stopped conn' := rfl

/-- A statement that changes the data, where it does not violate a constraint. -/
def exec (verdict : Verdict) (effect : Data → Option Data) : Script Name Data Event Bool := fun conn =>
  match verdict with
  | .stops => .stopped conn
  | .fails => .done false conn
  | .succeeds =>
      match effect conn.data with
      | some data => .done true { conn with data }
      | none => .done false conn

/-- A query for one row. Without one, or when the query fails, there is no
answer. -/
def query (verdict : Verdict) (read : Data → Option α) : Script Name Data Event (Option α) := fun conn =>
  match verdict with
  | .stops => .stopped conn
  | .fails => .done none conn
  | .succeeds => .done (read conn.data) conn

/-- Let an event happen. -/
def emit (event : Data → Event) : Script Name Data Event Unit := fun conn =>
  .done () { conn with events := event conn.data :: conn.events }

/-- A stretch of the program that changes the data by other means. -/
def modify (change : Data → Data × α) : Script Name Data Event α := fun conn =>
  .done (change conn.data).2 { conn with data := (change conn.data).1 }

/-- The process stops in the middle of such a stretch. -/
def stopAfter (change : Data → Data) : Script Name Data Event α := fun conn =>
  .stopped { conn with data := change conn.data }

/-- The data as they are now. -/
def current : Script Name Data Event Data := fun conn => .done conn.data conn

/-- `SAVEPOINT name`. -/
def savepoint (verdict : Verdict) (name : Name) : Script Name Data Event Bool := fun conn =>
  match verdict with
  | .stops => .stopped conn
  | .fails => .done false conn
  | .succeeds => .done true { conn with savepoints := (name, conn.data) :: conn.savepoints }

/-- A query through another connection. -/
def peek (verdict : Verdict) (read : Data → Option α) : Script Name Data Event (Option α) := fun conn =>
  match verdict with
  | .stops => .stopped conn
  | .fails => .done none conn
  | .succeeds => .done (read conn.committed) conn

/-- `BEGIN`, which is refused in an open transaction. -/
def beginTransaction (verdict : Verdict) (name : Name) : Script Name Data Event Bool := fun conn =>
  match verdict with
  | .stops => .stopped conn
  | .fails => .done false conn
  | .succeeds =>
      if conn.savepoints.isEmpty then .done true { conn with savepoints := [(name, conn.data)] }
      else .done false conn

/-- `COMMIT`. -/
def commit (verdict : Verdict) : Script Name Data Event Bool := fun conn =>
  match verdict with
  | .stops => .stopped conn
  | .fails => .done false conn
  | .succeeds =>
      if conn.savepoints.isEmpty then .done false conn
      else .done true { conn with savepoints := [] }

/-- `ROLLBACK`. -/
def rollback (verdict : Verdict) : Script Name Data Event Bool := fun conn =>
  match verdict with
  | .stops => .stopped conn
  | .fails => .done false conn
  | .succeeds =>
      if conn.savepoints.isEmpty then .done false conn
      else .done true { conn with data := conn.committed, savepoints := [] }

/-- What becomes of the statements around a transaction. -/
structure Guard where
  onBegin : Verdict := .succeeds
  onCommit : Verdict := .succeeds
  onRollback : Verdict := .succeeds

/-- A program in a transaction of its own: committed where the program answers
`true`, rolled back otherwise and where the commit fails. -/
def transaction (outer : Guard) (name : Name) (body : Script Name Data Event Bool) :
    Script Name Data Event Bool := do
  if ← beginTransaction outer.onBegin name then
    if ← body then
      if ← commit outer.onCommit then
        return true
    discard (rollback outer.onRollback)
    return false
  else
    return false

variable [DecidableEq Name]

/-- `ROLLBACK TO name`: the data of the innermost savepoint of that name come
back, and the savepoint stays open. -/
def rollbackTo (verdict : Verdict) (name : Name) : Script Name Data Event Bool := fun conn =>
  match verdict with
  | .stops => .stopped conn
  | .fails => .done false conn
  | .succeeds =>
      match conn.savepoints.dropWhile (·.1 ≠ name) with
      | [] => .done false conn
      | (found, data) :: outer =>
          .done true { conn with data, savepoints := (found, data) :: outer }

/-- `RELEASE name`: the innermost savepoint of that name is closed, with those
inside it, and the data stay. -/
def release (verdict : Verdict) (name : Name) : Script Name Data Event Bool := fun conn =>
  match verdict with
  | .stops => .stopped conn
  | .fails => .done false conn
  | .succeeds =>
      match conn.savepoints.dropWhile (·.1 ≠ name) with
      | [] => .done false conn
      | _ :: outer => .done true { conn with savepoints := outer }

end Script

section Triple

variable {Name Data Event α β : Type}

/-- From a connection with `pre` the program ends with `post`, or stops with
`stop`. -/
def Triple (pre : Connection Name Data Event → Prop) (script : Script Name Data Event α)
    (post : α → Connection Name Data Event → Prop) (stop : Connection Name Data Event → Prop) :
    Prop :=
  ∀ conn, pre conn →
    match script conn with
    | .done value conn' => post value conn'
    | .stopped conn' => stop conn'

variable {pre : Connection Name Data Event → Prop} {stop : Connection Name Data Event → Prop}

namespace Triple

theorem pure {value : α} {post : α → Connection Name Data Event → Prop}
    (h : ∀ conn, pre conn → post value conn) :
    Triple pre (Pure.pure value : Script Name Data Event α) post stop :=
  h

theorem bind {script : Script Name Data Event α} {next : α → Script Name Data Event β}
    {post : β → Connection Name Data Event → Prop} (mid : α → Connection Name Data Event → Prop)
    (hFirst : Triple pre script mid stop) (hNext : ∀ value, Triple (mid value) (next value) post stop) :
    Triple pre (script >>= next) post stop := by
  intro conn hPre
  have hScript := hFirst conn hPre
  rw [Script.bind_apply]
  cases hRun : script conn with
  | done value conn' =>
      rw [hRun] at hScript
      exact hNext value conn' hScript
  | stopped conn' =>
      rw [hRun] at hScript
      exact hScript

theorem consequence {pre' : Connection Name Data Event → Prop}
    {stop' : Connection Name Data Event → Prop} {script : Script Name Data Event α}
    {post post' : α → Connection Name Data Event → Prop} (h : Triple pre script post stop)
    (hPre : ∀ conn, pre' conn → pre conn) (hPost : ∀ value conn, post value conn → post' value conn)
    (hStop : ∀ conn, stop conn → stop' conn) : Triple pre' script post' stop' := by
  intro conn hConn
  have hScript := h conn (hPre conn hConn)
  cases hRun : script conn with
  | done value conn' =>
      rw [hRun] at hScript
      exact hPost value conn' hScript
  | stopped conn' =>
      rw [hRun] at hScript
      exact hStop conn' hScript

theorem always (script : Script Name Data Event α) :
    Triple pre script (fun _ _ => True) (fun _ => True) := by
  intro conn _
  cases script conn with
  | done value conn' => trivial
  | stopped conn' => trivial

theorem conn {script : Script Name Data Event α} (h : Triple pre script (fun _ => stop) stop)
    {conn : Connection Name Data Event} (hConn : pre conn) : stop (script conn).conn := by
  have hScript := h conn hConn
  cases hRun : script conn with
  | done value conn' =>
      rw [hRun] at hScript
      exact hScript
  | stopped conn' =>
      rw [hRun] at hScript
      exact hScript

/-- A statement that may fail: it either changes the data as it should or
changes nothing. -/
theorem exec {verdict : Verdict} {effect : Data → Option Data}
    {post : Bool → Connection Name Data Event → Prop}
    (hEffect : ∀ conn data, pre conn → verdict = .succeeds → effect conn.data = some data →
      post true { conn with data })
    (hFail : ∀ conn, pre conn → verdict = .fails ∨ effect conn.data = none → post false conn)
    (hStop : ∀ conn, pre conn → verdict = .stops → stop conn) :
    Triple pre (Script.exec verdict effect) post stop := by
  intro conn hPre
  cases verdict with
  | stops => exact hStop conn hPre rfl
  | fails => exact hFail conn hPre (.inl rfl)
  | succeeds =>
      cases hData : effect conn.data with
      | none => simpa [Script.exec, hData] using hFail conn hPre (.inr hData)
      | some data => simpa [Script.exec, hData] using hEffect conn data hPre rfl hData

theorem query {verdict : Verdict} {read : Data → Option α}
    {post : Option α → Connection Name Data Event → Prop}
    (hRead : ∀ conn, pre conn → verdict = .succeeds → post (read conn.data) conn)
    (hFail : ∀ conn, pre conn → verdict = .fails → post none conn)
    (hStop : ∀ conn, pre conn → verdict = .stops → stop conn) :
    Triple pre (Script.query verdict read) post stop := by
  intro conn hPre
  cases verdict with
  | stops => exact hStop conn hPre rfl
  | fails => exact hFail conn hPre rfl
  | succeeds => exact hRead conn hPre rfl

theorem emit {event : Data → Event} {post : Unit → Connection Name Data Event → Prop}
    (h : ∀ conn, pre conn → post () { conn with events := event conn.data :: conn.events }) :
    Triple pre (Script.emit event) post stop :=
  h

theorem modify {change : Data → Data × α} {post : α → Connection Name Data Event → Prop}
    (h : ∀ conn, pre conn → post (change conn.data).2 { conn with data := (change conn.data).1 }) :
    Triple pre (Script.modify change) post stop :=
  h

theorem stopAfter {change : Data → Data} {post : α → Connection Name Data Event → Prop}
    (h : ∀ conn, pre conn → stop { conn with data := change conn.data }) :
    Triple pre (Script.stopAfter change) post stop :=
  h

theorem current {post : Data → Connection Name Data Event → Prop}
    (h : ∀ conn, pre conn → post conn.data conn) : Triple pre Script.current post stop :=
  h

theorem savepoint {verdict : Verdict} {name : Name}
    {post : Bool → Connection Name Data Event → Prop}
    (hOpen : ∀ conn, pre conn →
      post true { conn with savepoints := (name, conn.data) :: conn.savepoints })
    (hFail : ∀ conn, pre conn → verdict = .fails → post false conn)
    (hStop : ∀ conn, pre conn → verdict = .stops → stop conn) :
    Triple pre (Script.savepoint verdict name) post stop := by
  intro conn hPre
  cases verdict with
  | stops => exact hStop conn hPre rfl
  | fails => exact hFail conn hPre rfl
  | succeeds => exact hOpen conn hPre

theorem peek {verdict : Verdict} {read : Data → Option α}
    {post : Option α → Connection Name Data Event → Prop}
    (hRead : ∀ conn, pre conn → verdict = .succeeds → post (read conn.committed) conn)
    (hFail : ∀ conn, pre conn → verdict = .fails → post none conn)
    (hStop : ∀ conn, pre conn → verdict = .stops → stop conn) :
    Triple pre (Script.peek verdict read) post stop := by
  intro conn hPre
  cases verdict with
  | stops => exact hStop conn hPre rfl
  | fails => exact hFail conn hPre rfl
  | succeeds => exact hRead conn hPre rfl

theorem beginTransaction {verdict : Verdict} {name : Name}
    {post : Bool → Connection Name Data Event → Prop}
    (hOpen : ∀ conn, pre conn → conn.savepoints = [] →
      post true { conn with savepoints := [(name, conn.data)] })
    (hFail : ∀ conn, pre conn → post false conn) (hStop : ∀ conn, pre conn → stop conn) :
    Triple pre (Script.beginTransaction verdict name) post stop := by
  intro conn hPre
  cases verdict with
  | stops => exact hStop conn hPre
  | fails => exact hFail conn hPre
  | succeeds =>
      simp only [Script.beginTransaction, List.isEmpty_iff]
      by_cases hClosed : conn.savepoints = []
      · rw [if_pos hClosed]
        exact hOpen conn hPre hClosed
      · rw [if_neg hClosed]
        exact hFail conn hPre

theorem commit {verdict : Verdict} {post : Bool → Connection Name Data Event → Prop}
    (hCommit : ∀ conn, pre conn → post true { conn with savepoints := [] })
    (hFail : ∀ conn, pre conn → post false conn) (hStop : ∀ conn, pre conn → stop conn) :
    Triple pre (Script.commit verdict) post stop := by
  intro conn hPre
  cases verdict with
  | stops => exact hStop conn hPre
  | fails => exact hFail conn hPre
  | succeeds =>
      simp only [Script.commit]
      by_cases hClosed : conn.savepoints.isEmpty = true
      · rw [if_pos hClosed]
        exact hFail conn hPre
      · rw [if_neg hClosed]
        exact hCommit conn hPre

theorem rollback {verdict : Verdict} {post : Bool → Connection Name Data Event → Prop}
    (hBack : ∀ conn, pre conn → post true { conn with data := conn.committed, savepoints := [] })
    (hFail : ∀ conn, pre conn → post false conn) (hStop : ∀ conn, pre conn → stop conn) :
    Triple pre (Script.rollback verdict) post stop := by
  intro conn hPre
  cases verdict with
  | stops => exact hStop conn hPre
  | fails => exact hFail conn hPre
  | succeeds =>
      simp only [Script.rollback]
      by_cases hClosed : conn.savepoints.isEmpty = true
      · rw [if_pos hClosed]
        exact hFail conn hPre
      · rw [if_neg hClosed]
        exact hBack conn hPre

/-- Inside a transaction the program changes the data and leaves the savepoints
as they are. -/
def Inside (savepoints : List (Name × Data)) (before : Data → Prop) (script : Script Name Data Event α)
    (after : α → Data → Prop) : Prop :=
  Triple (fun conn => conn.savepoints = savepoints ∧ before conn.data) script
    (fun value conn => conn.savepoints = savepoints ∧ after value conn.data)
    (fun conn => conn.savepoints = savepoints)

namespace Inside

variable {savepoints : List (Name × Data)} {before : Data → Prop}

theorem pure {value : α} {after : α → Data → Prop} (h : ∀ data, before data → after value data) :
    Inside savepoints before (Pure.pure value : Script Name Data Event α) after :=
  Triple.pure fun conn hConn => ⟨hConn.1, h conn.data hConn.2⟩

theorem bind {script : Script Name Data Event α} {next : α → Script Name Data Event β}
    {after : β → Data → Prop} (mid : α → Data → Prop) (hFirst : Inside savepoints before script mid)
    (hNext : ∀ value, Inside savepoints (mid value) (next value) after) :
    Inside savepoints before (script >>= next) after :=
  Triple.bind _ hFirst hNext

theorem consequence {before' : Data → Prop} {script : Script Name Data Event α}
    {after after' : α → Data → Prop} (h : Inside savepoints before script after)
    (hBefore : ∀ data, before' data → before data)
    (hAfter : ∀ value data, after value data → after' value data) :
    Inside savepoints before' script after' :=
  Triple.consequence h (fun conn hConn => ⟨hConn.1, hBefore conn.data hConn.2⟩)
    (fun value conn hConn => ⟨hConn.1, hAfter value conn.data hConn.2⟩) fun _ hConn => hConn

theorem exec {verdict : Verdict} {effect : Data → Option Data} {after : Bool → Data → Prop}
    (hEffect : ∀ data data', before data → effect data = some data' → after true data')
    (hFail : ∀ data, before data → after false data) :
    Inside savepoints before (Script.exec verdict effect : Script Name Data Event Bool) after :=
  Triple.exec (fun conn data hConn _ hData => ⟨hConn.1, hEffect conn.data data hConn.2 hData⟩)
    (fun conn hConn _ => ⟨hConn.1, hFail conn.data hConn.2⟩) fun _ hConn _ => hConn.1

theorem query {verdict : Verdict} {read : Data → Option α} {after : Option α → Data → Prop}
    (hRead : ∀ data, before data → after (read data) data)
    (hFail : ∀ data, before data → after none data) :
    Inside savepoints before (Script.query verdict read : Script Name Data Event (Option α)) after :=
  Triple.query (fun conn hConn _ => ⟨hConn.1, hRead conn.data hConn.2⟩)
    (fun conn hConn _ => ⟨hConn.1, hFail conn.data hConn.2⟩) fun _ hConn _ => hConn.1

/-- The data before may be taken as fixed. -/
theorem fixed {script : Script Name Data Event α} {after : α → Data → Prop}
    (h : ∀ data, before data → Inside savepoints (fun current => current = data) script after) :
    Inside savepoints before script after :=
  fun conn hConn => h conn.data hConn.2 conn ⟨hConn.1, rfl⟩

end Inside

/-- The whole transaction: `true` commits what the program did, and otherwise
the committed data are what they were. -/
theorem transaction {outer : Script.Guard} {name : Name} {body : Script Name Data Event Bool}
    {data : Data} {result : Data → Prop}
    (hBody : Inside [(name, data)] (fun current => current = data) body
      (fun answer current => answer = true → result current)) :
    Triple (fun conn => conn.committed = data) (Script.transaction outer name body)
      (fun answer conn =>
        (answer = true → result conn.committed) ∧ (answer = false → conn.committed = data))
      (fun conn => conn.committed = data) := by
  have hOpen : ∀ conn : Connection Name Data Event, conn.savepoints = [(name, data)] →
      conn.committed = data := by
    intro conn hSavepoints
    simp [Connection.committed, hSavepoints]
  refine bind (fun answer conn =>
    if answer then conn.savepoints = [(name, data)] ∧ conn.data = data else conn.committed = data)
    (beginTransaction ?_ (fun _ h => by simpa using h) (fun _ h => h)) ?_
  · intro conn hCommitted hClosed
    have hData : conn.data = data := by simpa [Connection.committed, hClosed] using hCommitted
    simp [hData]
  rintro (- | -)
  · exact pure fun conn h => ⟨by simp, fun _ => by simpa using h⟩
  have hRollback : Triple (fun conn => conn.savepoints = [(name, data)])
      (do discard (Script.rollback outer.onRollback); return false : Script Name Data Event Bool)
      (fun answer conn =>
        (answer = true → result conn.committed) ∧ (answer = false → conn.committed = data))
      (fun conn => conn.committed = data) := by
    refine bind (fun _ conn => conn.committed = data) ?_ fun _ => pure fun _ h => ⟨by simp, fun _ => h⟩
    refine bind (fun _ conn => conn.committed = data) (rollback ?_ hOpen hOpen) fun _ => pure fun _ h => h
    intro conn hSavepoints
    simpa [Connection.committed] using hOpen conn hSavepoints
  refine bind _ (Triple.consequence hBody (fun _ h => by simpa using h) (fun _ _ h => h) hOpen) ?_
  rintro (- | -)
  · exact hRollback.consequence (fun _ h => h.1) (fun _ _ h => h) (fun _ h => h)
  refine bind (fun answer conn =>
    if answer then result conn.committed else conn.savepoints = [(name, data)])
    (commit ?_ (fun _ h => by simpa using h.1) (fun conn h => hOpen conn h.1)) ?_
  · intro conn h
    simpa [Connection.committed] using h.2 rfl
  rintro (- | -)
  · exact hRollback.consequence (fun _ h => by simpa using h) (fun _ _ h => h) (fun _ h => h)
  · exact pure fun conn h => ⟨fun _ => by simpa using h, by simp⟩

variable [DecidableEq Name]

/-- Back to the innermost savepoint. -/
theorem rollbackTo {verdict : Verdict} {name : Name} {data : Data}
    {post : Bool → Connection Name Data Event → Prop}
    (hTop : ∀ conn, pre conn → ∃ outer, conn.savepoints = (name, data) :: outer)
    (hBack : ∀ conn, pre conn → post true { conn with data })
    (hFail : ∀ conn, pre conn → verdict = .fails → post false conn)
    (hStop : ∀ conn, pre conn → verdict = .stops → stop conn) :
    Triple pre (Script.rollbackTo verdict name) post stop := by
  intro conn hPre
  cases verdict with
  | stops => exact hStop conn hPre rfl
  | fails => exact hFail conn hPre rfl
  | succeeds =>
      have hRolledBack := hBack conn hPre
      obtain ⟨outer, hOpen⟩ := hTop conn hPre
      obtain ⟨old, savepoints, events⟩ := conn
      obtain rfl : savepoints = (name, data) :: outer := hOpen
      simpa [Script.rollbackTo] using hRolledBack

/-- Closing a savepoint leaves the data and the events. -/
theorem release {verdict : Verdict} {name : Name} {post : Bool → Connection Name Data Event → Prop}
    (h : ∀ conn answer savepoints, pre conn →
      verdict = .fails ∨ (∀ data, conn.savepoints = [(name, data)] → savepoints = []) →
      post answer { conn with savepoints })
    (hStop : ∀ conn, pre conn → verdict = .stops → stop conn) :
    Triple pre (Script.release verdict name) post stop := by
  intro conn hPre
  cases verdict with
  | stops => exact hStop conn hPre rfl
  | fails => exact h conn false conn.savepoints hPre (.inl rfl)
  | succeeds =>
      simp only [Script.release]
      cases hOpen : conn.savepoints.dropWhile (·.1 ≠ name) with
      | nil =>
          refine h conn false conn.savepoints hPre (.inr fun data hTop => ?_)
          simp [hTop] at hOpen
      | cons top outer =>
          refine h conn true outer hPre (.inr fun data hTop => ?_)
          rw [hTop, List.dropWhile_cons_of_neg (by simp)] at hOpen
          exact (List.cons.inj hOpen).2.symm

end Triple

end Triple

/-- The connection of a new process. -/
def Connection.reopen {Name Data Event : Type} (conn : Connection Name Data Event) : Connection Name Data Event where
  data := conn.committed

end ContainerCP.Sql
