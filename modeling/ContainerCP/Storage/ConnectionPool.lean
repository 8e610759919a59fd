import ContainerCP.Concurrency.Interleaving
import Mathlib.Logic.Function.Basic
import Mathlib.Tactic.Tauto

/-! `ConnectionPool`: read leases, write guards and shutdown, at the grain of
the atomic operations. A thread's program counter names the operation that it
does next; the sleeps between attempts are not steps. -/
namespace ContainerCP.Storage
open Concurrency

/-- `kReadPoolSize`. -/
abbrev readPoolSize : Nat := 3

/-- A `unique_ptr<SQLiteDB>`: null, or a connection that is open or that
`close` was called on. -/
inductive Connection where
  | absent
  | opened
  | closed
  deriving DecidableEq

/-- The members of the pool that its operations share. The counter of
outstanding leases is never above the number of threads, so its width does not
matter; `read_next_` only grows and wraps. -/
structure ConnectionPool where
  writeConn : Connection
  writeMutex : Bool := false
  readConns : Fin readPoolSize → Connection
  readNext : Int32 := 0
  readInUse : Fin readPoolSize → Bool := fun _ => false
  shutdown : Bool := false
  outstandingLeases : Int := 0

/-- The two guards that take the write mutex. A transaction guard also needs its
`BEGIN IMMEDIATE` to succeed. -/
inductive GuardKind where
  | write
  | transaction (begins : Bool)
  deriving DecidableEq

/-- The next operation of a thread that takes a lease and gives it back:
`lease_read`, the lease itself, and `return_read`. -/
inductive LeasePc where
  | start
  | checkConn
  | count
  | recheck
  | fetchNext (attempt : Nat)
  | tryNext (attempt : Nat) (idx : Fin readPoolSize)
  | tryBeside (attempt : Nat) (idx : Int)
  | takeBeside (idx : Int)
  | heldBeside
  | sweep (round : Nat)
  | sweepAt (round : Nat) (idx : Fin readPoolSize)
  | undo
  | take (idx : Fin readPoolSize)
  | refused
  | held (idx : Fin readPoolSize)
  | find (idx : Fin readPoolSize) (i : Nat)
  | release (idx : Fin readPoolSize)
  | uncount
  | done
  deriving DecidableEq

/-- The next operation of a thread with a `WriteGuard` or a `TransactionGuard`. -/
inductive GuardPc where
  | lock (kind : GuardKind)
  | checkShutdown (kind : GuardKind)
  | checkConn (kind : GuardKind)
  | refuse
  | held
  | done
  deriving DecidableEq

/-- The next operation of a thread in `shutdown`. -/
inductive StopPc where
  | setFlag
  | drain
  | lock
  | testWrite
  | closeWrite
  | resetWrite
  | unlock
  | testRead (i : Nat)
  | closeRead (i : Fin readPoolSize)
  | resetRead (i : Fin readPoolSize)
  | done
  deriving DecidableEq

inductive PoolPc where
  | lease (pc : LeasePc)
  | guard (pc : GuardPc)
  | stop (pc : StopPc)
  deriving DecidableEq

/-- `read_next_.fetch_add(1) % kReadPoolSize` as the source computes it: the
remainder of a negative counter is negative. -/
def readIndex (next : Int32) : Int := next.toInt.tmod readPoolSize

/-- The memory before the two arrays, which an index below zero reaches: what it
does to the pool to set the flag there, `none` where the byte is not zero, and
whether the pointer there is null. -/
structure Beside where
  exchange : Int → ConnectionPool → Option ConnectionPool
  isNull : Int → ConnectionPool → Bool

namespace ConnectionPool

/-- The members in the order of their declaration on a little-endian machine.
`read_in_use_[-2]` is the third byte of `read_next_`, `read_in_use_[-1]` its
last, with the sign; `read_conns_` follows the list pointers of the mutex, which
are null. -/
def declared : Beside where
  exchange idx pool :=
    if idx = -2 ∧ pool.readNext &&& 0xff0000 = 0 then
      some { pool with readNext := pool.readNext ||| 0x10000 }
    else none
  isNull _ _ := true

/-- One atomic step of `lease_read` or `return_read`. A pointer from outside the
array is none of the connections, so `return_read` does nothing with it. -/
def leaseStep (beside : Beside) : LeasePc → ConnectionPool → Option (LeasePc × ConnectionPool)
  | .start, pool => some (if pool.shutdown then .refused else .checkConn, pool)
  | .checkConn, pool => some (if pool.writeConn = .absent then .refused else .count, pool)
  | .count, pool => some (.recheck, { pool with outstandingLeases := pool.outstandingLeases + 1 })
  | .recheck, pool => some (if pool.shutdown then .undo else .fetchNext 0, pool)
  | .fetchNext attempt, pool =>
      if attempt < readPoolSize * 2 then
        let idx := readIndex pool.readNext
        some
          (if 0 ≤ idx then .tryNext attempt (Fin.ofNat readPoolSize idx.toNat)
          else .tryBeside attempt idx, { pool with readNext := pool.readNext + 1 })
      else some (.sweep 0, pool)
  | .tryNext attempt idx, pool =>
      if pool.readInUse idx then some (.fetchNext (attempt + 1), pool)
      else some (.take idx, { pool with readInUse := Function.update pool.readInUse idx true })
  | .tryBeside attempt idx, pool =>
      match beside.exchange idx pool with
      | none => some (.fetchNext (attempt + 1), pool)
      | some pool' => some (.takeBeside idx, pool')
  | .takeBeside idx, pool => some (if beside.isNull idx pool then .refused else .heldBeside, pool)
  | .heldBeside, pool => some (.done, pool)
  | .sweep round, pool =>
      some
        (if round < readPoolSize * 50 then if pool.shutdown then .undo else .sweepAt round 0
        else .undo, pool)
  | .sweepAt round idx, pool =>
      if pool.readInUse idx then
        some (if idx < 2 then .sweepAt round (idx + 1) else .sweep (round + 1), pool)
      else some (.take idx, { pool with readInUse := Function.update pool.readInUse idx true })
  | .undo, pool => some (.refused, { pool with outstandingLeases := pool.outstandingLeases - 1 })
  | .take idx, pool => some (if pool.readConns idx = .absent then .refused else .held idx, pool)
  | .refused, _ => none
  | .held idx, pool => some (.find idx 0, pool)
  | .find idx i, pool =>
      if h : i < readPoolSize then
        some
          (if pool.readConns ⟨i, h⟩ ≠ .absent ∧ idx = ⟨i, h⟩ then .release idx
          else .find idx (i + 1), pool)
      else some (.done, pool)
  | .release idx, pool =>
      some
        (if pool.readInUse idx then .uncount else .done,
          { pool with readInUse := Function.update pool.readInUse idx false })
  | .uncount, pool => some (.done, { pool with outstandingLeases := pool.outstandingLeases - 1 })
  | .done, _ => none

/-- Whether the guard becomes active once it has looked at the connection. -/
def grants (pool : ConnectionPool) : GuardKind → Bool
  | .write => pool.writeConn != .absent
  | .transaction begins => pool.writeConn == .opened && begins

/-- One atomic step of a guard. -/
def guardStep : GuardPc → ConnectionPool → Option (GuardPc × ConnectionPool)
  | .lock kind, pool =>
      if pool.writeMutex then none else some (.checkShutdown kind, { pool with writeMutex := true })
  | .checkShutdown kind, pool => some (if pool.shutdown then .refuse else .checkConn kind, pool)
  | .checkConn kind, pool => some (if pool.grants kind then .held else .refuse, pool)
  | .refuse, pool => some (.done, { pool with writeMutex := false })
  | .held, pool => some (.done, { pool with writeMutex := false })
  | .done, _ => none

/-- One atomic step of `shutdown`. A second shutdown that finds a read
connection reset between its test and its `close` closes nothing. -/
def stopStep : StopPc → ConnectionPool → Option (StopPc × ConnectionPool)
  | .setFlag, pool => some (.drain, { pool with shutdown := true })
  | .drain, pool => some (if 0 < pool.outstandingLeases then .drain else .lock, pool)
  | .lock, pool =>
      if pool.writeMutex then none else some (.testWrite, { pool with writeMutex := true })
  | .testWrite, pool => some (if pool.writeConn = .absent then .unlock else .closeWrite, pool)
  | .closeWrite, pool => some (.resetWrite, { pool with writeConn := .closed })
  | .resetWrite, pool => some (.unlock, { pool with writeConn := .absent })
  | .unlock, pool => some (.testRead 0, { pool with writeMutex := false })
  | .testRead i, pool =>
      if h : i < readPoolSize then
        some
          (if pool.readConns ⟨i, h⟩ = .absent then .testRead (i + 1) else .closeRead ⟨i, h⟩, pool)
      else some (.done, pool)
  | .closeRead i, pool =>
      let conn := if pool.readConns i = .absent then .absent else .closed
      some (.resetRead i, { pool with readConns := Function.update pool.readConns i conn })
  | .resetRead i, pool =>
      some
        (.testRead (i.val + 1), { pool with readConns := Function.update pool.readConns i .absent })
  | .done, _ => none

/-- One atomic step of a thread. `none` is a thread that waits for the mutex, or
that has no step left. -/
def next (beside : Beside) : PoolPc → ConnectionPool → Option (PoolPc × ConnectionPool)
  | .lease pc, pool => (leaseStep beside pc pool).map (Prod.map .lease id)
  | .guard pc, pool => (guardStep pc pool).map (Prod.map .guard id)
  | .stop pc, pool => (stopStep pc pool).map (Prod.map .stop id)

/-- Where an operation of the pool begins. -/
def entry : PoolPc → Bool
  | .lease pc => pc == .start
  | .guard (.lock _) => true
  | .guard _ => false
  | .stop pc => pc == .setFlag

def program (beside : Beside) : Program ConnectionPool PoolPc where
  entry := entry
  next := next beside

/-- The pool after `initialize`: with all its connections, or with none. -/
def initial (initialized : Bool) : System ConnectionPool PoolPc where
  shared :=
    { writeConn := if initialized then .opened else .absent
      readConns := fun _ => if initialized then .opened else .absent }
  threads := []

/-- The lease has the read connection, from taking its flag to giving it back. -/
def holdsRead (idx : Fin readPoolSize) : PoolPc → Bool
  | .lease (.take held) => held == idx
  | .lease (.held held) => held == idx
  | .lease (.find held _) => held == idx
  | .lease (.release held) => held == idx
  | _ => false

/-- The acquisition is in progress and counted. -/
def acquiring : PoolPc → Bool
  | .lease .recheck => true
  | .lease (.fetchNext _) => true
  | .lease (.tryNext _ _) => true
  | .lease (.tryBeside _ _) => true
  | .lease (.takeBeside _) => true
  | .lease (.sweep _) => true
  | .lease (.sweepAt _ _) => true
  | .lease .undo => true
  | .lease (.take _) => true
  | _ => false

/-- The lease is with its owner. -/
def leased : PoolPc → Bool
  | .lease (.held _) => true
  | .lease .heldBeside => true
  | _ => false

/-- The return is in progress and not yet uncounted. -/
def returning : PoolPc → Bool
  | .lease (.find _ _) => true
  | .lease (.release _) => true
  | .lease .uncount => true
  | _ => false

/-- The guard is active. -/
def guarding : PoolPc → Bool
  | .guard .held => true
  | _ => false

end ConnectionPool

end ContainerCP.Storage
