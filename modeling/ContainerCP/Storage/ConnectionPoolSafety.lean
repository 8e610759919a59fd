import ContainerCP.Storage.ReadRotation

/-! Safety of the connection pool under every schedule in which the round-robin
counter does not wrap: a read connection has at most one lease, the counter
counts the leases, and nothing is closed while it is in use. The argument rests on the order of the two looks at the shutdown
flag around the increment: a lease that passes the second look is counted
before shutdown can see the counter at zero. -/
namespace ContainerCP.Storage.ConnectionPool
open Concurrency

/-- The lease has passed the second look at the flag and needs the connections. -/
def committed : PoolPc → Bool
  | .lease (.fetchNext _) => true
  | .lease (.tryNext _ _) => true
  | .lease (.tryBeside _ _) => true
  | .lease (.takeBeside _) => true
  | .lease .heldBeside => true
  | .lease (.sweep _) => true
  | .lease (.sweepAt _ _) => true
  | .lease (.take _) => true
  | .lease (.held _) => true
  | .lease (.find _ _) => true
  | .lease (.release _) => true
  | _ => false

/-- The thread is counted in `outstanding_leases_`. -/
def counted (pc : PoolPc) : Bool := acquiring pc || leased pc || returning pc

/-- The thread has the write mutex. -/
def ownsMutex : PoolPc → Bool
  | .guard (.checkShutdown _) => true
  | .guard (.checkConn _) => true
  | .guard .refuse => true
  | .guard .held => true
  | .stop .testWrite => true
  | .stop .closeWrite => true
  | .stop .resetWrite => true
  | .stop .unlock => true
  | _ => false

/-- The shutdown has seen the leases drained. -/
def drained : PoolPc → Bool
  | .stop .setFlag => false
  | .stop .drain => false
  | .stop _ => true
  | _ => false

/-- The shutdown is done with the write connection. -/
def closedWrite : PoolPc → Bool
  | .stop .unlock => true
  | .stop (.testRead _) => true
  | .stop (.closeRead _) => true
  | .stop (.resetRead _) => true
  | .stop .done => true
  | _ => false

/-- The thread has passed a look at `write_conn_`. -/
def passedConn (pc : PoolPc) : Bool := pc == .lease .count || counted pc || guarding pc

theorem counted_of_committed {pc : PoolPc} (h : committed pc = true) : counted pc = true := by
  revert h
  fun_cases committed pc <;> simp [counted, acquiring, leased, returning]

theorem committed_of_holdsRead {pc : PoolPc} {idx : Fin readPoolSize} (h : holdsRead idx pc = true) :
    committed pc = true := by
  revert h
  fun_cases holdsRead idx pc <;> simp [committed]

theorem ownsMutex_of_guarding {pc : PoolPc} (h : guarding pc = true) : ownsMutex pc = true := by
  revert h
  fun_cases guarding pc <;> simp [ownsMutex]

theorem exists_stop_of_drained {pc : PoolPc} (h : drained pc = true) :
    ∃ stop, pc = .stop stop ∧ stop ≠ .setFlag := by
  revert h
  fun_cases drained pc <;> simp_all

/-- What the place of a thread says about the pool. -/
structure Placed (pool : ConnectionPool) (pc : PoolPc) : Prop where
  straight : astray pc = false
  find : ∀ idx i, pc = .lease (.find idx i) → i ≤ idx.val
  guard : guarding pc = true → pool.writeConn = .opened
  close : pc = .stop .closeWrite → pool.writeConn ≠ .absent
  closed : closedWrite pc = true → pool.writeConn = .absent
  flag : ∀ stop, pc = .stop stop → stop ≠ .setFlag → pool.shutdown = true

/-- The invariant of the pool. The three counts say that the flags, the counter
and the mutex are exactly what the threads account for. -/
structure Invariant (initialized : Bool) (system : System ConnectionPool PoolPc) : Prop where
  holders : ∀ idx, system.threads.countP (holdsRead idx) = (system.shared.readInUse idx).toNat
  outstanding : system.shared.outstandingLeases = system.threads.countP counted
  mutex : system.threads.countP ownsMutex = system.shared.writeMutex.toNat
  placed : ∀ thread ∈ system.threads, Placed system.shared thread
  quiet : ∀ first ∈ system.threads, drained first = true →
    ∀ second ∈ system.threads, committed second = false
  writeClosed : system.shared.writeConn = .closed → .stop .resetWrite ∈ system.threads
  writeOpen : system.shared.writeConn ≠ .opened →
    initialized = false ∨ ∃ thread ∈ system.threads, drained thread = true
  readOpen : ∀ i, system.shared.readConns i ≠ .opened → system.shared.writeConn = .absent
  uninitialized : initialized = false →
    system.shared.writeConn = .absent ∧ ∀ thread ∈ system.threads, passedConn thread = false

/-- What a thread relies on before its step. -/
structure Ready (pool : ConnectionPool) (pc : PoolPc) : Prop extends Placed pool pc where
  inUse : ∀ idx, holdsRead idx pc = true → pool.readInUse idx = true
  readable : committed pc = true → ∀ i, pool.readConns i = .opened
  locked : ownsMutex pc = true → pool.writeMutex = true
  notClosed : ownsMutex pc = true → pool.writeConn = .closed → pc = .stop .resetWrite
  index : fetching pc = true → 0 ≤ readIndex pool.readNext

section LeaseStep

variable {beside : Beside} {pc pc' : LeasePc} {pool pool' : ConnectionPool}

/-- A lease touches nothing but the flags of the read connections and the two
counters. -/
theorem leaseStep_frame (h : leaseStep beside pc pool = some (pc', pool'))
    (hPc : astray (.lease pc) = false) :
    pool'.writeConn = pool.writeConn ∧ pool'.writeMutex = pool.writeMutex ∧
      pool'.readConns = pool.readConns ∧ pool'.shutdown = pool.shutdown := by
  cases pc with
  | tryBeside | takeBeside | heldBeside => cases hPc
  | _ =>
      simp only [leaseStep] at h
      (try split at h) <;> cases h <;> simp

theorem leaseStep_take {idx : Fin readPoolSize} (hReady : Ready pool (.lease (.take idx))) :
    leaseStep beside (.take idx) pool = some (.held idx, pool) := by
  simp [leaseStep, hReady.readable rfl idx]

theorem leaseStep_find {idx : Fin readPoolSize} {i : Nat}
    (hReady : Ready pool (.lease (.find idx i))) :
    leaseStep beside (.find idx i) pool = some (.release idx, pool) ∨
      (i < idx.val ∧ leaseStep beside (.find idx i) pool = some (.find idx (i + 1), pool)) := by
  have hLe := hReady.find idx i rfl
  have hLt : i < readPoolSize := by omega
  simp only [leaseStep, hLt, dif_pos, hReady.readable rfl, Option.some.injEq, Prod.mk.injEq, and_true]
  by_cases hIdx : idx = ⟨i, hLt⟩
  · exact .inl (if_pos ⟨by decide, hIdx⟩)
  · refine .inr ⟨?_, if_neg fun h => hIdx h.2⟩
    have hNe : idx.val ≠ i := fun h => hIdx (Fin.ext h)
    omega

theorem leaseStep_release {idx : Fin readPoolSize} (hReady : Ready pool (.lease (.release idx))) :
    leaseStep beside (.release idx) pool =
      some (.uncount, { pool with readInUse := Function.update pool.readInUse idx false }) := by
  have hInUse := hReady.inUse idx (by simp [holdsRead])
  simp [leaseStep, hInUse]

theorem leaseStep_outstanding (h : leaseStep beside pc pool = some (pc', pool'))
    (hReady : Ready pool (.lease pc)) :
    pool'.outstandingLeases + (counted (.lease pc)).toNat =
      pool.outstandingLeases + (counted (.lease pc')).toNat := by
  cases pc with
  | take idx => rw [leaseStep_take hReady] at h; cases h; rfl
  | find idx i =>
      rcases leaseStep_find hReady with hFind | ⟨-, hFind⟩ <;> rw [hFind] at h <;> cases h <;> rfl
  | release idx => rw [leaseStep_release hReady] at h; cases h; rfl
  | tryBeside | takeBeside | heldBeside => cases hReady.straight
  | _ =>
      simp only [leaseStep] at h
      (try split at h) <;> cases h <;> (try split) <;>
        simp [counted, acquiring, leased, returning]

/-- Turning one flag counts for its connection and for no other. -/
theorem update_flag {flags : Fin readPoolSize → Bool} {held : Fin readPoolSize} (value : Bool)
    (h : flags held = !value) (idx : Fin readPoolSize) :
    (Function.update flags held value idx).toNat + (!value && held == idx).toNat =
      (flags idx).toNat + (value && held == idx).toNat := by
  by_cases hIdx : held = idx
  · subst hIdx
    cases value <;> simp [h]
  · simp [Function.update_of_ne (Ne.symm hIdx), beq_false_of_ne hIdx]

theorem leaseStep_readInUse (h : leaseStep beside pc pool = some (pc', pool'))
    (hReady : Ready pool (.lease pc)) (idx : Fin readPoolSize) :
    (pool'.readInUse idx).toNat + (holdsRead idx (.lease pc)).toNat =
      (pool.readInUse idx).toNat + (holdsRead idx (.lease pc')).toNat := by
  cases pc with
  | take held => rw [leaseStep_take hReady] at h; cases h; rfl
  | find held i =>
      rcases leaseStep_find hReady with hFind | ⟨-, hFind⟩ <;> rw [hFind] at h <;> cases h <;> rfl
  | release held =>
      have hInUse := hReady.inUse held (by simp [holdsRead])
      rw [leaseStep_release hReady] at h
      cases h
      simpa [holdsRead] using update_flag false hInUse idx
  | tryNext attempt held =>
      simp only [leaseStep] at h
      split at h <;> cases h
      · rfl
      next hFree =>
        have hFlag : pool.readInUse held = false := by simpa using hFree
        simpa [holdsRead] using update_flag true hFlag idx
  | sweepAt round held =>
      simp only [leaseStep] at h
      split at h <;> cases h
      · split <;> rfl
      next hFree =>
        have hFlag : pool.readInUse held = false := by simpa using hFree
        simpa [holdsRead] using update_flag true hFlag idx
  | tryBeside | takeBeside | heldBeside => cases hReady.straight
  | _ =>
      simp only [leaseStep] at h
      (try split at h) <;> cases h <;> (try split) <;> rfl

theorem leaseStep_committed (h : leaseStep beside pc pool = some (pc', pool'))
    (hPc : committed (.lease pc') = true) :
    committed (.lease pc) = true ∨ (pc = .recheck ∧ pool.shutdown = false) := by
  cases pc with
  | tryBeside | takeBeside | heldBeside => exact .inl rfl
  | _ =>
      simp only [leaseStep] at h
      (try split at h) <;> cases h <;> (try split at hPc) <;> simp_all [committed]

theorem leaseStep_passedConn (h : leaseStep beside pc pool = some (pc', pool'))
    (hPc : passedConn (.lease pc') = true) :
    passedConn (.lease pc) = true ∨ pool.writeConn ≠ .absent := by
  cases pc with
  | tryBeside | takeBeside | heldBeside => exact .inl rfl
  | _ =>
      simp only [leaseStep] at h
      (try split at h) <;> cases h <;> (try split at hPc) <;>
        simp_all [passedConn, counted, acquiring, leased, returning, guarding]

theorem leaseStep_placed (h : leaseStep beside pc pool = some (pc', pool'))
    (hReady : Ready pool (.lease pc)) : Placed pool' (.lease pc') where
  straight := by
    have hNext : next beside (.lease pc) pool = some (.lease pc', pool') := by rw [next, h]; rfl
    exact (next_readNext hNext hReady.straight hReady.index).2
  find := by
    rintro idx i hPc
    obtain rfl := PoolPc.lease.inj hPc
    cases pc with
    | held held => cases h; exact Nat.zero_le _
    | find held i =>
        rcases leaseStep_find hReady with hFind | ⟨hLt, hFind⟩ <;> rw [hFind] at h <;> cases h
        exact hLt
    | tryBeside | takeBeside | heldBeside => cases hReady.straight
    | _ =>
        simp only [leaseStep] at h
        (try split at h) <;> (try split at h) <;> simp at h
  guard := by simp [guarding]
  close := by simp
  closed := by simp [closedWrite]
  flag := by simp

end LeaseStep

/-- What a step of any thread does, as far as the invariant is concerned. -/
structure StepSpec (pool : ConnectionPool) (pc : PoolPc) (pool' : ConnectionPool) (pc' : PoolPc) :
    Prop where
  outstanding : pool'.outstandingLeases + (counted pc).toNat =
    pool.outstandingLeases + (counted pc').toNat
  readInUse : ∀ idx, (pool'.readInUse idx).toNat + (holdsRead idx pc).toNat =
    (pool.readInUse idx).toNat + (holdsRead idx pc').toNat
  mutex : pool'.writeMutex.toNat + (ownsMutex pc).toNat =
    pool.writeMutex.toNat + (ownsMutex pc').toNat
  placed : Placed pool' pc'
  shutdown : pool.shutdown = true → pool'.shutdown = true
  writeConn : (pool'.writeConn = pool.writeConn ∧ pc ≠ .stop .resetWrite) ∨
    (pc = .stop .closeWrite ∧ pc' = .stop .resetWrite ∧ pool'.writeConn = .closed) ∨
    (pc = .stop .resetWrite ∧ pool'.writeConn = .absent)
  readConns : pool'.readConns = pool.readConns ∨ closedWrite pc = true
  commits : committed pc' = true → committed pc = true ∨ pool.shutdown = false
  drains : drained pc' = true → drained pc = true ∨ pool.outstandingLeases ≤ 0
  staysDrained : drained pc = true → drained pc' = true
  passes : passedConn pc' = true → passedConn pc = true ∨ pool.writeConn ≠ .absent

theorem leaseStep_spec {beside : Beside} {pc pc' : LeasePc} {pool pool' : ConnectionPool}
    (h : leaseStep beside pc pool = some (pc', pool')) (hReady : Ready pool (.lease pc)) :
    StepSpec pool (.lease pc) pool' (.lease pc') := by
  obtain ⟨hConn, hMutex, hReads, hShutdown⟩ := leaseStep_frame h hReady.straight
  exact
    { outstanding := leaseStep_outstanding h hReady
      readInUse := leaseStep_readInUse h hReady
      mutex := by rw [hMutex]; rfl
      placed := leaseStep_placed h hReady
      shutdown := by rw [hShutdown]; exact id
      writeConn := .inl ⟨hConn, by simp⟩
      readConns := .inl hReads
      commits := fun hPc => (leaseStep_committed h hPc).imp_right And.right
      drains := by simp [drained]
      staysDrained := by simp [drained]
      passes := leaseStep_passedConn h }

/-- A guard touches nothing but the mutex. -/
theorem guardStep_frame {pc pc' : GuardPc} {pool pool' : ConnectionPool}
    (h : guardStep pc pool = some (pc', pool')) :
    pool'.writeConn = pool.writeConn ∧ pool'.readConns = pool.readConns ∧
      pool'.readInUse = pool.readInUse ∧ pool'.shutdown = pool.shutdown ∧
      pool'.outstandingLeases = pool.outstandingLeases := by
  cases pc <;> simp only [guardStep] at h <;> (try split at h) <;> cases h <;> simp

theorem guardStep_spec {pc pc' : GuardPc} {pool pool' : ConnectionPool}
    (h : guardStep pc pool = some (pc', pool')) (hReady : Ready pool (.guard pc)) :
    StepSpec pool (.guard pc) pool' (.guard pc') := by
  obtain ⟨hConn, hReads, hInUse, hShutdown, hOutstanding⟩ := guardStep_frame h
  have hGrant : guarding (.guard pc') = true → pool.writeConn = .opened := by
    intro hPc
    cases pc with
    | checkConn kind =>
        have hNotClosed := hReady.notClosed rfl
        cases hWrite : pool.writeConn with
        | opened => rfl
        | closed => simp [hWrite] at hNotClosed
        | absent =>
            have hRefused : pool.grants kind = false := by cases kind <;> simp [grants, hWrite]
            simp only [guardStep, hRefused] at h
            cases h
            cases hPc
    | _ =>
        simp only [guardStep] at h
        (try split at h) <;> cases h <;> simp [guarding] at hPc
  exact
    { outstanding := by rw [hOutstanding]; rfl
      readInUse := by intro idx; rw [hInUse]; rfl
      mutex := by
        have hLocked := hReady.locked
        cases pc <;> simp only [guardStep] at h <;> (try split at h) <;> cases h <;>
          simp_all [ownsMutex]
      placed :=
        { straight := rfl
          find := by simp
          guard := fun hPc => hConn.trans (hGrant hPc)
          close := by simp
          closed := by simp [closedWrite]
          flag := by simp }
      shutdown := by rw [hShutdown]; exact id
      writeConn := .inl ⟨hConn, by simp⟩
      readConns := .inl hReads
      commits := by simp [committed]
      drains := by simp [drained]
      staysDrained := by simp [drained]
      passes := fun hPc => by
        have hGuard : guarding (.guard pc') = true := by
          simpa [passedConn, counted, acquiring, leased, returning] using hPc
        rw [hGrant hGuard]
        exact .inr (by decide) }

theorem stopStep_spec {pc pc' : StopPc} {pool pool' : ConnectionPool}
    (h : stopStep pc pool = some (pc', pool')) (hReady : Ready pool (.stop pc)) :
    StepSpec pool (.stop pc) pool' (.stop pc') := by
  have hFrame : pool'.readInUse = pool.readInUse ∧
      pool'.outstandingLeases = pool.outstandingLeases := by
    cases pc <;> simp only [stopStep] at h <;> (try split at h) <;> cases h <;> simp
  obtain ⟨hInUse, hOutstanding⟩ := hFrame
  exact
    { outstanding := by rw [hOutstanding]; rfl
      readInUse := by intro idx; rw [hInUse]; rfl
      mutex := by
        have hLocked := hReady.locked
        cases pc <;> simp only [stopStep] at h <;> (try split at h) <;> cases h <;> (try split) <;>
          simp_all [ownsMutex]
      placed :=
        { straight := rfl
          find := by simp
          guard := by simp [guarding]
          close := by
            cases pc <;> simp only [stopStep] at h <;> (try split at h) <;> cases h <;> (try split) <;>
              simp_all
          closed := by
            have hClosed := hReady.closed
            cases pc <;> simp only [stopStep] at h <;> (try split at h) <;> cases h <;> (try split) <;>
              simp_all [closedWrite]
          flag := by
            have hFlag := hReady.flag pc rfl
            cases pc <;> simp only [stopStep] at h <;> (try split at h) <;> cases h <;> simp_all }
      shutdown := by
        cases pc <;> simp only [stopStep] at h <;> (try split at h) <;> cases h <;> simp
      writeConn := by
        cases pc <;> simp only [stopStep] at h <;> (try split at h) <;> cases h <;> simp
      readConns := by
        cases pc <;> simp only [stopStep] at h <;> (try split at h) <;> cases h <;>
          simp [closedWrite]
      commits := by simp [committed]
      drains := by
        cases pc <;> simp only [stopStep] at h <;> (try split at h) <;> cases h <;> (try split) <;>
          simp_all [drained]
      staysDrained := by
        cases pc <;> simp only [stopStep] at h <;> (try split at h) <;> cases h <;> (try split) <;>
          simp [drained]
      passes := by simp [passedConn, counted, acquiring, leased, returning, guarding] }

theorem next_spec {beside : Beside} {pc pc' : PoolPc} {pool pool' : ConnectionPool}
    (h : next beside pc pool = some (pc', pool')) (hReady : Ready pool pc) :
    StepSpec pool pc pool' pc' := by
  cases pc with
  | lease pc =>
      obtain ⟨⟨pc', pool'⟩, hStep, hEq⟩ := Option.map_eq_some_iff.mp h
      cases hEq
      exact leaseStep_spec hStep hReady
  | guard pc =>
      obtain ⟨⟨pc', pool'⟩, hStep, hEq⟩ := Option.map_eq_some_iff.mp h
      cases hEq
      exact guardStep_spec hStep hReady
  | stop pc =>
      obtain ⟨⟨pc', pool'⟩, hStep, hEq⟩ := Option.map_eq_some_iff.mp h
      cases hEq
      exact stopStep_spec hStep hReady

section Preservation

variable {beside : Beside} {initialized : Bool} {pool pool' : ConnectionPool}
  {before after : List PoolPc} {pc pc' : PoolPc}

theorem countP_middle (p : PoolPc → Bool) (before after : List PoolPc) (pc : PoolPc) :
    (before ++ pc :: after).countP p = (before ++ after).countP p + (p pc).toNat := by
  rw [List.countP_append, List.countP_cons, List.countP_append]
  cases p pc <;> simp
  omega

theorem mem_middle {before after : List PoolPc} {pc thread : PoolPc} :
    thread ∈ before ++ pc :: after ↔ thread = pc ∨ thread ∈ before ++ after := by
  simp only [List.mem_append, List.mem_cons]
  tauto

/-- The thread that has the mutex is the only one that has it. -/
theorem Invariant.only_owner (hInv : Invariant initialized ⟨pool, before ++ pc :: after⟩)
    (hPc : ownsMutex pc = true) {other : PoolPc} (hOther : other ∈ before ++ after) :
    ownsMutex other = false := by
  have hCount := hInv.mutex
  simp only [countP_middle, hPc, Bool.toNat_true] at hCount
  have hLe : pool.writeMutex.toNat ≤ 1 := Bool.toNat_le _
  have hZero : (before ++ after).countP ownsMutex = 0 := by omega
  simpa using List.countP_eq_zero.mp hZero other hOther

/-- While a lease needs the connections, none of them is closed. -/
theorem Invariant.writeConn_of_committed {system : System ConnectionPool PoolPc}
    (hInv : Invariant initialized system) {thread : PoolPc} (hMem : thread ∈ system.threads)
    (hThread : committed thread = true) : system.shared.writeConn = .opened := by
  by_contra hClosed
  rcases hInv.writeOpen hClosed with hUninitialized | ⟨other, hOther, hDrained⟩
  · have hPassed := (hInv.uninitialized hUninitialized).2 thread hMem
    simp [passedConn, counted_of_committed hThread] at hPassed
  · have hQuiet := hInv.quiet other hOther hDrained thread hMem
    rw [hThread] at hQuiet
    cases hQuiet

theorem Invariant.readConns_of_committed {system : System ConnectionPool PoolPc}
    (hInv : Invariant initialized system) {thread : PoolPc} (hMem : thread ∈ system.threads)
    (hThread : committed thread = true) (i : Fin readPoolSize) :
    system.shared.readConns i = .opened := by
  by_contra hClosed
  have hAbsent := hInv.readOpen i hClosed
  rw [hInv.writeConn_of_committed hMem hThread] at hAbsent
  cases hAbsent

theorem Invariant.ready (hInv : Invariant initialized ⟨pool, before ++ pc :: after⟩)
    (hIndex : fetching pc = true → 0 ≤ readIndex pool.readNext) : Ready pool pc := by
  have hMem : pc ∈ before ++ pc :: after := mem_middle.mpr (.inl rfl)
  refine { hInv.placed pc hMem with inUse := ?_, readable := ?_, locked := ?_, notClosed := ?_, index := hIndex }
  · intro idx hHolds
    have hCount := hInv.holders idx
    simp only [countP_middle, hHolds, Bool.toNat_true] at hCount
    cases hFlag : pool.readInUse idx with
    | true => rfl
    | false => simp [hFlag] at hCount
  · exact hInv.readConns_of_committed hMem
  · intro hOwns
    have hCount := hInv.mutex
    simp only [countP_middle, hOwns, Bool.toNat_true] at hCount
    cases hFlag : pool.writeMutex with
    | true => rfl
    | false => simp [hFlag] at hCount
  · intro hOwns hClosed
    rcases mem_middle.mp (hInv.writeClosed hClosed) with hSame | hOther
    · exact hSame.symm
    · cases hInv.only_owner hOwns hOther

/-- A step of one thread leaves the others in place. -/
theorem Invariant.others_placed (hInv : Invariant initialized ⟨pool, before ++ pc :: after⟩)
    (hSpec : StepSpec pool pc pool' pc') {other : PoolPc} (hOther : other ∈ before ++ after) :
    Placed pool' other := by
  have hPlaced := hInv.placed other (mem_middle.mpr (.inr hOther))
  have hConn : pool'.writeConn = pool.writeConn ∨
      (ownsMutex pc = true ∧ (closedWrite other = true → pool'.writeConn = .absent)) := by
    rcases hSpec.writeConn with ⟨hSame, -⟩ | ⟨rfl, -, hClosed⟩ | ⟨rfl, hAbsent⟩
    · exact .inl hSame
    · refine .inr ⟨rfl, fun hDone => ?_⟩
      have hNotAbsent := (hInv.placed (.stop .closeWrite) (mem_middle.mpr (.inl rfl))).close rfl
      exact absurd (hPlaced.closed hDone) hNotAbsent
    · exact .inr ⟨rfl, fun _ => hAbsent⟩
  refine ⟨hPlaced.straight, hPlaced.find, fun hGuard => ?_, fun hClose => ?_, fun hDone => ?_,
    fun stop hStop hNe => hSpec.shutdown (hPlaced.flag stop hStop hNe)⟩
  · rcases hConn with hSame | ⟨hOwns, -⟩
    · exact hSame.trans (hPlaced.guard hGuard)
    · have hNot := hInv.only_owner hOwns hOther
      rw [ownsMutex_of_guarding hGuard] at hNot
      cases hNot
  · rcases hConn with hSame | ⟨hOwns, -⟩
    · rw [hSame]; exact hPlaced.close hClose
    · have hNot := hInv.only_owner hOwns hOther
      rw [hClose] at hNot
      cases hNot
  · rcases hConn with hSame | ⟨-, hAbsent⟩
    · exact hSame.trans (hPlaced.closed hDone)
    · exact hAbsent hDone

theorem Invariant.write_absent (hInv : Invariant initialized ⟨pool, before ++ pc :: after⟩)
    (hSpec : StepSpec pool pc pool' pc') (hAbsent : pool.writeConn = .absent) :
    pool'.writeConn = .absent := by
  rcases hSpec.writeConn with ⟨hSame, -⟩ | ⟨rfl, -, -⟩ | ⟨-, hReset⟩
  · exact hSame.trans hAbsent
  · exact absurd hAbsent ((hInv.placed (.stop .closeWrite) (mem_middle.mpr (.inl rfl))).close rfl)
  · exact hReset

theorem Invariant.no_committed (hInv : Invariant initialized ⟨pool, before ++ pc :: after⟩)
    (hZero : pool.outstandingLeases ≤ 0) {thread : PoolPc} (hMem : thread ∈ before ++ pc :: after) :
    committed thread = false := by
  have hCount : (before ++ pc :: after).countP counted = 0 := by
    have hOutstanding := hInv.outstanding
    simp only at hOutstanding
    omega
  have hNot := List.countP_eq_zero.mp hCount thread hMem
  cases hThread : committed thread with
  | false => rfl
  | true => exact absurd (counted_of_committed hThread) hNot

theorem Invariant.shutdown_of_drained (hInv : Invariant initialized ⟨pool, before ++ pc :: after⟩)
    {thread : PoolPc} (hMem : thread ∈ before ++ pc :: after) (hThread : drained thread = true) :
    pool.shutdown = true := by
  obtain ⟨stop, hStop, hNe⟩ := exists_stop_of_drained hThread
  exact (hInv.placed thread hMem).flag stop hStop hNe

/-- No lease is left that needs the connections once the leases are drained,
and none can come in: the flag was set before. -/
theorem Invariant.quiet_step (hInv : Invariant initialized ⟨pool, before ++ pc :: after⟩)
    (hSpec : StepSpec pool pc pool' pc') {first second : PoolPc}
    (hFirst : first ∈ before ++ pc' :: after) (hDrained : drained first = true)
    (hSecond : second ∈ before ++ pc' :: after) : committed second = false := by
  have hPc : pc ∈ before ++ pc :: after := mem_middle.mpr (.inl rfl)
  rcases mem_middle.mp hSecond with rfl | hSecond
  · rcases mem_middle.mp hFirst with rfl | hFirst
    · obtain ⟨stop, rfl, -⟩ := exists_stop_of_drained hDrained
      rfl
    · have hOld : first ∈ before ++ pc :: after := mem_middle.mpr (.inr hFirst)
      cases hCommitted : committed second with
      | false => rfl
      | true =>
          rcases hSpec.commits hCommitted with hPcCommitted | hFlag
          · rw [hInv.quiet first hOld hDrained pc hPc] at hPcCommitted
            cases hPcCommitted
          · rw [hInv.shutdown_of_drained hOld hDrained] at hFlag
            cases hFlag
  · have hOld : second ∈ before ++ pc :: after := mem_middle.mpr (.inr hSecond)
    rcases mem_middle.mp hFirst with rfl | hFirst
    · rcases hSpec.drains hDrained with hPcDrained | hZero
      · exact hInv.quiet pc hPc hPcDrained second hOld
      · exact hInv.no_committed hZero hOld
    · exact hInv.quiet first (mem_middle.mpr (.inr hFirst)) hDrained second hOld

theorem Invariant.step (hInv : Invariant initialized ⟨pool, before ++ pc :: after⟩)
    (h : next beside pc pool = some (pc', pool')) (hIndex : fetching pc = true → 0 ≤ readIndex pool.readNext) :
    Invariant initialized ⟨pool', before ++ pc' :: after⟩ := by
  have hSpec := next_spec h (hInv.ready hIndex)
  have hPc : pc ∈ before ++ pc :: after := mem_middle.mpr (.inl rfl)
  constructor
  case holders =>
    intro idx
    have hCount := hInv.holders idx
    have hStep := hSpec.readInUse idx
    simp only [countP_middle] at hCount ⊢
    omega
  case outstanding =>
    have hCount := hInv.outstanding
    have hStep := hSpec.outstanding
    simp only [countP_middle, Int.natCast_add] at hCount ⊢
    omega
  case mutex =>
    have hCount := hInv.mutex
    have hStep := hSpec.mutex
    simp only [countP_middle] at hCount ⊢
    omega
  case placed =>
    intro thread hThread
    rcases mem_middle.mp hThread with rfl | hOther
    · exact hSpec.placed
    · exact hInv.others_placed hSpec hOther
  case quiet =>
    intro first hFirst hDrained second hSecond
    exact hInv.quiet_step hSpec hFirst hDrained hSecond
  case writeClosed =>
    intro hClosed
    rcases hSpec.writeConn with ⟨hSame, hNe⟩ | ⟨-, rfl, -⟩ | ⟨-, hAbsent⟩
    · rcases mem_middle.mp (hInv.writeClosed (hSame ▸ hClosed)) with hSelf | hOther
      · exact absurd hSelf.symm hNe
      · exact mem_middle.mpr (.inr hOther)
    · exact mem_middle.mpr (.inl rfl)
    · rw [hAbsent] at hClosed
      cases hClosed
  case writeOpen =>
    intro hNotOpen
    have hOld : initialized = false ∨ ∃ thread ∈ before ++ pc :: after, drained thread = true := by
      rcases hSpec.writeConn with ⟨hSame, -⟩ | ⟨rfl, -, -⟩ | ⟨rfl, -⟩
      · exact hInv.writeOpen (hSame ▸ hNotOpen)
      · exact .inr ⟨_, hPc, rfl⟩
      · exact .inr ⟨_, hPc, rfl⟩
    refine hOld.imp_right fun ⟨thread, hThread, hDrained⟩ => ?_
    rcases mem_middle.mp hThread with rfl | hOther
    · exact ⟨pc', mem_middle.mpr (.inl rfl), hSpec.staysDrained hDrained⟩
    · exact ⟨thread, mem_middle.mpr (.inr hOther), hDrained⟩
  case readOpen =>
    intro i hNotOpen
    refine hInv.write_absent hSpec ?_
    rcases hSpec.readConns with hSame | hClosed
    · exact hInv.readOpen i (hSame ▸ hNotOpen)
    · exact (hInv.placed pc hPc).closed hClosed
  case uninitialized =>
    intro hUninitialized
    obtain ⟨hAbsent, hNone⟩ := hInv.uninitialized hUninitialized
    refine ⟨hInv.write_absent hSpec hAbsent, fun thread hThread => ?_⟩
    rcases mem_middle.mp hThread with rfl | hOther
    · cases hPassed : passedConn thread with
      | false => rfl
      | true =>
          rcases hSpec.passes hPassed with hOld | hPresent
          · rw [hNone pc hPc] at hOld
            cases hOld
          · exact absurd hAbsent hPresent
    · exact hNone thread (mem_middle.mpr (.inr hOther))

end Preservation

/-- A thread at the beginning of an operation takes part in nothing yet. -/
theorem entry_spec {pc : PoolPc} (h : entry pc = true) :
    (∀ idx, holdsRead idx pc = false) ∧ counted pc = false ∧ ownsMutex pc = false ∧
      drained pc = false ∧ committed pc = false ∧ passedConn pc = false ∧
      ∀ pool : ConnectionPool, Placed pool pc := by
  have hPc : pc = .lease .start ∨ (∃ kind, pc = .guard (.lock kind)) ∨ pc = .stop .setFlag := by
    revert h
    fun_cases entry pc <;> simp
  rcases hPc with rfl | ⟨kind, rfl⟩ | rfl <;>
    refine ⟨fun _ => rfl, rfl, rfl, rfl, rfl, rfl, fun pool => ⟨rfl, ?_, ?_, ?_, ?_, ?_⟩⟩ <;>
    simp [guarding, closedWrite]

theorem Invariant.start {initialized : Bool} {pool : ConnectionPool} {threads : List PoolPc}
    {pc : PoolPc} (h : entry pc = true) (hInv : Invariant initialized ⟨pool, threads⟩) :
    Invariant initialized ⟨pool, threads ++ [pc]⟩ := by
  obtain ⟨hHolds, hCounted, hOwns, hDrained, hCommitted, hPassed, hPlaced⟩ := entry_spec h
  constructor
  case holders => intro idx; simpa [hHolds] using hInv.holders idx
  case outstanding => simpa [hCounted] using hInv.outstanding
  case mutex => simpa [hOwns] using hInv.mutex
  case placed =>
    intro thread hThread
    rcases List.mem_append.mp hThread with hOld | hNew
    · exact hInv.placed thread hOld
    · rw [List.mem_singleton.mp hNew]
      exact hPlaced pool
  case quiet =>
    intro first hFirst hFirstDrained second hSecond
    rcases List.mem_append.mp hSecond with hSecond | hSecond
    · rcases List.mem_append.mp hFirst with hFirst | hFirst
      · exact hInv.quiet first hFirst hFirstDrained second hSecond
      · rw [List.mem_singleton.mp hFirst, hDrained] at hFirstDrained
        cases hFirstDrained
    · rw [List.mem_singleton.mp hSecond, hCommitted]
  case writeClosed => exact fun hClosed => List.mem_append_left _ (hInv.writeClosed hClosed)
  case writeOpen =>
    exact fun hNotOpen => (hInv.writeOpen hNotOpen).imp_right fun ⟨thread, hThread, hThreadDrained⟩ =>
      ⟨thread, List.mem_append_left _ hThread, hThreadDrained⟩
  case readOpen => exact hInv.readOpen
  case uninitialized =>
    intro hUninitialized
    obtain ⟨hAbsent, hNone⟩ := hInv.uninitialized hUninitialized
    refine ⟨hAbsent, fun thread hThread => ?_⟩
    rcases List.mem_append.mp hThread with hOld | hNew
    · exact hNone thread hOld
    · rw [List.mem_singleton.mp hNew, hPassed]

theorem invariant_initial (initialized : Bool) : Invariant initialized (initial initialized) := by
  constructor <;> cases initialized <;> simp [initial]

/-- One turn in which the counter does not wrap. -/
theorem Invariant.turn {beside : Beside} {initialized : Bool} {k : Nat} {system : System ConnectionPool PoolPc}
    (hInv : Invariant initialized system) (h : Rotated k system) {choice : Choice PoolPc}
    (hFew : k + (fetchesNext system choice).toNat ≤ 2 ^ 31) :
    Invariant initialized ((program beside).turn system choice) := by
  rcases (program beside).turn_cases system choice with ⟨hSame, -⟩ | ⟨entry, -, hEntry, hTurn⟩ |
    ⟨thread, before, pc, after, pc', pool', rfl, hPc, hNext, hThreads, hTurn⟩
  · rwa [hSame]
  · rw [hTurn]
    exact hInv.start hEntry
  · rw [hTurn]
    have hOld : Invariant initialized ⟨system.shared, before ++ pc :: after⟩ := by rwa [← hThreads]
    exact hOld.step hNext (h.index hPc hFew)

/-- The invariant holds after every schedule in which the counter does not wrap. -/
theorem Invariant.run {beside : Beside} {initialized : Bool} (schedule : List (Choice PoolPc)) {k : Nat}
    {system : System ConnectionPool PoolPc} (hInv : Invariant initialized system) (h : Rotated k system)
    (hFew : k + fetches beside system schedule ≤ 2 ^ 31) :
    Invariant initialized ((program beside).run system schedule) := by
  induction schedule generalizing k system with
  | nil => exact hInv
  | cons choice rest ih =>
      rw [fetches] at hFew
      exact ih (hInv.turn h (by omega)) (h.turn (by omega)) (by omega)

theorem committed_of_leased {pc : PoolPc} (h : leased pc = true) : committed pc = true := by
  revert h
  fun_cases leased pc <;> simp [committed]

/-- A counted thread acquires a lease, has one, or returns one. -/
theorem countP_counted (threads : List PoolPc) :
    threads.countP counted =
      threads.countP leased + threads.countP acquiring + threads.countP returning := by
  induction threads with
  | nil => rfl
  | cons pc rest ih =>
      have hPc : (counted pc).toNat = (leased pc).toNat + (acquiring pc).toNat + (returning pc).toNat := by
        cases pc with
        | lease pc => cases pc <;> rfl
        | guard _ => rfl
        | stop _ => rfl
      have hCons : ∀ p, (pc :: rest).countP p = rest.countP p + (p pc).toNat :=
        fun p => countP_middle p [] rest pc
      rw [hCons, hCons, hCons, hCons]
      omega

theorem committed_of_fetching {pc : PoolPc} (h : fetching pc = true) : committed pc = true := by
  revert h
  fun_cases fetching pc <;> simp [committed]

/-- Once a connection is closed no thread fetches the counter any more, and no
step opens a connection. -/
theorem closed_preserves (beside : Beside) (initialized : Bool) :
    (program beside).Preserves fun system =>
      Invariant initialized system ∧ system.shared.writeConn ≠ .opened where
  start _ _ _ hEntry h := ⟨h.1.start hEntry, h.2⟩
  resume pool before pc after pc' pool' hNext h := by
    have hIndex : fetching pc = true → 0 ≤ readIndex pool.readNext := fun hFetching =>
      absurd (h.1.writeConn_of_committed (mem_middle.mpr (.inl rfl)) (committed_of_fetching hFetching)) h.2
    refine ⟨h.1.step hNext hIndex, ?_⟩
    rcases (next_spec hNext (h.1.ready hIndex)).writeConn with ⟨hSame, -⟩ | ⟨-, -, hClosed⟩ | ⟨-, hAbsent⟩
    · exact hSame ▸ h.2
    · simp [hClosed]
    · simp [hAbsent]

/-- Some connection of the pool is not open. -/
def AnyClosed (pool : ConnectionPool) : Prop :=
  pool.writeConn ≠ .opened ∨ ∃ i, pool.readConns i ≠ .opened

/-- No lease and no guard is active. -/
def NoneActive (threads : List PoolPc) : Prop :=
  ∀ thread ∈ threads, leased thread = false ∧ guarding thread = false

theorem Invariant.noneActive {initialized : Bool} {system : System ConnectionPool PoolPc}
    (hInv : Invariant initialized system) (h : system.shared.writeConn ≠ .opened) :
    NoneActive system.threads := by
  intro thread hThread
  constructor
  · cases hLeased : leased thread with
    | false => rfl
    | true => exact absurd (hInv.writeConn_of_committed hThread (committed_of_leased hLeased)) h
  · cases hGuard : guarding thread with
    | false => rfl
    | true => exact absurd ((hInv.placed thread hThread).guard hGuard) h

/-- Safety of the pool: after every schedule under which `read_next_` is fetched at
most `2^31` times, a read connection has at most one lease, the counter is the
number of leases held, being acquired and being returned, every connection in
use is open, and from the moment on at which a connection is closed no lease and
no guard is active any more. -/
theorem connectionPool_safe (beside : Beside) (initialized : Bool) (schedule : List (Choice PoolPc))
    (h : fetches beside (initial initialized) schedule ≤ 2 ^ 31) :
    let system := (program beside).run (initial initialized) schedule
    (∀ idx, system.threads.countP (holdsRead idx) ≤ 1) ∧
    system.shared.outstandingLeases =
      system.threads.countP leased + system.threads.countP acquiring +
        system.threads.countP returning ∧
    (∀ thread ∈ system.threads,
      (∀ idx, holdsRead idx thread = true → system.shared.readConns idx = .opened) ∧
      (guarding thread = true → system.shared.writeConn = .opened)) ∧
    (AnyClosed system.shared → ∀ later, NoneActive ((program beside).run system later).threads) := by
  intro system
  have hInv : Invariant initialized system :=
    (invariant_initial initialized).run schedule (rotated_initial initialized) (by rwa [Nat.zero_add])
  refine ⟨fun idx => ?_, ?_, fun thread hThread => ⟨fun idx hHolds => ?_, ?_⟩, fun hClosed later => ?_⟩
  · rw [hInv.holders idx]
    exact Bool.toNat_le _
  · rw [hInv.outstanding, countP_counted, Int.natCast_add, Int.natCast_add]
  · exact hInv.readConns_of_committed hThread (committed_of_holdsRead hHolds) idx
  · exact (hInv.placed thread hThread).guard
  · have hNotOpen : system.shared.writeConn ≠ .opened := by
      rcases hClosed with hClosed | ⟨i, hClosed⟩
      · exact hClosed
      · rw [hInv.readOpen i hClosed]
        decide
    obtain ⟨hLater, hStill⟩ := (closed_preserves beside initialized).run ⟨hInv, hNotOpen⟩ later
    exact hLater.noneActive hStill

/-- A lease that is taken, given back, and taken again by the next thread. -/
theorem connectionPool_safe_leases :
    fetches declared (initial true) (leaseCycles 2) ≤ 2 ^ 31 ∧
      ((program declared).run (initial true) (leaseCycles 2)).shared.outstandingLeases = 0 :=
  have hFew : fetches declared (initial true) (leaseCycles 2) ≤ 2 ^ 31 := by
    rw [(run_leaseCycles (by decide)).2]
    decide
  ⟨hFew, (connectionPool_safe declared true (leaseCycles 2) hFew).2.1.trans (by rw [(run_leaseCycles (by decide)).1]; rfl)⟩

/-- The lease behind `2^31` others stays counted, and nobody has it. -/
theorem outstandingLeases_stray :
    ¬∀ schedule,
      let system := (program declared).run (initial true) schedule
      system.shared.outstandingLeases =
        system.threads.countP leased + system.threads.countP acquiring +
          system.threads.countP returning := by
  intro h
  have hCount := h (leaseCycles (2 ^ 31 + 1))
  simp only [run_wrapped.1, List.countP_append, List.countP_replicate] at hCount
  exact absurd hCount (by decide)

end ContainerCP.Storage.ConnectionPool
