import ContainerCP.Text.Decimal
import ContainerCP.Text.Lines
import Mathlib.Data.Set.Insert

/-! The allocator of host ports. Ports are 16-bit numbers, so that a loop over
the range may run past its end and begin again at port 0: the loops take fuel,
and a loop without an end answers nothing at any fuel. -/
namespace ContainerCP.Runtime

/-- A directory entry below the sites directory, with the content of its
`.env` file where that can be opened. -/
structure SiteEntry where
  name : Bytes
  isDirectory : Bool
  env : Option Bytes
  deriving DecidableEq

/-- The port on the first line of an environment file that sets one. A value
that is no number ends the search as well. -/
def nginxPort (env : Bytes) : Option UInt16 := do
  let line ← (getlines newline env).find? ((bytes "NGINX_PORT=").isPrefixOf ·)
  let value ← stoull (line.drop 11)
  return value.toUInt16

/-- The port a directory entry says to be in use. -/
def SiteEntry.port (entry : SiteEntry) : Option UInt16 :=
  if !entry.isDirectory then none
  else if entry.name = bytes "." then none
  else if entry.name = bytes ".." then none
  else entry.env.bind nginxPort

/-- The allocator has one flag for every port up to the end of its range. -/
structure PortManager where
  startPort : UInt16
  nextCandidate : UInt16
  endPort : UInt16
  used : Vector Bool (endPort.toNat + 1)

namespace PortManager

variable (manager : PortManager)

/-- The constructor. -/
def new (startPort endPort : UInt16) : PortManager :=
  ⟨startPort, startPort, endPort, Vector.replicate _ false⟩

/-- The flag of a port. A port behind the end of the range has none. -/
def usedAt (port : UInt16) : Bool := manager.used[port.toNat]?.getD false

def setUsed (port : UInt16) (value : Bool) : PortManager :=
  { manager with used := manager.used.setIfInBounds port.toNat value }

/-- The loop that looks for a port without a flag. -/
def skipUsed : Nat → UInt16 → Option UInt16
  | 0, _ => none
  | fuel + 1, port =>
      if port ≤ manager.endPort && manager.usedAt port then skipUsed fuel (port + 1) else some port

def allocate (fuel : Nat) : Option (UInt16 × PortManager) := do
  let mut port ← manager.skipUsed fuel manager.nextCandidate
  if port > manager.endPort then
    port ← manager.skipUsed fuel manager.startPort
  if port > manager.endPort then
    return (0, manager)
  return (port, { manager.setUsed port true with nextCandidate := port + 1 })

def release (port : UInt16) : PortManager :=
  if port.toNat < manager.endPort.toNat + 1 then
    let manager := manager.setUsed port false
    if port < manager.nextCandidate then { manager with nextCandidate := port } else manager
  else manager

/-- The flag set for one directory entry. -/
def scanEntry (entry : SiteEntry) : PortManager :=
  match entry.port with
  | none => manager
  | some port => if port.toNat < manager.endPort.toNat + 1 then manager.setUsed port true else manager

/-- The entries of the sites directory in the order they are read. Nothing
stands for a directory that cannot be opened. -/
def scanExistingSites (listing : Option (List SiteEntry)) : PortManager :=
  match listing with
  | none => manager
  | some entries => entries.foldl scanEntry manager

def isAllocated (port : UInt16) : Bool := port.toNat < manager.endPort.toNat + 1 && manager.usedAt port

/-- The loop of `allocated_ports`. Its counter is a 16-bit number as well. -/
def collectUsed : Nat → UInt16 → Option (List UInt16)
  | 0, _ => none
  | fuel + 1, port =>
      if port.toNat < manager.endPort.toNat + 1 then
        (collectUsed fuel (port + 1)).map fun ports => if manager.usedAt port then port :: ports else ports
      else some []

def allocatedPorts (fuel : Nat) : Option (List UInt16) := manager.collectUsed fuel manager.startPort

/-- A call of `allocate` that ends. -/
def Allocates (port : UInt16) (manager' : PortManager) : Prop := ∃ fuel, manager.allocate fuel = some (port, manager')

/-- A call of `allocated_ports` that ends. -/
def Lists (ports : List UInt16) : Prop := ∃ fuel, manager.allocatedPorts fuel = some ports

end PortManager

/-- A finished call, with its answer. -/
inductive PortEvent where
  | allocated (port : UInt16)
  | released (port : UInt16)
  | scanned (listing : Option (List SiteEntry))

/-- The calls that end, one after another. -/
inductive PortManager.Runs (first : PortManager) : List PortEvent → PortManager → Prop
  | nil : Runs first [] first
  | allocate {events : List PortEvent} {manager manager' : PortManager} {port : UInt16}
      (before : Runs first events manager) (call : manager.Allocates port manager') :
      Runs first (events ++ [.allocated port]) manager'
  | release {events : List PortEvent} {manager : PortManager} (port : UInt16) (before : Runs first events manager) :
      Runs first (events ++ [.released port]) (manager.release port)
  | scan {events : List PortEvent} {manager : PortManager} (listing : Option (List SiteEntry))
      (before : Runs first events manager) :
      Runs first (events ++ [.scanned listing]) (manager.scanExistingSites listing)

/-! What the allocator is for. The allocated ports are a set that the history of
the calls alone determines. -/

/-- The ports allocated after one more call. The answer 0 allocates nothing. -/
def PortEvent.held (held : Set UInt16) : PortEvent → Set UInt16
  | .allocated port => if port = 0 then held else insert port held
  | .released port => held \ {port}
  | .scanned listing => held ∪ {port | ∃ entries ∈ listing, ∃ entry ∈ entries, entry.port = some port}

/-- The ports allocated after a history. -/
def heldAfter (events : List PortEvent) : Set UInt16 := events.foldl PortEvent.held ∅

/-- What is promised of the next call of an allocator for a range, where the ports
of `held` are allocated. -/
structure PortManager.Sound (startPort endPort : UInt16) (manager : PortManager) (held : Set UInt16) : Prop where
  allocateEnds : ∃ port manager', manager.Allocates port manager'
  allocated : ∀ port manager', manager.Allocates port manager' → port ≠ 0 →
    startPort ≤ port ∧ port ≤ endPort ∧ port ∉ held
  exhausted : ∀ manager', manager.Allocates 0 manager' →
    ∀ port, startPort ≤ port → port ≤ endPort → port ∈ held
  listEnds : ∃ ports, manager.Lists ports
  listed : ∀ ports, manager.Lists ports →
    ports.Pairwise (· < ·) ∧ ∀ port, port ∈ ports ↔ startPort ≤ port ∧ port ≤ endPort ∧ port ∈ held

/-- The allocator of a range agrees with a set of allocated ports. Its cursor has
not left the range at the front. -/
structure PortManager.Refines (startPort endPort : UInt16) (manager : PortManager) (held : Set UInt16) : Prop where
  start_eq : manager.startPort = startPort
  end_eq : manager.endPort = endPort
  cursor : startPort ≤ manager.nextCandidate
  flags : ∀ port, startPort ≤ port → port ≤ endPort → (manager.usedAt port = true ↔ port ∈ held)

namespace PortManager

variable {manager manager' : PortManager} {port : UInt16} {held : Set UInt16}

theorem succ_toNat (h : port < 65535) : (port + 1).toNat = port.toNat + 1 := by
  have hLt : port.toNat < 65535 := h
  simp [UInt16.toNat_add]
  omega

theorem le_iff_lt_of_ne {other : UInt16} (hNe : other ≠ port) : port ≤ other ↔ port < other := by
  have hNat : other.toNat ≠ port.toNat := fun h => hNe (UInt16.toNat_inj.mp h)
  rw [UInt16.le_iff_toNat_le, UInt16.lt_iff_toNat_lt]
  omega

theorem usedAt_setUsed (value : Bool) (other : UInt16) :
    (manager.setUsed port value).usedAt other =
      if other = port ∧ port ≤ manager.endPort then value else manager.usedAt other := by
  show ((manager.used.setIfInBounds port.toNat value)[other.toNat]?).getD false = _
  have hSize : port ≤ manager.endPort ↔ port.toNat < manager.endPort.toNat + 1 := Nat.lt_succ_iff.symm
  rw [Vector.getElem?_setIfInBounds]
  by_cases hEq : other = port
  · by_cases hLt : port.toNat < manager.endPort.toNat + 1
    · simp [hEq, hSize, hLt]
    · simp [hEq, hSize, hLt, usedAt]
  · have hNe : port.toNat ≠ other.toNat := fun h => hEq (UInt16.toNat_inj.mp h.symm)
    simp [hEq, hNe, usedAt]

/-- The port the loop stops at lies behind the start of the search, and it has no
flag unless it lies behind the range. -/
theorem skipUsed_sound {fuel : Nat} {start : UInt16} (hEnd : manager.endPort < 65535)
    (h : manager.skipUsed fuel start = some port) :
    start ≤ port ∧ (port ≤ manager.endPort → manager.usedAt port = false) ∧
      ∀ other, start ≤ other → other < port → manager.usedAt other = true := by
  induction fuel generalizing start with
  | zero => simp [skipUsed] at h
  | succ fuel ih =>
      rw [skipUsed] at h
      split at h
      · rename_i hUsed
        obtain ⟨hLe, hFlag⟩ := Bool.and_eq_true_iff.mp hUsed
        have hSucc := succ_toNat (UInt16.lt_of_le_of_lt (of_decide_eq_true hLe) hEnd)
        obtain ⟨hStart, hFree, hBefore⟩ := ih h
        refine ⟨?_, hFree, ?_⟩
        · rw [UInt16.le_iff_toNat_le] at hStart ⊢
          omega
        · intro other hOther hLt
          by_cases hEq : other = start
          · rw [hEq, hFlag]
          · apply hBefore other _ hLt
            rw [UInt16.le_iff_toNat_le] at hOther ⊢
            have hNe : other.toNat ≠ start.toNat := fun h => hEq (UInt16.toNat_inj.mp h)
            omega
      · rename_i hStop
        obtain rfl := Option.some.inj h
        refine ⟨UInt16.le_refl _, ?_, ?_⟩
        · intro hLe
          simpa [hLe] using hStop
        · intro other hOther hLt
          exact absurd hLt (UInt16.not_lt.mpr hOther)

/-- Below the last 16-bit number the loop ends. -/
theorem skipUsed_ends {fuel : Nat} {start : UInt16} (hEnd : manager.endPort < 65535)
    (hFuel : manager.endPort.toNat < fuel + start.toNat) : ∃ port, manager.skipUsed (fuel + 1) start = some port := by
  induction fuel generalizing start with
  | zero =>
      refine ⟨start, ?_⟩
      have hLt : ¬ start ≤ manager.endPort := by
        rw [UInt16.le_iff_toNat_le]
        omega
      simp [skipUsed, hLt]
  | succ fuel ih =>
      rw [skipUsed]
      split
      · rename_i hUsed
        have hLe : start ≤ manager.endPort := of_decide_eq_true (Bool.and_eq_true_iff.mp hUsed).1
        have hSucc := succ_toNat (UInt16.lt_of_le_of_lt hLe hEnd)
        apply ih
        omega
      · exact ⟨start, rfl⟩

/-- A finished search that stops behind the range has seen a flag on every port
of the range from its start on. -/
theorem usedAt_of_skipUsed {fuel : Nat} {start : UInt16} (hEnd : manager.endPort < 65535)
    (h : manager.skipUsed fuel start = some port) (hBehind : manager.endPort < port) {other : UInt16}
    (hStart : start ≤ other) (hLe : other ≤ manager.endPort) : manager.usedAt other = true :=
  (skipUsed_sound hEnd h).2.2 other hStart (UInt16.lt_of_le_of_lt hLe hBehind)

/-- What a finished call of `allocate` did. -/
theorem allocate_cases (hEnd : manager.endPort < 65535) (h : manager.Allocates port manager') :
    (port = 0 ∧ manager' = manager ∧
      ∀ other, manager.startPort ≤ other → other ≤ manager.endPort → manager.usedAt other = true) ∨
    ((manager.nextCandidate ≤ port ∨ manager.startPort ≤ port) ∧ port ≤ manager.endPort ∧
      manager.usedAt port = false ∧
      manager' = { manager.setUsed port true with nextCandidate := port + 1 }) := by
  obtain ⟨fuel, h⟩ := h
  simp only [allocate, bind, Option.bind_eq_some_iff] at h
  obtain ⟨first, hFirst, h⟩ := h
  split at h
  · obtain ⟨second, hSecond, h⟩ := Option.bind_eq_some_iff.mp h
    split at h
    · rename_i hBehind
      obtain ⟨rfl, rfl⟩ := Prod.mk.inj (Option.some.inj h)
      exact .inl ⟨rfl, rfl, fun other => usedAt_of_skipUsed hEnd hSecond hBehind⟩
    · rename_i hInside
      obtain ⟨rfl, rfl⟩ := Prod.mk.inj (Option.some.inj h)
      have hLe := UInt16.not_lt.mp hInside
      obtain ⟨hStart, hFree, -⟩ := skipUsed_sound hEnd hSecond
      exact .inr ⟨.inr hStart, hLe, hFree hLe, rfl⟩
  · rename_i hInside
    obtain ⟨rfl, rfl⟩ := Prod.mk.inj (Option.some.inj h)
    have hLe := UInt16.not_lt.mp hInside
    obtain ⟨hStart, hFree, -⟩ := skipUsed_sound hEnd hFirst
    exact .inr ⟨.inl hStart, hLe, hFree hLe, rfl⟩

theorem allocate_ends (hEnd : manager.endPort < 65535) : ∃ port manager', manager.Allocates port manager' := by
  have hFuel : ∀ start : UInt16, manager.endPort.toNat < 65536 + start.toNat := by
    intro start
    have hSize := manager.endPort.toNat_lt
    omega
  obtain ⟨first, hFirst⟩ := skipUsed_ends hEnd (hFuel manager.nextCandidate)
  obtain ⟨second, hSecond⟩ := skipUsed_ends hEnd (hFuel manager.startPort)
  have hSome : (manager.allocate (65536 + 1)).isSome := by
    rw [allocate, hFirst, hSecond]
    simp only [bind, Option.bind_some]
    split
    · split <;> rfl
    · rfl
  obtain ⟨⟨port, manager'⟩, hResult⟩ := Option.isSome_iff_exists.mp hSome
  exact ⟨port, manager', _, hResult⟩

theorem collectUsed_ends {fuel : Nat} {start : UInt16} (hEnd : manager.endPort < 65535)
    (hFuel : manager.endPort.toNat < fuel + start.toNat) : ∃ ports, manager.collectUsed (fuel + 1) start = some ports := by
  induction fuel generalizing start with
  | zero => exact ⟨[], by rw [collectUsed, if_neg (by omega)]⟩
  | succ fuel ih =>
      rw [collectUsed]
      split
      · rename_i hLt
        have hSucc := succ_toNat (UInt16.lt_of_le_of_lt (Nat.lt_succ_iff.mp hLt) hEnd)
        obtain ⟨ports, hPorts⟩ : ∃ ports, manager.collectUsed (fuel + 1) (start + 1) = some ports := ih (by omega)
        exact ⟨_, by rw [hPorts, Option.map_some]⟩
      · exact ⟨[], rfl⟩

/-- A finished list holds the flagged ports behind its start, in their order. -/
theorem collectUsed_sound {fuel : Nat} {start : UInt16} {ports : List UInt16} (hEnd : manager.endPort < 65535)
    (h : manager.collectUsed fuel start = some ports) :
    ports.Pairwise (· < ·) ∧
      ∀ port, port ∈ ports ↔ start ≤ port ∧ port ≤ manager.endPort ∧ manager.usedAt port = true := by
  induction fuel generalizing start ports with
  | zero => simp [collectUsed] at h
  | succ fuel ih =>
      rw [collectUsed] at h
      split at h
      · rename_i hLt
        have hStart : start ≤ manager.endPort := Nat.lt_succ_iff.mp hLt
        have hSucc := succ_toNat (UInt16.lt_of_le_of_lt hStart hEnd)
        have hNext : ∀ port : UInt16, start + 1 ≤ port ↔ start < port := by
          intro port
          rw [UInt16.le_iff_toNat_le, UInt16.lt_iff_toNat_lt]
          omega
        obtain ⟨rest, hRest, rfl⟩ := Option.map_eq_some_iff.mp h
        obtain ⟨hSorted, hMem⟩ := ih hRest
        simp only [hNext] at hMem
        split
        · rename_i hUsed
          refine ⟨List.pairwise_cons.mpr ⟨fun port hPort => ((hMem port).mp hPort).1, hSorted⟩, ?_⟩
          intro port
          rw [List.mem_cons, hMem]
          by_cases hEq : port = start
          · simp [hEq, hStart, hUsed]
          · simp [hEq, le_iff_lt_of_ne hEq]
        · rename_i hFree
          refine ⟨hSorted, ?_⟩
          intro port
          rw [hMem]
          by_cases hEq : port = start
          · simp [hEq, hFree]
          · simp [le_iff_lt_of_ne hEq]
      · rename_i hStop
        obtain rfl := Option.some.inj h
        refine ⟨List.Pairwise.nil, ?_⟩
        intro port
        have hBehind : ¬ (start ≤ port ∧ port ≤ manager.endPort) := by
          rw [UInt16.le_iff_toNat_le, UInt16.le_iff_toNat_le]
          omega
        simp only [List.not_mem_nil, false_iff]
        exact fun h => hBehind ⟨h.1, h.2.1⟩

theorem usedAt_new (startPort endPort : UInt16) : (new startPort endPort).usedAt port = false := by
  show ((Vector.replicate (endPort.toNat + 1) false)[port.toNat]?).getD false = false
  rw [Vector.getElem?_replicate]
  split <;> rfl

theorem refines_new (startPort endPort : UInt16) : Refines startPort endPort (new startPort endPort) ∅ := by
  refine ⟨rfl, rfl, UInt16.le_refl _, ?_⟩
  intro port _ _
  simp [usedAt_new]

namespace Refines

variable {startPort endPort : UInt16} (h : Refines startPort endPort manager held)
include h

theorem sound (hPos : 1 ≤ startPort) (hEnd : endPort < 65535) : Sound startPort endPort manager held := by
  have hEnd' : manager.endPort < 65535 := h.end_eq ▸ hEnd
  refine ⟨allocate_ends hEnd', ?_, ?_, ?_, ?_⟩
  · intro port manager' hCall hNe
    rcases allocate_cases hEnd' hCall with ⟨hZero, -⟩ | ⟨hStart, hLe, hFree, -⟩
    · exact absurd hZero hNe
    · have hStart' : startPort ≤ port := hStart.elim (UInt16.le_trans h.cursor ·) (h.start_eq ▸ ·)
      rw [h.end_eq] at hLe
      refine ⟨hStart', hLe, ?_⟩
      rw [← h.flags port hStart' hLe, hFree]
      exact Bool.false_ne_true
  · intro manager' hCall port hStart hLe
    rcases allocate_cases hEnd' hCall with ⟨-, -, hFull⟩ | ⟨hZero, -⟩
    · exact (h.flags port hStart hLe).mp (hFull port (h.start_eq ▸ hStart) (h.end_eq ▸ hLe))
    · have hStart' : startPort ≤ 0 := hZero.elim (UInt16.le_trans h.cursor ·) (h.start_eq ▸ ·)
      exact absurd (UInt16.le_trans hPos hStart') (by decide)
  · have hSize := manager.endPort.toNat_lt
    have hFuel : manager.endPort.toNat < 65536 + manager.startPort.toNat := by omega
    exact (collectUsed_ends hEnd' hFuel).imp fun ports hPorts => ⟨_, hPorts⟩
  · rintro ports ⟨fuel, hPorts⟩
    obtain ⟨hSorted, hMem⟩ := collectUsed_sound hEnd' hPorts
    refine ⟨hSorted, ?_⟩
    intro port
    rw [hMem, h.start_eq, h.end_eq]
    constructor
    · rintro ⟨hStart, hLe, hUsed⟩
      exact ⟨hStart, hLe, (h.flags port hStart hLe).mp hUsed⟩
    · rintro ⟨hStart, hLe, hHeld⟩
      exact ⟨hStart, hLe, (h.flags port hStart hLe).mpr hHeld⟩

theorem setUsed_true (hLe : port ≤ endPort) : Refines startPort endPort (manager.setUsed port true) (insert port held) := by
  refine ⟨h.start_eq, h.end_eq, h.cursor, ?_⟩
  intro other hStart hOther
  rw [usedAt_setUsed, Set.mem_insert_iff, h.end_eq]
  by_cases hEq : other = port
  · simp [hEq, hLe]
  · simpa [hEq] using h.flags other hStart hOther

theorem allocate (hPos : 1 ≤ startPort) (hEnd : endPort < 65535) (hCall : manager.Allocates port manager') :
    Refines startPort endPort manager' (PortEvent.held held (.allocated port)) := by
  have hEnd' : manager.endPort < 65535 := h.end_eq ▸ hEnd
  rcases allocate_cases hEnd' hCall with ⟨rfl, rfl, -⟩ | ⟨hStart, hLe, -, rfl⟩
  · exact h
  · have hStart' : startPort ≤ port := hStart.elim (UInt16.le_trans h.cursor ·) (h.start_eq ▸ ·)
    have hNe : port ≠ 0 := by
      rintro rfl
      exact absurd (UInt16.le_trans hPos hStart') (by decide)
    have hSucc := succ_toNat (UInt16.lt_of_le_of_lt hLe hEnd')
    have hSet := h.setUsed_true (h.end_eq ▸ hLe)
    rw [PortEvent.held, if_neg hNe]
    refine ⟨hSet.start_eq, hSet.end_eq, ?_, hSet.flags⟩
    rw [UInt16.le_iff_toNat_le] at hStart' ⊢
    show startPort.toNat ≤ (port + 1).toNat
    omega

theorem release (hStart : startPort ≤ port) :
    Refines startPort endPort (manager.release port) (PortEvent.held held (.released port)) := by
  have hFlags : ∀ other, startPort ≤ other → other ≤ endPort →
      ((manager.setUsed port false).usedAt other = true ↔ other ∈ held \ {port}) := by
    intro other hOther hLe
    rw [usedAt_setUsed, Set.mem_sdiff, Set.mem_singleton_iff, h.end_eq]
    by_cases hEq : other = port
    · have hPort : port ≤ endPort := hEq ▸ hLe
      simp [hEq, hPort]
    · simpa [hEq] using h.flags other hOther hLe
  rw [PortManager.release]
  dsimp only
  split
  · split
    · exact ⟨h.start_eq, h.end_eq, hStart, hFlags⟩
    · exact ⟨h.start_eq, h.end_eq, h.cursor, hFlags⟩
  · rename_i hBehind
    refine ⟨h.start_eq, h.end_eq, h.cursor, ?_⟩
    intro other hOther hLe
    have hNe : other ≠ port := by
      rintro rfl
      rw [h.end_eq] at hBehind
      exact hBehind (Nat.lt_succ_of_le hLe)
    rw [PortEvent.held, Set.mem_sdiff, Set.mem_singleton_iff, h.flags other hOther hLe]
    exact ⟨fun hHeld => ⟨hHeld, hNe⟩, And.left⟩

theorem scanEntry (entry : SiteEntry) :
    Refines startPort endPort (manager.scanEntry entry) (held ∪ {port | entry.port = some port}) := by
  rw [PortManager.scanEntry]
  cases hPort : entry.port with
  | none => simpa using h
  | some port =>
      have hUnion : held ∪ {other | some port = some other} = insert port held := by
        ext other
        simp [eq_comm]
      rw [hUnion]
      dsimp only
      split
      · rename_i hLt
        exact h.setUsed_true (h.end_eq ▸ Nat.lt_succ_iff.mp hLt)
      · rename_i hBehind
        refine ⟨h.start_eq, h.end_eq, h.cursor, ?_⟩
        intro other hOther hLe
        have hNe : other ≠ port := by
          rintro rfl
          rw [h.end_eq] at hBehind
          exact hBehind (Nat.lt_succ_of_le hLe)
        rw [Set.mem_insert_iff, h.flags other hOther hLe]
        simp [hNe]

end Refines

theorem Refines.scanEntries {startPort endPort : UInt16} (entries : List SiteEntry)
    (h : Refines startPort endPort manager held) :
    Refines startPort endPort (entries.foldl PortManager.scanEntry manager)
      (held ∪ {port | ∃ entry ∈ entries, entry.port = some port}) := by
  induction entries generalizing manager held with
  | nil => simpa using h
  | cons entry rest ih =>
      have hUnion : held ∪ {port | ∃ other ∈ entry :: rest, other.port = some port} =
          held ∪ {port | entry.port = some port} ∪ {port | ∃ other ∈ rest, other.port = some port} := by
        ext port
        simp [or_assoc]
      rw [hUnion, List.foldl_cons]
      exact ih (h.scanEntry entry)

theorem Refines.scanExistingSites {startPort endPort : UInt16} (listing : Option (List SiteEntry))
    (h : Refines startPort endPort manager held) :
    Refines startPort endPort (manager.scanExistingSites listing) (PortEvent.held held (.scanned listing)) := by
  cases listing with
  | none => simpa [PortManager.scanExistingSites, PortEvent.held] using h
  | some entries => simpa [PortManager.scanExistingSites, PortEvent.held] using h.scanEntries entries

theorem heldAfter_concat (events : List PortEvent) (event : PortEvent) :
    heldAfter (events ++ [event]) = PortEvent.held (heldAfter events) event := by
  rw [heldAfter, List.foldl_append]
  rfl

/-- As long as no port in front of the range is released, the allocator agrees
with the set of ports its history allocates. -/
theorem Runs.refines {startPort endPort : UInt16} {events : List PortEvent} (hPos : 1 ≤ startPort)
    (hEnd : endPort < 65535) (hRun : (new startPort endPort).Runs events manager)
    (hReleases : ∀ port, .released port ∈ events → startPort ≤ port) :
    Refines startPort endPort manager (heldAfter events) := by
  induction hRun with
  | nil => exact refines_new startPort endPort
  | allocate _ hCall ih =>
      rw [heldAfter_concat]
      exact (ih fun port hMem => hReleases port (List.mem_append_left _ hMem)).allocate hPos hEnd hCall
  | release port _ ih =>
      rw [heldAfter_concat]
      apply (ih fun port hMem => hReleases port (List.mem_append_left _ hMem)).release
      exact hReleases port (List.mem_append_right _ List.mem_cons_self)
  | scan listing _ ih =>
      rw [heldAfter_concat]
      exact (ih fun port hMem => hReleases port (List.mem_append_left _ hMem)).scanExistingSites listing

/-- At the last 16-bit number the loop of `allocated_ports` never ends. -/
theorem collectUsed_endless (hEnd : manager.endPort = 65535) (fuel : Nat) (start : UInt16) :
    manager.collectUsed fuel start = none := by
  induction fuel generalizing start with
  | zero => rfl
  | succ fuel ih =>
      have hSize : manager.endPort.toNat + 1 = 65536 := by rw [hEnd]; rfl
      rw [collectUsed, if_pos (hSize ▸ start.toNat_lt), ih, Option.map_none]

/-- A port released in front of the range is the next port allocated. -/
theorem allocates_released (hBefore : port < startPort manager) (hCursor : manager.startPort ≤ manager.nextCandidate)
    (hRange : manager.startPort ≤ manager.endPort) : ∃ manager', (manager.release port).Allocates port manager' := by
  have hLt : port < manager.nextCandidate := UInt16.lt_of_lt_of_le hBefore hCursor
  have hLe : port ≤ manager.endPort := UInt16.le_of_lt (UInt16.lt_of_lt_of_le hBefore hRange)
  have hRelease : manager.release port = { manager.setUsed port false with nextCandidate := port } := by
    have hSize : port.toNat < manager.endPort.toNat + 1 := Nat.lt_succ_of_le hLe
    rw [release, if_pos hSize]
    exact if_pos hLt
  have hFree : (manager.release port).usedAt port = false := by
    rw [hRelease]
    show (manager.setUsed port false).usedAt port = false
    simp [usedAt_setUsed, hLe]
  have hSkip : (manager.release port).skipUsed 1 (manager.release port).nextCandidate = some port := by
    rw [show (manager.release port).nextCandidate = port by rw [hRelease], skipUsed, hFree, Bool.and_false]
    rfl
  have hInside : ¬ port > (manager.release port).endPort := by
    rw [hRelease]
    exact UInt16.not_lt.mpr hLe
  refine ⟨{ (manager.release port).setUsed port true with nextCandidate := port + 1 }, 1, ?_⟩
  rw [allocate, hSkip]
  simp only [bind, Option.bind_some, hInside, if_false]
  rfl

end PortManager

/-- The allocator keeps its promises on every history that releases no port in
front of the range, if and only if the range ends before the last 16-bit number. -/
theorem portManager_sound_iff {startPort endPort : UInt16} (hPos : 1 ≤ startPort) :
    (∀ events manager, (PortManager.new startPort endPort).Runs events manager →
      (∀ port, .released port ∈ events → startPort ≤ port) →
      PortManager.Sound startPort endPort manager (heldAfter events)) ↔ endPort < 65535 := by
  constructor
  · intro h
    by_contra hLast
    have hMax : endPort = 65535 := by
      apply UInt16.le_antisymm _ (UInt16.not_lt.mp hLast)
      exact Nat.le_of_lt_succ endPort.toNat_lt
    obtain ⟨ports, fuel, hPorts⟩ := (h [] _ .nil (by simp)).listEnds
    rw [PortManager.allocatedPorts, PortManager.collectUsed_endless hMax] at hPorts
    cases hPorts
  · intro hEnd events manager hRun hReleases
    exact (hRun.refines hPos hEnd hReleases).sound hPos hEnd

/-- The default range cut by its last port, before any call. -/
theorem portManager_sound_default :
    PortManager.Sound 9000 65534 (PortManager.new 9000 65534) (heldAfter []) :=
  (portManager_sound_iff (by decide)).mpr (by decide) [] _ .nil (by simp)

/-- An allocator for the ports 10 to 20 hands out port 5 after it was released,
and an allocator for the default range cannot list its ports. -/
theorem portManager_unsound :
    (∃ manager, (PortManager.new 10 20).Runs [.released 5] manager ∧
      ¬ PortManager.Sound 10 20 manager (heldAfter [.released 5])) ∧
    ∃ manager, (PortManager.new 9000 65535).Runs [] manager ∧
      ¬ PortManager.Sound 9000 65535 manager (heldAfter []) := by
  refine ⟨⟨_, .release 5 .nil, ?_⟩, _, .nil, ?_⟩
  · intro hSound
    obtain ⟨manager', hCall⟩ : ∃ manager', ((PortManager.new 10 20).release 5).Allocates 5 manager' :=
      PortManager.allocates_released (by decide) (by decide) (by decide)
    exact absurd (hSound.allocated 5 manager' hCall (by decide)).1 (by decide)
  · intro hSound
    obtain ⟨ports, fuel, hPorts⟩ := hSound.listEnds
    rw [PortManager.allocatedPorts, PortManager.collectUsed_endless rfl] at hPorts
    cases hPorts

end ContainerCP.Runtime
