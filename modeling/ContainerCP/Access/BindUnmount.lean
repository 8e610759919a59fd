import ContainerCP.Access.SiteMounts

/-! A bind mount that was made, and its unmount. -/
namespace ContainerCP.LocalSftp

open Posix Control

/-- The same environment, with commands that work. -/
def Env.working (env : Env) : Env := { env with verdict := fun _ _ => .works }

variable {env : Env} {phase : Phase} {host host' host'' : Host}

/-! ## Calls -/

/-- A command changes nothing but the system. -/
theorem command_frame {cmd : Command} {ok : Bool} (h : Returns (command env phase cmd) host ok host') :
    host'.accounts = host.accounts ∧ host'.records = host.records := by
  unfold Returns command run at h
  cases hVerdict : env.verdict phase (.command cmd) with
  | stops =>
      rw [hVerdict] at h
      cases h
  | fails =>
      rw [hVerdict] at h
      cases h
      exact ⟨rfl, rfl⟩
  | works =>
      rw [hVerdict] at h
      cases hPerform : host.perform env (.command cmd) with
      | none =>
          rw [hPerform] at h
          cases h
          exact ⟨rfl, rfl⟩
      | some middle =>
          rw [hPerform] at h
          cases h
          obtain ⟨system, -, rfl⟩ := Option.map_eq_some_iff.mp hPerform
          exact ⟨rfl, rfl⟩

/-! ## Removing a target -/

/-- The inspector cuts the type of the file off the mode. -/
theorem inspect_no_directory (host : Host) (path : Bytes) : isDirectoryMode (host.inspect path).mode = false := by
  have hBits : ∀ mode : Nat, isDirectoryMode (mode &&& 0o7777) = false := by
    intro mode
    have hNone : mode &&& 0o7777 &&& 0o170000 = 0 := by
      rw [Nat.and_assoc]
      exact Nat.and_zero mode
    rw [isDirectoryMode, hNone]
    rfl
  unfold Host.inspect
  cases host.system.lstat path with
  | none => rfl
  | some entry =>
      cases entry with
      | directory directory => exact hBits _
      | link gid leads => exact hBits 0o777
      | file gid mode => exact hBits _

/-- No target is ever removed. -/
theorem safeRmdir_refuses {target username domain : Bytes} {createdByUs : Bool} {result : OperationResult}
    (h : Returns (safeRmdir env phase target createdByUs username domain) host result host') :
    ∃ message, result = .error message := by
  unfold safeRmdir at h
  rw [Returns.get_bind_iff] at h
  simp only [inspect_no_directory, Bool.not_false, ite_true] at h
  split at h
  · exact ⟨_, (Returns.pure_iff.mp h).1⟩
  · split at h
    · exact ⟨_, (Returns.pure_iff.mp h).1⟩
    · split at h
      · exact ⟨_, (Returns.pure_iff.mp h).1⟩
      · split at h
        · exact ⟨_, (Returns.pure_iff.mp h).1⟩
        · exact ⟨_, (Returns.pure_iff.mp h).1⟩

theorem takeMount_refuses {username : Name} {info : SiteInfo} {result : OperationResult}
    (h : Returns (takeMount env phase username info) host result host') : ∃ message, result = .error message := by
  unfold takeMount at h
  rw [Returns.bind_iff] at h
  obtain ⟨ok, middle, hUmount, h⟩ := h
  split at h
  · exact ⟨_, (Returns.pure_iff.mp h).1⟩
  · rw [Returns.get_bind_iff] at h
    split at h
    · split at h
      · exact ⟨_, (Returns.pure_iff.mp h).1⟩
      · exact ⟨_, (Returns.pure_iff.mp h).1⟩
    · rw [Returns.bind_iff] at h
      obtain ⟨removed, after, hRemoved, h⟩ := h
      obtain ⟨message, rfl⟩ := safeRmdir_refuses hRemoved
      exact ⟨_, (Returns.pure_iff.mp h).1⟩

/-- Where something is mounted at the target, the unmount does not succeed. -/
theorem unmountSite_refuses {user site : Nat} {username : Name} {info : SiteInfo} {result : OperationResult}
    (hName : host.accounts.resolveUsername user = some username) (hSite : env.siteResolver site = some info)
    (hMounted : (host.system.mountAt (env.target username info.domain)).isSome)
    (h : Returns (unmountSite env phase user site) host result host') : ∃ message, result = .error message := by
  unfold unmountSite at h
  rw [Returns.get_bind_iff] at h
  split at h
  · exact ⟨_, (Returns.pure_iff.mp h).1⟩
  · rw [hName, hSite] at h
    dsimp only at h
    rw [info.named] at h
    obtain ⟨existing, hExisting⟩ := Option.isSome_iff_exists.mp hMounted
    rw [hExisting] at h
    dsimp only at h
    split at h
    · exact ⟨_, (Returns.pure_iff.mp h).1⟩
    · exact takeMount_refuses h

/-! ## Making a mount -/

theorem undoMount_fails {target username domain : Bytes} {dirCreated : Bool} {result : OperationResult}
    (h : Returns (undoMount env target dirCreated username domain) host result host') : ∃ message, result = .error message := by
  unfold undoMount at h
  rw [Returns.bind_iff] at h
  obtain ⟨ok, middle, hUmount, h⟩ := h
  split at h
  · exact ⟨_, (Returns.pure_iff.mp h).1⟩
  · rw [Returns.get_bind_iff] at h
    split at h
    · exact ⟨_, (Returns.pure_iff.mp h).1⟩
    · split at h
      · rw [Returns.bind_iff] at h
        obtain ⟨removed, after, hRemoved, h⟩ := h
        obtain ⟨message, rfl⟩ := safeRmdir_refuses hRemoved
        exact ⟨_, (Returns.pure_iff.mp h).1⟩
      · exact ⟨_, (Returns.pure_iff.mp h).1⟩

theorem undoMkdir_fails {target username domain error : Bytes} {dirCreated : Bool} {result : OperationResult}
    (h : Returns (undoMkdir env target dirCreated username domain error) host result host') :
    ∃ message, result = .error message := by
  unfold undoMkdir at h
  split at h
  · rw [Returns.bind_iff] at h
    obtain ⟨removed, after, hRemoved, h⟩ := h
    obtain ⟨message, rfl⟩ := safeRmdir_refuses hRemoved
    exact ⟨_, (Returns.pure_iff.mp h).1⟩
  · exact ⟨_, (Returns.pure_iff.mp h).1⟩

theorem makeMount_ok {username : Name} {info : SiteInfo} {message : Bytes}
    (h : Returns (makeMount env username info) host (.ok message) host') :
    host'.accounts = host.accounts ∧ (host'.system.mountAt (env.target username info.domain)).isSome := by
  unfold makeMount at h
  rw [Returns.get_bind_iff] at h
  rw [Returns.bind_iff] at h
  obtain ⟨made, middle, hMake, h⟩ := h
  split at h
  · cases (Returns.pure_iff.mp h).1
  · rw [Returns.bind_iff] at h
    obtain ⟨mounted, after, hMount, h⟩ := h
    split at h
    · obtain ⟨reason, hReason⟩ := undoMkdir_fails h
      cases hReason
    · rw [Returns.get_bind_iff] at h
      split at h
      · obtain ⟨reason, hReason⟩ := undoMount_fails h
        cases hReason
      · next found hFound =>
        split at h
        · obtain ⟨reason, hReason⟩ := undoMount_fails h
          cases hReason
        · obtain ⟨-, rfl⟩ := Returns.pure_iff.mp h
          refine ⟨(command_frame hMount).1.trans (command_frame hMake).1, ?_⟩
          rw [hFound]
          rfl

/-- A bind that succeeds leaves a mount at the target. -/
theorem bindMountSite_ok {user site : Nat} {message : Bytes}
    (h : Returns (bindMountSite env user site) host (.ok message) host') :
    ∃ username info, host'.accounts.resolveUsername user = some username ∧ env.siteResolver site = some info ∧
      (host'.system.mountAt (env.target username info.domain)).isSome := by
  unfold bindMountSite at h
  rw [Returns.get_bind_iff] at h
  split at h
  · cases (Returns.pure_iff.mp h).1
  · split at h
    · cases (Returns.pure_iff.mp h).1
    · next username hName =>
      split at h
      · cases (Returns.pure_iff.mp h).1
      · next info hSite =>
        split at h
        · obtain ⟨hAccounts, hMounted⟩ := makeMount_ok h
          exact ⟨username, info, by rw [hAccounts, hName], hSite, hMounted⟩
        · next existing hExisting =>
          split at h
          · cases (Returns.pure_iff.mp h).1
          · split at h
            · obtain ⟨-, rfl⟩ := Returns.pure_iff.mp h
              exact ⟨username, info, hName, hSite, by rw [hExisting]; rfl⟩
            · cases (Returns.pure_iff.mp h).1

/-! ## Both -/

/-- The unmount succeeds, and mounts and directories are as they were. -/
def Undone (env : Env) (phase : Phase) (user site : Nat) (before after : Host) : Prop :=
  ∃ message host, Returns (unmountSite env.working phase user site) after (.ok message) host ∧
    host.system.mounts = before.system.mounts ∧ host.system.entries = before.system.entries

/-- A bind that succeeds is never undone by an unmount, with commands that all work. -/
theorem bind_never_undone (env : Env) (phase : Phase) {user site : Nat} {before after : Host} {message : Bytes}
    (h : Returns (bindMountSite env user site) before (.ok message) after) : ¬Undone env phase user site before after := by
  obtain ⟨username, info, hName, hSite, hMounted⟩ := bindMountSite_ok h
  rintro ⟨done, host, hUnmount, -⟩
  have hWorking : env.working.siteResolver site = some info := hSite
  obtain ⟨reason, hReason⟩ := unmountSite_refuses hName hWorking hMounted hUnmount
  cases hReason

section Sample

def sampleSite : SiteInfo := ⟨bytes "example.org", bytes "/srv/sites/example.org", by decide⟩

/-- A system whose mount table shows the source of a bind without the slash at its end. -/
def sampleEnv : Env where
  kernel :=
    { realpath := id
      backing := fun source => ⟨[], slashes source, bytes "rw,relatime", bytes "ext4", bytes "/dev/sda1"⟩ }
  managedHomeRoot := bytes "/srv/sftp"
  siteResolver := fun site => if site = 1 then some sampleSite else none
  verdict := fun _ _ => .works
  stderr := fun _ => []

def sampleAccount : SystemAccountMapping where
  entityType := .accessUser
  entityId := 7
  uid := 10000
  gid := 20000
  username := bytes "au-bob"
  groupname := bytes "au-bob"
  state := .active
  home := bytes "/srv/sftp/au-bob"

/-- A host with one user and the public directory of the site. -/
def sampleHost : Host where
  system :=
    { entries := ⟨[(pathNames sampleSite.publicDir, .directory .fresh)], by decide⟩
      mounts := [] }
  accounts :=
    { table := ⟨[sampleAccount], by decide⟩
      apart := by decide }
  records := ∅
  managed := ∅

/-- The bind succeeds. -/
theorem bind_sample : ∃ after, Returns (bindMountSite sampleEnv 7 1) sampleHost (.ok (bytes "mounted: example.org")) after :=
  Returns.of_returned (by decide)

/-- The unmount of it does not undo it. -/
theorem bind_undone_fails : ¬∀ (env : Env) (phase : Phase) (user site : Nat) (before after : Host) (message : Bytes),
    Returns (bindMountSite env user site) before (.ok message) after → Undone env phase user site before after := by
  intro hAll
  obtain ⟨after, hBind⟩ := bind_sample
  obtain ⟨message, host, hUnmount, -⟩ := hAll sampleEnv .revoke 7 1 sampleHost after _ hBind
  obtain ⟨username, info, hName, hSite, hMounted⟩ := bindMountSite_ok hBind
  have hWorking : sampleEnv.working.siteResolver 1 = some info := hSite
  obtain ⟨reason, hReason⟩ := unmountSite_refuses hName hWorking hMounted hUnmount
  cases hReason

theorem bind_never_undone_sample :
    ∃ after, Returns (bindMountSite sampleEnv 7 1) sampleHost (.ok (bytes "mounted: example.org")) after ∧
      ¬Undone sampleEnv .revoke 7 1 sampleHost after := by
  obtain ⟨after, hBind⟩ := bind_sample
  exact ⟨after, hBind, bind_never_undone sampleEnv .revoke hBind⟩

end Sample

end ContainerCP.LocalSftp
