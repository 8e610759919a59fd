import ContainerCP.Operations.SiteCreate

/-! What a failed creation of a site leaves. -/
namespace ContainerCP.Operations

/-- The managers hold the records that they held, and what there was still is. -/
structure Undone (before after : World) : Prop where
  sites : after.managers.sites.records = before.managers.sites.records
  domains : after.managers.domains.records = before.managers.domains.records
  databases : after.managers.databases.records = before.managers.databases.records
  proxies : after.managers.proxies.records = before.managers.proxies.records
  configs : ∀ name, before.proxyConfigs name ≠ none → after.proxyConfigs name ≠ none
  dirs : ∀ domain, before.siteDirs domain ≠ none → after.siteDirs domain ≠ none
  containers : ∀ container ∈ before.docker.containers, container ∈ after.docker.containers
  networks : ∀ network ∈ before.docker.networks, network ∈ after.docker.networks
  volumes : ∀ volume ∈ before.docker.volumes, volume ∈ after.docker.volumes

theorem Undone.refl (world : World) : Undone world world :=
  ⟨rfl, rfl, rfl, rfl, fun _ h => h, fun _ h => h, fun _ h => h, fun _ h => h, fun _ h => h⟩

/-- Nothing there is what a rollback takes away by the name of the domain or by the text of
the id. -/
structure Unclaimed (world : World) (siteId : Nat) (domain : Bytes) : Prop where
  config : world.proxyConfigs (Proxy.configName domain) = none
  proxies : ∀ proxy ∈ world.managers.proxies.records, proxy.domain ≠ domain
  containers : ∀ container ∈ world.docker.containers, container.siteLabel ≠ some (decimal siteId)
  networks : ∀ network ∈ world.docker.networks,
    network.projectLabel ≠ some (siteNetworkKey siteId) ∧ ¬siteNetworkKey siteId <:+: network.name
  volumes : ∀ volume ∈ world.docker.volumes, volume.projectLabel ≠ some (siteNetworkKey siteId)

/-- The provider gets as far as the compose file. -/
def ProviderRun.Composes : ProviderRun → Prop
  | composed _ _ _ => True
  | _ => False

/-- Nothing there is what a rollback takes away with the directory, the records and the
stack of the site. -/
structure Vacant (world : World) (siteId : Nat) (domain : Bytes) (run : ProviderRun) : Prop where
  dir : world.siteDirs domain = none
  domains : ∀ other ∈ world.managers.domains.records, other.siteId ≠ siteId
  databases : ∀ database ∈ world.managers.databases.records, database.siteId ≠ siteId
  project : run.Composes → ∀ container ∈ world.docker.containers,
    container.projectLabel ≠ some (siteComposeProjectName domain)

/-! ## Records -/

section Records

variable {Record : Type} {id : Record → Nat} {registry : Registry Record id} {test : Record → Bool}

theorem eraseP_eq_self_iff {records : List Record} : records.eraseP test = records ↔ ∀ record ∈ records, test record = false := by
  constructor
  · intro hEq record hMem
    by_contra hTest
    have hLength := List.length_eraseP_of_mem hMem (by simpa using hTest)
    rw [hEq] at hLength
    have hPos := List.length_pos_of_mem hMem
    omega
  · intro hNone
    exact List.eraseP_of_forall_not fun record hMem => by simp [hNone record hMem]

/-- A new record that is looked for goes again, exactly where no other is found first. -/
theorem eraseP_create_iff {make : Nat → Record} {hMake : ∀ n, id (make n) = n} (hTest : test (make registry.nextId) = true) :
    (registry.create make hMake).records.eraseP test = registry.records ↔ ∀ record ∈ registry.records, test record = false := by
  rw [Registry.records_create]
  constructor
  · intro hEq record hMem
    by_contra hFound
    have hNew : make registry.nextId ∈ registry.records := by
      rw [← hEq, List.eraseP_append_left (by simpa using hFound) _ hMem]
      exact List.mem_append_right _ (List.mem_singleton_self _)
    exact Registry.nextId_ne hNew (hMake _)
  · intro hNone
    rw [List.eraseP_append_right _ fun record hMem => by simp [hNone record hMem], List.eraseP_cons_of_pos hTest,
      List.append_nil]

end Records

/-! ## Docker -/

/-- The objects that there were survive a rollback, whatever Docker does, exactly where it
selects none of them. -/
theorem rollbackDocker_keeps_iff (siteId : Nat) (domain : Bytes) (composeFile : Option Nat) {before docker : Docker}
    (hContainers : ∀ container ∈ before.containers,
      (rollbackSelection siteId domain composeFile).containers container = false → container ∈ docker.containers)
    (hNetworks : ∀ network ∈ before.networks, network ∈ docker.networks)
    (hVolumes : ∀ volume ∈ before.volumes, volume ∈ docker.volumes) :
    (∀ obeyed,
        (∀ container ∈ before.containers, container ∈ (rollbackDocker siteId domain composeFile obeyed docker).containers) ∧
        (∀ network ∈ before.networks, network ∈ (rollbackDocker siteId domain composeFile obeyed docker).networks) ∧
        ∀ volume ∈ before.volumes, volume ∈ (rollbackDocker siteId domain composeFile obeyed docker).volumes) ↔
      (∀ container ∈ before.containers, (rollbackSelection siteId domain composeFile).containers container = false) ∧
        (∀ network ∈ before.networks, (rollbackSelection siteId domain composeFile).networks network = false) ∧
        ∀ volume ∈ before.volumes, (rollbackSelection siteId domain composeFile).volumes volume = false := by
  simp only [rollbackDocker_eq, Docker.mem_containers_drop, Docker.mem_networks_drop, Docker.mem_volumes_drop]
  constructor
  · intro hAll
    obtain ⟨hContainer, hNetwork, hVolume⟩ := hAll Selection.all
    refine ⟨?_, ?_, ?_⟩
    · exact fun container hMem => by simpa [Selection.all] using (hContainer container hMem).2
    · exact fun network hMem => by simpa [Selection.all] using (hNetwork network hMem).2
    · exact fun volume hMem => by simpa [Selection.all] using (hVolume volume hMem).2
  · rintro ⟨hContainer, hNetwork, hVolume⟩ obeyed
    refine ⟨?_, ?_, ?_⟩
    · exact fun container hMem => ⟨hContainers container hMem (hContainer container hMem), by simp [hContainer container hMem]⟩
    · exact fun network hMem => ⟨hNetworks network hMem, by simp [hNetwork network hMem]⟩
    · exact fun volume hMem => ⟨hVolumes volume hMem, by simp [hVolume volume hMem]⟩

/-! ## The rollbacks -/

section Rollback

variable {world : World} {domain : Bytes}

/-- What a rollback without the directory and the records leaves. -/
theorem rollback_collision_iff (owner profile : Bytes) (nodeId : Nat) :
    (∀ obeyed, Undone world (rollback ⟨true, false, false, world.managers.sites.nextId, false, domain⟩ obeyed
        (withSite owner domain profile nodeId world))) ↔
      Unclaimed world world.managers.sites.nextId domain := by
  have hSite := world.managers.sites.positive
  have hSites : (rollback ⟨true, false, false, world.managers.sites.nextId, false, domain⟩ Selection.none
      (withSite owner domain profile nodeId world)).managers.sites.records = world.managers.sites.records := by
    simp only [rollback, withSite, Bool.true_and, decide_eq_true hSite, if_true]
    exact Registry.records_remove_create _ _ _
  have hKeepContainers : ∀ container ∈ world.docker.containers,
      (rollbackSelection world.managers.sites.nextId domain none).containers container = false →
        container ∈ world.docker.containers :=
    fun _ hMem _ => hMem
  have hDocker := rollbackDocker_keeps_iff world.managers.sites.nextId domain none hKeepContainers (fun _ hMem => hMem)
    fun _ hMem => hMem
  constructor
  · intro hAll
    have h := hAll Selection.none
    obtain ⟨hContainers, hNetworks, hVolumes⟩ := hDocker.mp fun obeyed =>
      ⟨(hAll obeyed).containers, (hAll obeyed).networks, (hAll obeyed).volumes⟩
    refine ⟨?_, ?_, ?_, ?_, ?_⟩
    · by_contra hConfig
      exact h.configs _ hConfig (Function.update_self ..)
    · have hProxies := h.proxies
      change (removeFound world.managers.proxies fun proxy => proxy.domain = domain).records = _ at hProxies
      rw [records_removeFound, eraseP_eq_self_iff] at hProxies
      exact fun proxy hMem => of_decide_eq_false (hProxies proxy hMem)
    · intro container hMem hLabel
      have hNot := hContainers container hMem
      rw [← Bool.not_eq_true, rollback_containers hSite] at hNot
      exact hNot (Or.inr hLabel)
    · intro network hMem
      have hNot := hNetworks network hMem
      rw [← Bool.not_eq_true, rollback_networks hSite, not_or, not_or] at hNot
      exact hNot.2
    · intro volume hMem hLabel
      have hNot := hVolumes volume hMem
      rw [← Bool.not_eq_true, rollback_volumes hSite] at hNot
      exact hNot (Or.inr hLabel)
  · intro h obeyed
    have hKept := hDocker.mpr ⟨?_, ?_, ?_⟩ obeyed
    · refine ⟨hSites, rfl, rfl, ?_, ?_, fun _ hDir => hDir, hKept.1, hKept.2.1, hKept.2.2⟩
      · change (removeFound world.managers.proxies fun proxy => proxy.domain = domain).records = _
        rw [records_removeFound, eraseP_eq_self_iff]
        exact fun proxy hMem => decide_eq_false (h.proxies proxy hMem)
      · intro name hName
        have hOther : name ≠ Proxy.configName domain := by
          rintro rfl
          exact hName h.config
        change Function.update world.proxyConfigs (Proxy.configName domain) none name ≠ none
        rw [Function.update_of_ne hOther]
        exact hName
    · intro container hMem
      rw [← Bool.not_eq_true, rollback_containers hSite]
      simp [h.containers container hMem]
    · intro network hMem
      rw [← Bool.not_eq_true, rollback_networks hSite]
      simp [h.networks network hMem]
    · intro volume hMem
      rw [← Bool.not_eq_true, rollback_volumes hSite]
      simp [h.volumes volume hMem]

/-- What is there when a creation fails behind the records, in terms of what there was. -/
structure Midway (world mid : World) (domain : Bytes) (run : ProviderRun) : Prop where
  sites : (mid.managers.sites.remove world.managers.sites.nextId).records = world.managers.sites.records
  records : ∃ password, mid.managers.domains = (withRecords world.managers.sites.nextId domain password world).managers.domains ∧
    mid.managers.databases = (withRecords world.managers.sites.nextId domain password world).managers.databases
  proxies : mid.managers.proxies = world.managers.proxies
  configs : ∀ name, name ≠ Proxy.configName domain → mid.proxyConfigs name = world.proxyConfigs name
  dirs : ∀ other, other ≠ domain → mid.siteDirs other = world.siteDirs other
  composeFile : world.siteDirs domain = none →
    (run.Composes → (mid.siteDirs domain).bind SiteDir.composeFile = some world.managers.sites.nextId) ∧
      (¬run.Composes → (mid.siteDirs domain).bind SiteDir.composeFile = none)
  containers : ∀ container ∈ world.docker.containers,
    (run.Composes → container.projectLabel ≠ some (siteComposeProjectName domain)) → container ∈ mid.docker.containers
  networks : ∀ network ∈ world.docker.networks, network ∈ mid.docker.networks
  volumes : ∀ volume ∈ world.docker.volumes, volume ∈ mid.docker.volumes

/-- What the provider leaves. -/
theorem midway_createSite (world : World) (domain : Bytes) (run : ProviderRun) (owner profile password : Bytes) (nodeId : Nat) :
    Midway world (createSite run domain world.managers.sites.nextId
      (withRecords world.managers.sites.nextId domain password (withSite owner domain profile nodeId world))).2 domain run := by
  cases run with
  | unavailable message =>
      refine ⟨Registry.records_remove_create _ _ _, ⟨password, rfl, rfl⟩, rfl, fun _ _ => rfl, fun _ _ => rfl, ?_,
        fun _ hMem _ => hMem, fun _ hMem => hMem, fun _ hMem => hMem⟩
      intro hDir
      refine ⟨fun hFalse => absurd hFalse id, fun _ => ?_⟩
      change (world.siteDirs domain).bind SiteDir.composeFile = none
      rw [hDir]
      rfl
  | unfinished message =>
      refine ⟨Registry.records_remove_create _ _ _, ⟨password, rfl, rfl⟩, rfl, fun _ _ => rfl, ?_, ?_,
        fun _ hMem _ => hMem, fun _ hMem => hMem, fun _ hMem => hMem⟩
      · exact fun other hOther => Function.update_of_ne hOther ..
      · intro hDir
        refine ⟨fun hFalse => absurd hFalse id, fun _ => ?_⟩
        change (Function.update world.siteDirs domain (some ⟨(world.siteDirs domain).bind SiteDir.composeFile⟩) domain).bind
          SiteDir.composeFile = none
        rw [Function.update_self, hDir]
        rfl
  | composed recreated started result =>
      refine ⟨Registry.records_remove_create _ _ _, ⟨password, rfl, rfl⟩, rfl, fun _ _ => rfl, ?_, ?_, ?_, ?_, ?_⟩
      · exact fun other hOther => Function.update_of_ne hOther ..
      · intro _
        refine ⟨fun _ => ?_, fun hNot => absurd trivial hNot⟩
        change (Function.update world.siteDirs domain (some ⟨some world.managers.sites.nextId⟩) domain).bind
          SiteDir.composeFile = some world.managers.sites.nextId
        rw [Function.update_self]
        rfl
      · intro container hMem hProject
        apply List.mem_append_left
        rw [Docker.mem_containers_drop]
        exact ⟨hMem, fun hGone => hProject trivial (by simpa [composeDown] using hGone.1)⟩
      · intro network hMem
        apply List.mem_append_left
        rw [Docker.mem_networks_drop]
        exact ⟨hMem, by simp [Selection.none]⟩
      · intro volume hMem
        apply List.mem_append_left
        rw [Docker.mem_volumes_drop]
        exact ⟨hMem, by simp [Selection.none]⟩

theorem Midway.withProfile {mid : World} {run : ProviderRun} (h : Midway world mid domain run) (profile : Bytes) :
    Midway world (withProfile world.managers.sites.nextId profile mid) domain run :=
  { h with
    sites :=
      (Registry.records_remove_modify mid.managers.sites _ (fun site => { site with webTemplateProfile := profile })
        fun _ => rfl).trans h.sites }

theorem Midway.proxied {mid : World} {run : ProviderRun} (h : Midway world mid domain run) (config : Bytes) :
    Midway world { mid with proxyConfigs := Function.update mid.proxyConfigs (Proxy.configName domain) (some config) } domain
      run :=
  { h with configs := fun name hName => (Function.update_of_ne hName ..).trans (h.configs name hName) }

/-- Without the volume of the project there is none of its name. -/
theorem volume_name_ne {docker : Docker} {siteId : Nat} (h : (inspectSiteDatabaseVolume docker domain siteId).present = false) :
    ∀ volume ∈ docker.volumes, volume.name ≠ siteDatabaseVolumeName domain := by
  rw [inspectSiteDatabaseVolume] at h
  cases hFind : docker.volumes.find? fun volume => volume.name = siteDatabaseVolumeName domain with
  | none => exact fun volume hMem => by simpa using List.find?_eq_none.mp hFind volume hMem
  | some volume =>
      rw [hFind] at h
      dsimp only at h
      split at h
      · cases h
      · split at h <;> cases h

/-- What Docker keeps behind a rollback with the directory. -/
theorem rollback_docker_iff {mid : World} {run : ProviderRun} (h : Midway world mid domain run)
    (hVolume : ∀ volume ∈ world.docker.volumes, volume.name ≠ siteDatabaseVolumeName domain)
    (hDir : world.siteDirs domain = none) :
    (∀ obeyed,
        (∀ container ∈ world.docker.containers, container ∈ (rollbackDocker world.managers.sites.nextId domain
          ((mid.siteDirs domain).bind SiteDir.composeFile) obeyed mid.docker).containers) ∧
        (∀ network ∈ world.docker.networks, network ∈ (rollbackDocker world.managers.sites.nextId domain
          ((mid.siteDirs domain).bind SiteDir.composeFile) obeyed mid.docker).networks) ∧
        ∀ volume ∈ world.docker.volumes, volume ∈ (rollbackDocker world.managers.sites.nextId domain
          ((mid.siteDirs domain).bind SiteDir.composeFile) obeyed mid.docker).volumes) ↔
      (∀ container ∈ world.docker.containers,
          (run.Composes → container.projectLabel ≠ some (siteComposeProjectName domain)) ∧
            container.siteLabel ≠ some (decimal world.managers.sites.nextId)) ∧
        (∀ network ∈ world.docker.networks, network.projectLabel ≠ some (siteNetworkKey world.managers.sites.nextId) ∧
          ¬siteNetworkKey world.managers.sites.nextId <:+: network.name) ∧
        ∀ volume ∈ world.docker.volumes, volume.projectLabel ≠ some (siteNetworkKey world.managers.sites.nextId) := by
  have hSite := world.managers.sites.positive
  obtain ⟨hComposed, hUncomposed⟩ := h.composeFile hDir
  have hFile : (mid.siteDirs domain).bind SiteDir.composeFile ≠ none ↔ run.Composes := by
    by_cases hComposes : run.Composes
    · simp [hComposed hComposes, hComposes]
    · simp [hUncomposed hComposes, hComposes]
  have hContainer : ∀ container : Container,
      (rollbackSelection world.managers.sites.nextId domain ((mid.siteDirs domain).bind SiteDir.composeFile)).containers
          container = false ↔
        (run.Composes → container.projectLabel ≠ some (siteComposeProjectName domain)) ∧
          container.siteLabel ≠ some (decimal world.managers.sites.nextId) := by
    intro container
    rw [← Bool.not_eq_true, rollback_containers hSite, hFile, not_or, not_and]
  -- The network of the compose file has the text of the id in its name.
  have hNetwork : ∀ network : Network,
      (rollbackSelection world.managers.sites.nextId domain ((mid.siteDirs domain).bind SiteDir.composeFile)).networks
          network = false ↔
        network.projectLabel ≠ some (siteNetworkKey world.managers.sites.nextId) ∧
          ¬siteNetworkKey world.managers.sites.nextId <:+: network.name := by
    intro network
    rw [← Bool.not_eq_true, rollback_networks hSite, not_or, not_or, and_iff_right_iff_imp]
    rintro ⟨-, hInfix⟩ ⟨composed, hSome, hName⟩
    have hComposes := hFile.mp (by rw [hSome]; exact Option.some_ne_none _)
    rw [hComposed hComposes, Option.some_inj] at hSome
    rw [hName, ← hSome] at hInfix
    exact hInfix (siteNetworkKey_occurs _ _)
  have hVolumes : ∀ volume ∈ world.docker.volumes,
      ((rollbackSelection world.managers.sites.nextId domain ((mid.siteDirs domain).bind SiteDir.composeFile)).volumes
          volume = false ↔
        volume.projectLabel ≠ some (siteNetworkKey world.managers.sites.nextId)) := by
    intro volume hMem
    rw [← Bool.not_eq_true, rollback_volumes hSite, not_or, and_iff_right_iff_imp]
    rintro - ⟨-, hName⟩
    exact hVolume volume hMem hName
  rw [rollbackDocker_keeps_iff world.managers.sites.nextId domain _
    (fun container hMem hNot => h.containers container hMem ((hContainer container).mp hNot).1) h.networks h.volumes]
  refine and_congr ?_ (and_congr ?_ ?_)
  · exact forall₂_congr fun container _ => hContainer container
  · exact forall₂_congr fun network _ => hNetwork network
  · exact forall₂_congr hVolumes

/-- What a rollback with the directory and the records leaves. -/
theorem rollback_midway_iff {mid : World} {run : ProviderRun} (h : Midway world mid domain run)
    (hVolume : ∀ volume ∈ world.docker.volumes, volume.name ≠ siteDatabaseVolumeName domain) :
    (∀ obeyed, Undone world (rollback ⟨true, true, true, world.managers.sites.nextId, true, domain⟩ obeyed mid)) ↔
      Unclaimed world world.managers.sites.nextId domain ∧ Vacant world world.managers.sites.nextId domain run := by
  have hSite := world.managers.sites.positive
  obtain ⟨password, hDomains, hDatabases⟩ := h.records
  -- What becomes of the records, whatever Docker does.
  have hRecords : ∀ obeyed,
      (rollback ⟨true, true, true, world.managers.sites.nextId, true, domain⟩ obeyed mid).managers.sites.records =
          world.managers.sites.records ∧
        ((rollback ⟨true, true, true, world.managers.sites.nextId, true, domain⟩ obeyed mid).managers.domains.records =
            world.managers.domains.records ↔
          ∀ other ∈ world.managers.domains.records, other.siteId ≠ world.managers.sites.nextId) ∧
        ((rollback ⟨true, true, true, world.managers.sites.nextId, true, domain⟩ obeyed mid).managers.databases.records =
            world.managers.databases.records ↔
          ∀ database ∈ world.managers.databases.records, database.siteId ≠ world.managers.sites.nextId) ∧
        ((rollback ⟨true, true, true, world.managers.sites.nextId, true, domain⟩ obeyed mid).managers.proxies.records =
            world.managers.proxies.records ↔
          ∀ proxy ∈ world.managers.proxies.records, proxy.domain ≠ domain) := by
    intro obeyed
    simp only [rollback, Bool.true_and, decide_eq_true hSite, if_true, records_removeFound, hDomains, hDatabases, h.proxies,
      withRecords]
    refine ⟨h.sites, ?_, ?_, ?_⟩
    · rw [eraseP_create_iff (by simp)]
      simp only [decide_eq_false_iff_not, ne_eq]
    · rw [eraseP_create_iff (by simp)]
      simp only [decide_eq_false_iff_not, ne_eq]
    · rw [eraseP_eq_self_iff]
      simp only [decide_eq_false_iff_not, ne_eq]
  have hDocker := rollback_docker_iff h hVolume
  constructor
  · intro hAll
    have hLeft := hAll Selection.none
    obtain ⟨-, hDomainRecords, hDatabaseRecords, hProxyRecords⟩ := hRecords Selection.none
    have hDir : world.siteDirs domain = none := by
      by_contra hDir
      exact hLeft.dirs _ hDir (Function.update_self ..)
    obtain ⟨hContainers, hNetworks, hVolumes⟩ := (hDocker hDir).mp fun obeyed =>
      ⟨(hAll obeyed).containers, (hAll obeyed).networks, (hAll obeyed).volumes⟩
    refine ⟨⟨?_, hProxyRecords.mp hLeft.proxies, fun container hMem => (hContainers container hMem).2, hNetworks, hVolumes⟩,
      ⟨hDir, hDomainRecords.mp hLeft.domains, hDatabaseRecords.mp hLeft.databases,
        fun hComposes container hMem => (hContainers container hMem).1 hComposes⟩⟩
    by_contra hConfig
    exact hLeft.configs _ hConfig (Function.update_self ..)
  · rintro ⟨hUnclaimed, hVacant⟩ obeyed
    obtain ⟨hSiteRecords, hDomainRecords, hDatabaseRecords, hProxyRecords⟩ := hRecords obeyed
    obtain ⟨hContainers, hNetworks, hVolumes⟩ := (hDocker hVacant.dir).mpr
      ⟨fun container hMem => ⟨fun hComposes => hVacant.project hComposes container hMem, hUnclaimed.containers container hMem⟩,
        hUnclaimed.networks, hUnclaimed.volumes⟩ obeyed
    refine ⟨hSiteRecords, hDomainRecords.mpr hVacant.domains, hDatabaseRecords.mpr hVacant.databases,
      hProxyRecords.mpr hUnclaimed.proxies, ?_, ?_, hContainers, hNetworks, hVolumes⟩
    · intro name hName
      have hOther : name ≠ Proxy.configName domain := by
        rintro rfl
        exact hName hUnclaimed.config
      change Function.update mid.proxyConfigs (Proxy.configName domain) none name ≠ none
      rw [Function.update_of_ne hOther, h.configs name hOther]
      exact hName
    · intro other hOtherDir
      have hOther : other ≠ domain := by
        rintro rfl
        exact hOtherDir hVacant.dir
      change Function.update mid.siteDirs domain none other ≠ none
      rw [Function.update_of_ne hOther, h.dirs other hOther]
      exact hOtherDir

end Rollback

/-! ## The operation -/

section Operation

variable {steps : CreateSteps} {owner domain profile : Bytes} {nodeId : Nat} {dryRun : Bool} {world : World} {message : Bytes}

/-- The creation with Docker carrying out other removals. -/
abbrev siteCreateObeyed (steps : CreateSteps) (owner domain profile : Bytes) (nodeId : Nat) (dryRun : Bool) (world : World)
    (obeyed : Selection) : World :=
  (siteCreate { steps with obeyed := obeyed } owner domain profile nodeId dryRun world).2

/-- All that a failed creation can have come to: nothing, or a rollback at one of two
stages. -/
theorem siteCreate_failed (hFailed : (siteCreate steps owner domain profile nodeId dryRun world).1 = .error message) :
    ((steps.refused ≠ none ∨ (world.managers.sites.find fun site => site.domain = domain) ≠ none) ∧
        ∀ obeyed, siteCreateObeyed steps owner domain profile nodeId dryRun world obeyed = world) ∨
      (steps.refused = none ∧ (world.managers.sites.find fun site => site.domain = domain) = none ∧
        ((inspectSiteDatabaseVolume world.docker domain world.managers.sites.nextId).present = true ∧
            (∀ obeyed, siteCreateObeyed steps owner domain profile nodeId dryRun world obeyed =
              rollback ⟨true, false, false, world.managers.sites.nextId, false, domain⟩ obeyed
                (withSite owner domain profile nodeId world)) ∨
          (inspectSiteDatabaseVolume world.docker domain world.managers.sites.nextId).present = false ∧
            ∃ mid, Midway world mid domain steps.provider ∧
              ∀ obeyed, siteCreateObeyed steps owner domain profile nodeId dryRun world obeyed =
                rollback ⟨true, true, true, world.managers.sites.nextId, true, domain⟩ obeyed mid)) := by
  cases hRefused : steps.refused with
  | some refusal =>
      refine Or.inl ⟨Or.inl (Option.some_ne_none _), fun obeyed => ?_⟩
      simp only [siteCreateObeyed, siteCreate, hRefused]
  | none =>
      cases hFind : world.managers.sites.find fun site => site.domain = domain with
      | some site =>
          refine Or.inl ⟨Or.inr (Option.some_ne_none _), fun obeyed => ?_⟩
          simp only [siteCreateObeyed, siteCreate, hRefused, hFind, Option.isSome_some, if_true]
      | none =>
          refine Or.inr ⟨rfl, rfl, ?_⟩
          have hDocker : (withSite owner domain profile nodeId world).docker = world.docker := rfl
          simp only [siteCreate, hRefused, hFind, Option.isSome_none, Bool.false_eq_true, if_false, hDocker] at hFailed
          cases hDry : dryRun with
          | true => rw [hDry, if_pos rfl] at hFailed; cases hFailed
          | false =>
              rw [hDry, if_neg Bool.false_ne_true] at hFailed
              cases hPresent : (inspectSiteDatabaseVolume world.docker domain world.managers.sites.nextId).present with
              | true =>
                  refine Or.inl ⟨rfl, fun obeyed => ?_⟩
                  simp only [siteCreateObeyed, siteCreate, hRefused, hFind, Option.isSome_none, Bool.false_eq_true, if_false,
                    hDocker, hPresent, if_true]
              | false =>
                  refine Or.inr ⟨rfl, ?_⟩
                  rw [if_neg (by simp [hPresent])] at hFailed
                  have hMid := midway_createSite world domain steps.provider owner profile steps.password nodeId
                  simp only [siteCreateObeyed, siteCreate, hRefused, hFind, Option.isSome_none, Bool.false_eq_true, if_false,
                    hDocker, hPresent]
                  generalize createSite steps.provider domain world.managers.sites.nextId
                    (withRecords world.managers.sites.nextId domain steps.password
                      (withSite owner domain profile nodeId world)) = provided at hFailed hMid ⊢
                  obtain ⟨result, deployed⟩ := provided
                  cases result with
                  | error message => exact ⟨deployed, hMid, fun _ => rfl⟩
                  | ok _ =>
                      cases hProxy : steps.proxyCreated with
                      | error message => exact ⟨_, hMid.withProfile steps.webTemplateProfile, fun _ => rfl⟩
                      | ok _ =>
                          cases hReload : steps.reloaded with
                          | error message =>
                              exact ⟨_, (hMid.withProfile steps.webTemplateProfile).proxied steps.proxyConfig, fun _ => rfl⟩
                          | ok _ => simp [hProxy, hReload] at hFailed

end Operation

section Sample

def noManagers : Managers :=
  ⟨Registry.empty, Registry.empty, Registry.empty, Registry.empty, Registry.empty, Registry.empty⟩

def emptyWorld : World := ⟨noManagers, fun _ => none, fun _ => none, ⟨[], [], []⟩⟩

/-- The provider finds no Compose. -/
def failingSteps : CreateSteps where
  refused := none
  password := bytes "secret"
  provider := .unavailable (bytes "Docker Compose is not available.")
  webTemplateProfile := []
  proxyCreated := .ok []
  proxyConfig := []
  reloaded := .ok []
  obeyed := Selection.all

/-- A config of the domain, of a proxy that was there before the site. -/
def proxiedWorld : World :=
  { emptyWorld with proxyConfigs := Function.update (fun _ => none) (Proxy.configName (bytes "a.org")) (some (bytes "server")) }

end Sample

end ContainerCP.Operations
