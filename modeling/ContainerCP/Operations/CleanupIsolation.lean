import ContainerCP.Operations.SiteCreate
import ContainerCP.Text.LineSearch

/-! What the cleanup of one site selects among the objects of the others. -/
namespace ContainerCP.Operations

/-! ## Names -/

/-- A pattern does not reach over a letter that it does not have. -/
theorem infix_append_cons_iff {c : UInt8} {pattern : Bytes} (h : c ∉ pattern) (front behind : Bytes) :
    pattern <:+: front ++ c :: behind ↔ pattern <:+: front ∨ pattern <:+: behind := by
  constructor
  · rintro ⟨before, after, hEq⟩
    rw [List.append_assoc] at hEq
    obtain ⟨rest, hFront, hRest⟩ | ⟨rest, hBefore, hRest⟩ := List.append_eq_append_iff.mp hEq
    · obtain ⟨tail, hTail, -⟩ | ⟨tail, hPattern, hTail⟩ := List.append_eq_append_iff.mp hRest
      · exact Or.inl ⟨before, tail, by rw [hFront, hTail, List.append_assoc]⟩
      · cases tail with
        | nil => exact Or.inl ⟨before, [], by rw [hFront, hPattern, List.append_nil, List.append_nil]⟩
        | cons d tail =>
            obtain ⟨rfl, -⟩ := List.cons.inj hTail
            exact absurd (by rw [hPattern]; simp) h
    · cases rest with
      | nil =>
          cases pattern with
          | nil => exact Or.inl List.nil_infix
          | cons d pattern =>
              obtain ⟨rfl, -⟩ := List.cons.inj hRest
              exact absurd List.mem_cons_self h
      | cons d rest =>
          obtain ⟨-, hBehind⟩ := List.cons.inj hRest
          exact Or.inr ⟨rest, after, (List.append_assoc ..).trans hBehind.symm⟩
  · rintro (hFront | hBehind)
    · exact hFront.trans List.infix_append_left
    · exact (hBehind.trans (List.infix_cons List.infix_rfl)).trans List.infix_append_right

theorem dash_notMem_decimal (n : Nat) : ascii '-' ∉ decimal n := not_mem_decimal (by decide)

theorem underscore_notMem_siteNetworkKey (siteId : Nat) : ascii '_' ∉ siteNetworkKey siteId := by
  rw [siteNetworkKey, List.mem_append, not_or]
  exact ⟨by decide, not_mem_decimal (by decide)⟩

/-- A key has its two dashes in front of the id. -/
theorem count_siteNetworkKey (siteId : Nat) : (siteNetworkKey siteId).count (ascii '-') = 2 := by
  have hText : (bytes "containercp-site-").count (ascii '-') = 2 := by decide
  rw [siteNetworkKey, List.count_append, hText, List.count_eq_zero_of_not_mem (dash_notMem_decimal siteId)]

theorem cutAt_siteNetworkKey {front : Bytes} (h : ascii '-' ∉ front) (siteId : Nat) (behind : Bytes) :
    cutAt (ascii '-') (front ++ siteNetworkKey siteId ++ behind) =
      some (front ++ bytes "containercp", bytes "site-" ++ decimal siteId ++ behind) := by
  have hText : bytes "containercp-site-" = bytes "containercp" ++ ascii '-' :: bytes "site-" := by decide
  rw [cutAt_eq_some, List.mem_append, not_or, siteNetworkKey, hText]
  refine ⟨?_, h, by decide⟩
  simp only [List.append_assoc, List.cons_append]

/-- The key of one site stands in that of another where its id begins that of the other. -/
theorem siteNetworkKey_occurs_key_iff (siteId other : Nat) :
    siteNetworkKey siteId <:+: siteNetworkKey other ↔ decimal siteId <+: decimal other := by
  constructor
  · rintro ⟨front, behind, hEq⟩
    have hCount := congrArg (List.count (ascii '-')) hEq
    rw [List.count_append, List.count_append, count_siteNetworkKey, count_siteNetworkKey] at hCount
    have hFront : ascii '-' ∉ front := List.count_eq_zero.mp (by omega)
    have hCut := congrArg (cutAt (ascii '-')) hEq
    have hOther := cutAt_siteNetworkKey List.not_mem_nil other []
    rw [List.nil_append, List.append_nil] at hOther
    rw [cutAt_siteNetworkKey hFront, hOther, Option.some_inj, Prod.mk.injEq, List.append_nil] at hCut
    exact ⟨behind, by simpa [List.append_assoc] using hCut.2⟩
  · rintro ⟨behind, hEq⟩
    exact ⟨[], behind, by rw [siteNetworkKey, siteNetworkKey, ← hEq, List.nil_append, List.append_assoc]⟩

theorem siteNetworkName_eq (domain : Bytes) (siteId : Nat) :
    siteNetworkName domain siteId = siteComposeProjectName domain ++ ascii '_' :: siteNetworkKey siteId := by
  have hText : bytes "_" = [ascii '_'] := by decide
  rw [siteNetworkName, hText, List.append_assoc, List.singleton_append]

/-- Which networks of other sites the filter for a site finds. -/
theorem siteNetworkKey_occurs_name_iff (siteId : Nat) (domain : Bytes) (other : Nat) :
    siteNetworkKey siteId <:+: siteNetworkName domain other ↔
      siteNetworkKey siteId <:+: siteComposeProjectName domain ∨ decimal siteId <+: decimal other := by
  rw [siteNetworkName_eq, infix_append_cons_iff (underscore_notMem_siteNetworkKey siteId), siteNetworkKey_occurs_key_iff]

/-- The key stands behind the last underscore of the name. -/
theorem cutAt_siteNetworkName (domain : Bytes) (siteId : Nat) :
    cutAt (ascii '_') (siteNetworkName domain siteId).reverse =
      some ((siteNetworkKey siteId).reverse, (siteComposeProjectName domain).reverse) := by
  rw [cutAt_eq_some, siteNetworkName_eq, List.mem_reverse]
  refine ⟨?_, underscore_notMem_siteNetworkKey siteId⟩
  rw [List.reverse_append, List.reverse_cons, List.append_assoc, List.singleton_append]

theorem siteNetworkName_id {domain domain' : Bytes} {siteId siteId' : Nat}
    (h : siteNetworkName domain siteId = siteNetworkName domain' siteId') : siteId = siteId' := by
  have hCut := cutAt_siteNetworkName domain siteId
  rw [h, cutAt_siteNetworkName, Option.some_inj, Prod.mk.injEq, List.reverse_inj, siteNetworkKey, siteNetworkKey,
    List.append_cancel_left_eq] at hCut
  exact (decimal_injective hCut.1).symm

/-! ## Whose the objects are -/

/-- The volume has the label of the site, or none and is mounted by its database. -/
def OwnVolume (docker : Docker) (site : Site) (volume : Volume) : Prop :=
  labelText volume.siteLabel = decimal site.id ∨
    (isMissingLabel (labelText volume.siteLabel) = true ∧
      mountedByTargetContainer docker volume.name (siteComposeProjectName site.domain) site.id = true)

/-- What is selected belongs to the site. -/
structure Selection.Own (selection : Selection) (docker : Docker) (site : Site) : Prop where
  containers : ∀ container ∈ docker.containers, selection.containers container = true →
    container.siteLabel = some (decimal site.id)
  networks : ∀ network ∈ docker.networks, selection.networks network = true →
    network.name = siteNetworkName site.domain site.id
  volumes : ∀ volume ∈ docker.volumes, selection.volumes volume = true → OwnVolume docker site volume

/-- What is gone belonged to the site. -/
structure OnlyOwn (site : Site) (before after : Docker) : Prop where
  containers : ∀ container ∈ before.containers, container ∉ after.containers →
    container.siteLabel = some (decimal site.id)
  networks : ∀ network ∈ before.networks, network ∉ after.networks → network.name = siteNetworkName site.domain site.id
  volumes : ∀ volume ∈ before.volumes, volume ∉ after.volumes → OwnVolume before site volume

theorem OnlyOwn.refl (site : Site) (docker : Docker) : OnlyOwn site docker docker :=
  ⟨fun _ hMem hGone => absurd hMem hGone, fun _ hMem hGone => absurd hMem hGone, fun _ hMem hGone => absurd hMem hGone⟩

/-- A part of a selection. -/
structure Selection.Within (part selection : Selection) : Prop where
  containers : ∀ container, part.containers container = true → selection.containers container = true
  networks : ∀ network, part.networks network = true → selection.networks network = true
  volumes : ∀ volume, part.volumes volume = true → selection.volumes volume = true

namespace Selection.Within

theorem refl (selection : Selection) : selection.Within selection := ⟨fun _ h => h, fun _ h => h, fun _ h => h⟩

theorem left {part first : Selection} (h : part.Within first) (second : Selection) : part.Within (first.union second) :=
  ⟨fun container hPart => Bool.or_eq_true_iff.mpr (Or.inl (h.containers container hPart)),
    fun network hPart => Bool.or_eq_true_iff.mpr (Or.inl (h.networks network hPart)),
    fun volume hPart => Bool.or_eq_true_iff.mpr (Or.inl (h.volumes volume hPart))⟩

theorem right {part second : Selection} (h : part.Within second) (first : Selection) : part.Within (first.union second) :=
  ⟨fun container hPart => Bool.or_eq_true_iff.mpr (Or.inr (h.containers container hPart)),
    fun network hPart => Bool.or_eq_true_iff.mpr (Or.inr (h.networks network hPart)),
    fun volume hPart => Bool.or_eq_true_iff.mpr (Or.inr (h.volumes volume hPart))⟩

end Selection.Within

/-- What is not selected is still there. -/
structure Kept (selection : Selection) (before after : Docker) : Prop where
  containers : ∀ container ∈ before.containers, container ∈ after.containers ∨ selection.containers container = true
  networks : ∀ network ∈ before.networks, network ∈ after.networks ∨ selection.networks network = true
  volumes : ∀ volume ∈ before.volumes, volume ∈ after.volumes ∨ selection.volumes volume = true

theorem Kept.refl (selection : Selection) (docker : Docker) : Kept selection docker docker :=
  ⟨fun _ hMem => Or.inl hMem, fun _ hMem => Or.inl hMem, fun _ hMem => Or.inl hMem⟩

/-- One more removal, of what is selected. -/
theorem Kept.drop {selection part : Selection} {before after : Docker} (h : Kept selection before after)
    (hPart : part.Within selection) (obeyed : Selection) : Kept selection before (after.drop part obeyed) := by
  refine ⟨?_, ?_, ?_⟩
  · intro container hMem
    rw [Docker.mem_containers_drop]
    have hKept := h.containers container hMem
    have hSelected := hPart.containers container
    tauto
  · intro network hMem
    rw [Docker.mem_networks_drop]
    have hKept := h.networks network hMem
    have hSelected := hPart.networks network
    tauto
  · intro volume hMem
    rw [Docker.mem_volumes_drop]
    have hKept := h.volumes volume hMem
    have hSelected := hPart.volumes volume
    tauto

theorem Selection.Own.onlyOwn {selection : Selection} {before after : Docker} {site : Site} (h : selection.Own before site)
    (hKept : Kept selection before after) : OnlyOwn site before after :=
  ⟨fun container hMem hGone => h.containers container hMem ((hKept.containers container hMem).resolve_left hGone),
    fun network hMem hGone => h.networks network hMem ((hKept.networks network hMem).resolve_left hGone),
    fun volume hMem hGone => h.volumes volume hMem ((hKept.volumes volume hMem).resolve_left hGone)⟩

theorem own_none (docker : Docker) (site : Site) : Selection.none.Own docker site := by
  constructor <;> simp [Selection.none]

/-- Where all that is selected goes, only objects of the site do so if only such are
selected. -/
theorem own_of_onlyOwn {selection : Selection} {docker : Docker} {site : Site}
    (h : OnlyOwn site docker (docker.drop selection Selection.all)) : selection.Own docker site := by
  refine ⟨?_, ?_, ?_⟩
  · intro container hMem hSelected
    exact h.containers container hMem fun hKept => (Docker.mem_containers_drop.mp hKept).2 ⟨hSelected, rfl⟩
  · intro network hMem hSelected
    exact h.networks network hMem fun hKept => (Docker.mem_networks_drop.mp hKept).2 ⟨hSelected, rfl⟩
  · intro volume hMem hSelected
    exact h.volumes volume hMem fun hKept => (Docker.mem_volumes_drop.mp hKept).2 ⟨hSelected, rfl⟩

theorem inspectSiteDatabaseVolume_name (docker : Docker) (domain : Bytes) (siteId : Nat) :
    (inspectSiteDatabaseVolume docker domain siteId).volumeName = siteDatabaseVolumeName domain := by
  rw [inspectSiteDatabaseVolume]
  split
  · rfl
  · dsimp only
    split
    · rfl
    · split <;> rfl

/-- Where the guard lets a volume be removed, it belongs to the site. -/
theorem inspectSiteDatabaseVolume_own {docker : Docker} {site : Site} (hNames : (docker.volumes.map Volume.name).Nodup)
    (hPresent : (inspectSiteDatabaseVolume docker site.domain site.id).present = true)
    (hRemovable : (inspectSiteDatabaseVolume docker site.domain site.id).removable = true) {volume : Volume}
    (hMem : volume ∈ docker.volumes) (hName : volume.name = siteDatabaseVolumeName site.domain) :
    OwnVolume docker site volume := by
  rw [inspectSiteDatabaseVolume] at hPresent hRemovable
  cases hFind : docker.volumes.find? fun volume => volume.name = siteDatabaseVolumeName site.domain with
  | none =>
      rw [hFind] at hPresent
      cases hPresent
  | some found =>
      have hFound : found.name = siteDatabaseVolumeName site.domain := by simpa using List.find?_some hFind
      obtain rfl : volume = found :=
        List.inj_on_of_nodup_map hNames hMem (List.mem_of_find?_eq_some hFind) (hName.trans hFound.symm)
      rw [hFind] at hRemovable
      dsimp only at hRemovable
      split at hRemovable
      · next hLabels =>
        simp only [Bool.and_eq_true, decide_eq_true_eq] at hLabels
        exact Or.inl hLabels.1.2
      · split at hRemovable
        · next hLegacy =>
          simp only [Bool.and_eq_true] at hLegacy
          refine Or.inr ⟨hLegacy.1.1.2, ?_⟩
          rw [hName]
          exact hLegacy.2
        · cases hRemovable

/-- The filter for the networks of the site finds neither those of the other sites nor
foreign ones. -/
structure NetworksApart (sites : List Site) (docker : Docker) (site : Site) : Prop where
  others : ∀ other ∈ sites, other.id ≠ site.id → ∀ network ∈ docker.networks,
    network.name = siteNetworkName other.domain other.id →
      ¬siteNetworkKey site.id <:+: siteComposeProjectName other.domain ∧ ¬decimal site.id <+: decimal other.id
  foreign : ∀ network ∈ docker.networks, (∀ other ∈ sites, network.name ≠ siteNetworkName other.domain other.id) →
    ¬siteNetworkKey site.id <:+: network.name

theorem networksApart_iff {sites : Registry Site Site.id} {site : Site} (hSite : site ∈ sites.records) (docker : Docker) :
    NetworksApart sites.records docker site ↔ ∀ network ∈ docker.networks,
      siteNetworkKey site.id <:+: network.name → network.name = siteNetworkName site.domain site.id := by
  constructor
  · intro h network hMem hInfix
    by_cases hOwned : ∀ other ∈ sites.records, network.name ≠ siteNetworkName other.domain other.id
    · exact absurd hInfix (h.foreign network hMem hOwned)
    · push Not at hOwned
      obtain ⟨other, hOther, hName⟩ := hOwned
      by_cases hId : other.id = site.id
      · rw [hName, Registry.eq_of_id_eq hOther hSite hId]
      · rw [hName, siteNetworkKey_occurs_name_iff] at hInfix
        have hApart := h.others other hOther hId network hMem hName
        exact absurd hInfix (not_or.mpr hApart)
  · intro h
    constructor
    · intro other _ hId network hMem hName
      rw [← not_or, ← siteNetworkKey_occurs_name_iff, ← hName]
      intro hInfix
      exact hId (siteNetworkName_id (hName.symm.trans (h network hMem hInfix)))
    · intro network hMem hForeign hInfix
      exact hForeign site hSite (h network hMem hInfix)

/-! ## The removal -/

/-- All that the removal of a site has Docker remove. -/
def removeSelection (docker : Docker) (site : Site) : Selection :=
  let plan := inspectSiteDatabaseVolume docker site.domain site.id
  if plan.present && !plan.removable then Selection.none
  else
    ((composeDown site.domain site.id false).union
      (if plan.present then volumeNamed plan.volumeName else Selection.none)).union (networksNamed site.id)

/-- However the removal goes, what it does not select stays. -/
theorem siteRemove_kept {site : Site} {world : World}
    (hFind : (world.managers.sites.find fun other => other.domain = site.domain) = some site) (steps : RemoveSteps) :
    Kept (removeSelection world.docker site) world.docker (siteRemove steps site.domain world).2.docker := by
  rw [siteRemove, hFind]
  dsimp only
  split
  · exact Kept.refl _ _
  · next hPlan =>
    rw [removeSelection, if_neg hPlan]
    have hStopped : ∀ rest, Kept (((composeDown site.domain site.id false).union rest).union (networksNamed site.id))
        world.docker (world.docker.drop (composeDown site.domain site.id false) steps.obeyed) := fun rest =>
      (Kept.refl _ world.docker).drop (((Selection.Within.refl _).left rest).left _) steps.obeyed
    cases steps.down with
    | error message => exact hStopped _
    | ok _ =>
        cases (inspectSiteDatabaseVolume world.docker site.domain site.id).present with
        | false => exact (hStopped _).drop ((Selection.Within.refl _).right _) _
        | true =>
            cases steps.volumeRemoved with
            | false => exact hStopped _
            | true =>
                exact ((hStopped _).drop (((Selection.Within.refl _).right _).left _) _).drop
                  ((Selection.Within.refl _).right _) _

/-- The volume is the only thing that its selection has removed. -/
theorem drop_volumeNamed (docker : Docker) (name : Bytes) :
    docker.drop (volumeNamed name) { Selection.none with volumes := fun _ => true } =
      docker.drop (volumeNamed name) Selection.all := by
  simp [Docker.drop, volumeNamed, Selection.none, Selection.all]

/-- The steps of a removal that runs to its end. -/
def smoothSteps : RemoveSteps := ⟨.ok [], true, Selection.all, fun _ => ⟨0, [], [], [], 0, 0⟩⟩

/-- Where nothing fails, all goes that is selected. -/
theorem siteRemove_smooth {site : Site} {world : World}
    (hFind : (world.managers.sites.find fun other => other.domain = site.domain) = some site) :
    (siteRemove smoothSteps site.domain world).2.docker =
      world.docker.drop (removeSelection world.docker site) Selection.all := by
  rw [siteRemove, hFind, removeSelection]
  dsimp only
  split
  · exact (Docker.drop_none _ _).symm
  · rw [← Docker.drop_drop, ← Docker.drop_drop]
    cases hPresent : (inspectSiteDatabaseVolume world.docker site.domain site.id).present with
    | false => simp [smoothSteps, Docker.drop_none]
    | true => simp [smoothSteps, drop_volumeNamed]

theorem siteRemove_onlyOwn_iff {site : Site} {world : World}
    (hFind : (world.managers.sites.find fun other => other.domain = site.domain) = some site) :
    (∀ steps, OnlyOwn site world.docker (siteRemove steps site.domain world).2.docker) ↔
      (removeSelection world.docker site).Own world.docker site := by
  constructor
  · intro hAll
    apply own_of_onlyOwn
    rw [← siteRemove_smooth hFind]
    exact hAll smoothSteps
  · exact fun h steps => h.onlyOwn (siteRemove_kept hFind steps)

/-- The containers of the project have the label of the site, and the networks are apart. -/
structure RemoveIsolated (sites : List Site) (docker : Docker) (site : Site) : Prop where
  project : ∀ container ∈ docker.containers, container.projectLabel = some (siteComposeProjectName site.domain) →
    container.siteLabel = some (decimal site.id)
  networks : NetworksApart sites docker site

theorem removeSelection_own_iff {sites : Registry Site Site.id} {site : Site} (hSite : site ∈ sites.records) {docker : Docker}
    (hNames : (docker.volumes.map Volume.name).Nodup) :
    (removeSelection docker site).Own docker site ↔
      ((inspectSiteDatabaseVolume docker site.domain site.id).present = true ∧
          (inspectSiteDatabaseVolume docker site.domain site.id).removable = false) ∨
        RemoveIsolated sites.records docker site := by
  rw [removeSelection]
  split
  · next hRefused =>
    rw [Bool.and_eq_true, Bool.not_eq_true'] at hRefused
    exact iff_of_true (own_none docker site) (Or.inl hRefused)
  · next hPlan =>
    have hNot : ¬((inspectSiteDatabaseVolume docker site.domain site.id).present = true ∧
        (inspectSiteDatabaseVolume docker site.domain site.id).removable = false) := by
      rwa [Bool.and_eq_true, Bool.not_eq_true'] at hPlan
    have hStack : ∀ network : Network, network.name = siteNetworkName site.domain site.id →
        siteNetworkKey site.id <:+: network.name := fun network hName => hName ▸ siteNetworkKey_occurs _ _
    rw [or_iff_right hNot]
    constructor
    · intro h
      refine ⟨?_, (networksApart_iff hSite docker).mpr ?_⟩
      · intro container hMem hProject
        exact h.containers container hMem (by simp [Selection.union, composeDown, hProject])
      · intro network hMem hInfix
        exact h.networks network hMem (by simp [Selection.union, networksNamed, hInfix])
    · rintro ⟨hProject, hApart⟩
      refine ⟨?_, ?_, ?_⟩
      · intro container hMem hSelected
        refine hProject container hMem ?_
        cases hPresent : (inspectSiteDatabaseVolume docker site.domain site.id).present <;>
          simpa [hPresent, Selection.union, Selection.none, composeDown, volumeNamed, networksNamed] using hSelected
      · intro network hMem hSelected
        refine (networksApart_iff hSite docker).mp hApart network hMem ?_
        have hEither : network.name = siteNetworkName site.domain site.id ∨ siteNetworkKey site.id <:+: network.name := by
          cases hPresent : (inspectSiteDatabaseVolume docker site.domain site.id).present <;>
            simpa [hPresent, Selection.union, Selection.none, composeDown, volumeNamed, networksNamed] using hSelected
        exact hEither.elim (hStack network) id
      · intro volume hMem hSelected
        cases hPresent : (inspectSiteDatabaseVolume docker site.domain site.id).present with
        | false => simp [hPresent, Selection.union, Selection.none, composeDown, networksNamed] at hSelected
        | true =>
            have hRemovable : (inspectSiteDatabaseVolume docker site.domain site.id).removable = true := by
              simpa [hPresent] using hNot
            refine inspectSiteDatabaseVolume_own hNames hPresent hRemovable hMem ?_
            simpa [hPresent, Selection.union, Selection.none, composeDown, volumeNamed, networksNamed,
              inspectSiteDatabaseVolume_name] using hSelected

/-! ## The rollback -/

/-- Nothing of the others is found by the compose file in the directory or by the labels. -/
structure RollbackIsolated (sites : List Site) (docker : Docker) (site : Site) (composeFile : Option Nat) : Prop where
  project : composeFile ≠ none → ∀ container ∈ docker.containers,
    container.projectLabel = some (siteComposeProjectName site.domain) → container.siteLabel = some (decimal site.id)
  networks : NetworksApart sites docker site
  composed : ∀ composed, composeFile = some composed → composed ≠ site.id → ∀ network ∈ docker.networks,
    network.name ≠ siteNetworkName site.domain composed
  networkProject : ∀ network ∈ docker.networks, network.projectLabel = some (siteNetworkKey site.id) →
    network.name = siteNetworkName site.domain site.id
  volumeName : composeFile ≠ none → ∀ volume ∈ docker.volumes, volume.name = siteDatabaseVolumeName site.domain →
    OwnVolume docker site volume
  volumeProject : ∀ volume ∈ docker.volumes, volume.projectLabel = some (siteNetworkKey site.id) →
    OwnVolume docker site volume

theorem rollbackSelection_own_iff {sites : Registry Site Site.id} {site : Site} (hSite : site ∈ sites.records)
    (hPositive : 0 < site.id) (docker : Docker) (composeFile : Option Nat) :
    (rollbackSelection site.id site.domain composeFile).Own docker site ↔
      RollbackIsolated sites.records docker site composeFile := by
  constructor
  · intro h
    refine ⟨?_, (networksApart_iff hSite docker).mpr ?_, ?_, ?_, ?_, ?_⟩
    · exact fun hFile container hMem hProject =>
        h.containers container hMem ((rollback_containers hPositive ..).mpr (Or.inl ⟨hFile, hProject⟩))
    · exact fun network hMem hInfix =>
        h.networks network hMem ((rollback_networks hPositive ..).mpr (Or.inr (Or.inr hInfix)))
    · intro composed hFile hOther network hMem hName
      have hOwn := h.networks network hMem ((rollback_networks hPositive ..).mpr (Or.inl ⟨composed, hFile, hName⟩))
      exact hOther (siteNetworkName_id (hName.symm.trans hOwn))
    · exact fun network hMem hProject =>
        h.networks network hMem ((rollback_networks hPositive ..).mpr (Or.inr (Or.inl hProject)))
    · exact fun hFile volume hMem hName =>
        h.volumes volume hMem ((rollback_volumes hPositive ..).mpr (Or.inl ⟨hFile, hName⟩))
    · exact fun volume hMem hProject =>
        h.volumes volume hMem ((rollback_volumes hPositive ..).mpr (Or.inr hProject))
  · intro h
    refine ⟨?_, ?_, ?_⟩
    · intro container hMem hSelected
      obtain ⟨hFile, hProject⟩ | hLabel := (rollback_containers hPositive ..).mp hSelected
      · exact h.project hFile container hMem hProject
      · exact hLabel
    · intro network hMem hSelected
      obtain ⟨composed, hFile, hName⟩ | hProject | hInfix := (rollback_networks hPositive ..).mp hSelected
      · by_cases hOther : composed = site.id
        · rw [hName, hOther]
        · exact absurd hName (h.composed composed hFile hOther network hMem)
      · exact h.networkProject network hMem hProject
      · exact (networksApart_iff hSite docker).mp h.networks network hMem hInfix
    · intro volume hMem hSelected
      obtain ⟨hFile, hName⟩ | hProject := (rollback_volumes hPositive ..).mp hSelected
      · exact h.volumeName hFile volume hMem hName
      · exact h.volumeProject volume hMem hProject

/-- The compose file that a rollback finds. -/
def CreateState.composeFile (state : CreateState) (world : World) : Option Nat :=
  if state.siteDir then (world.siteDirs state.domain).bind SiteDir.composeFile else none

theorem rollback_onlyOwn_iff {state : CreateState} {site : Site} (hId : state.siteId = site.id)
    (hDomain : state.domain = site.domain) (world : World) :
    (∀ obeyed, OnlyOwn site world.docker (rollback state obeyed world).docker) ↔
      (rollbackSelection site.id site.domain (state.composeFile world)).Own world.docker site := by
  have hDocker : ∀ obeyed, (rollback state obeyed world).docker =
      world.docker.drop (rollbackSelection site.id site.domain (state.composeFile world)) obeyed := by
    intro obeyed
    rw [← hId, ← hDomain, ← rollbackDocker_eq]
    rfl
  simp only [hDocker]
  constructor
  · exact fun hAll => own_of_onlyOwn (hAll Selection.all)
  · exact fun h obeyed => h.onlyOwn ((Kept.refl _ _).drop (Selection.Within.refl _) obeyed)

/-! ## The two cleanups -/

section Sample

def firstSite : Site := ⟨1, bytes "a.org", bytes "alice", 1, bytes "apache", []⟩

def tenthSite : Site := ⟨10, bytes "b.org", bytes "bob", 1, bytes "apache", []⟩

def twoSites : Registry Site Site.id where
  records := [firstSite, tenthSite]
  nextId := 11
  nodup := by decide
  below := by decide
  positive := by decide

/-- The network of the tenth site. -/
def tenthNetwork : Network := ⟨siteNetworkName tenthSite.domain tenthSite.id, some (siteComposeProjectName tenthSite.domain)⟩

def twoSitesWorld : World where
  managers := ⟨twoSites, Registry.empty, Registry.empty, Registry.empty, Registry.empty, Registry.empty⟩
  proxyConfigs := fun _ => none
  siteDirs := fun _ => none
  docker := ⟨[], [tenthNetwork], []⟩

theorem twoSitesWorld_find :
    (twoSitesWorld.managers.sites.find fun other => other.domain = firstSite.domain) = some firstSite := by
  rfl

end Sample

end ContainerCP.Operations
