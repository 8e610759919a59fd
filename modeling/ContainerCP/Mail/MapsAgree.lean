import ContainerCP.Mail.DockerMailProvider

/-! The maps that `write_configs` generates, set against each other. -/
namespace ContainerCP.Mail

variable (domains : List MailDomain) (mailboxes : List Mailbox)

/-- The mode delivers to local mailboxes. -/
def MailDomainMode.isLocal (mode : MailDomainMode) : Bool := mode = .localPrimary || mode = .splitM365

/-- The address of a mailbox, by the name of its domain. -/
def Mailbox.addressIn (mb : Mailbox) (domain : Bytes) : Bytes := mb.localPart ++ atSign ++ domain

/-- A mailbox is to be served: it and its domain are enabled, and the domain is local. -/
def Served (mb : Mailbox) (d : MailDomain) : Prop :=
  mb ∈ mailboxes ∧ mb.enabled = true ∧ domainOf domains mb.domainId = some d ∧ d.enabled = true ∧ d.mode.isLocal = true

/-- The maps agree: the accounts of Dovecot and of Postfix are those of the served mailboxes,
no domain is both relayed and local, and the enabled mailboxes of a split domain have their
mail delivered locally. -/
structure MapsAgree : Prop where
  same : ∀ address, address ∈ (passwdEntries domains mailboxes).map MapEntry.address ↔
    address ∈ (virtualMailboxEntries domains mailboxes).map MapEntry.address
  served : ∀ address, address ∈ (passwdEntries domains mailboxes).map MapEntry.address ↔
    ∃ mb d, Served domains mailboxes mb d ∧ address = mb.addressIn d.domainName
  apart : ∀ name, ¬(name ∈ relayDomains domains ∧ name ∈ virtualMailboxDomains domains)
  transported : ∀ mb ∈ mailboxes, mb.enabled = true → ∀ d, domainOf domains mb.domainId = some d → d.mode = .splitM365 →
    ⟨mb.addressIn d.domainName, lmtpTarget⟩ ∈ transportEntries domains mailboxes

/-- What the provider does by design: a served mailbox has both accounts, and an account of
Dovecot is one of an enabled mailbox that Postfix knows; a domain is in both lists where it is
split, or where it has both a relayed and a local record; and the enabled mailboxes of an
enabled split domain with a relay host have their mail delivered locally. -/
structure MapsByDesign : Prop where
  known : ∀ address, address ∈ (passwdEntries domains mailboxes).map MapEntry.address →
    address ∈ (virtualMailboxEntries domains mailboxes).map MapEntry.address ∧
      ∃ mb ∈ mailboxes, mb.enabled = true ∧ address = mb.addressIn (domainNameOf domains mb.domainId)
  served : ∀ mb d, Served domains mailboxes mb d → d.domainName ≠ [] →
    mb.addressIn d.domainName ∈ (passwdEntries domains mailboxes).map MapEntry.address ∧
      mb.addressIn d.domainName ∈ (virtualMailboxEntries domains mailboxes).map MapEntry.address
  both : ∀ name, (name ∈ relayDomains domains ∧ name ∈ virtualMailboxDomains domains) ↔
    (∃ d ∈ domains, d.enabled = true ∧ d.mode = .splitM365 ∧ d.domainName = name) ∨
      ((∃ d ∈ domains, d.enabled = true ∧ d.mode = .externalRelay ∧ d.domainName = name) ∧
        ∃ d ∈ domains, d.enabled = true ∧ d.mode = .localPrimary ∧ d.domainName = name)
  transported : ∀ mb ∈ mailboxes, mb.enabled = true → ∀ d ∈ domains, d.id = mb.domainId → d.enabled = true →
    d.mode = .splitM365 → d.relayHost ≠ [] →
      ⟨mb.addressIn d.domainName, lmtpTarget⟩ ∈ transportEntries domains mailboxes

/-! ## Membership -/

variable {domains mailboxes}

theorem mem_passwdEntries {entry : MapEntry} :
    entry ∈ passwdEntries domains mailboxes ↔ ∃ mb ∈ mailboxes, mb.enabled = true ∧ domainNameOf domains mb.domainId ≠ [] ∧
      entry = ⟨mb.localPart, domainNameOf domains mb.domainId, mb.passwordHash⟩ := by
  simp only [passwdEntries, List.mem_filterMap]
  refine exists_congr fun mb => and_congr_right fun _ => ?_
  split
  · next hSkipped =>
    simp only [Bool.or_eq_true, decide_eq_true_eq, Bool.not_eq_true'] at hSkipped
    refine iff_of_false (by simp) ?_
    rintro ⟨hEnabled, hName, -⟩
    rcases hSkipped with hEmpty | hDisabled
    · exact hName hEmpty
    · rw [hEnabled] at hDisabled
      cases hDisabled
  · next hKept =>
    simp only [Bool.or_eq_true, decide_eq_true_eq, Bool.not_eq_true', not_or, Bool.not_eq_false] at hKept
    rw [Option.some_inj]
    exact ⟨fun h => ⟨hKept.2, hKept.1, h.symm⟩, fun h => h.2.2.symm⟩

theorem mem_virtualMailboxEntries {entry : MapEntry} :
    entry ∈ virtualMailboxEntries domains mailboxes ↔ ∃ mb ∈ mailboxes, domainNameOf domains mb.domainId ≠ [] ∧
      entry = ⟨mb.localPart, domainNameOf domains mb.domainId, []⟩ := by
  simp only [virtualMailboxEntries, List.mem_filterMap]
  refine exists_congr fun mb => and_congr_right fun _ => ?_
  split
  · next hSkipped => exact iff_of_false (by simp) fun h => h.1 hSkipped
  · next hKept =>
    rw [Option.some_inj]
    exact ⟨fun h => ⟨hKept, h.symm⟩, fun h => h.2.symm⟩

theorem mem_relayDomains {name : Bytes} :
    name ∈ relayDomains domains ↔ ∃ d ∈ domains, d.enabled = true ∧ (d.mode = .externalRelay ∨ d.mode = .splitM365) ∧ d.domainName = name := by
  simp only [relayDomains, List.mem_map, List.mem_filter, Bool.and_eq_true, Bool.or_eq_true, decide_eq_true_eq]
  exact exists_congr fun d => ⟨fun ⟨⟨hMem, hMode, hEnabled⟩, hName⟩ => ⟨hMem, hEnabled, hMode, hName⟩,
    fun ⟨hMem, hEnabled, hMode, hName⟩ => ⟨⟨hMem, hMode, hEnabled⟩, hName⟩⟩

theorem mem_virtualMailboxDomains {name : Bytes} :
    name ∈ virtualMailboxDomains domains ↔
      ∃ d ∈ domains, d.enabled = true ∧ (d.mode = .localPrimary ∨ d.mode = .splitM365) ∧ d.domainName = name := by
  simp only [virtualMailboxDomains, List.mem_map, List.mem_filter, Bool.and_eq_true, Bool.or_eq_true, decide_eq_true_eq]
  exact exists_congr fun d => ⟨fun ⟨⟨hMem, hMode, hEnabled⟩, hName⟩ => ⟨hMem, hEnabled, hMode, hName⟩,
    fun ⟨hMem, hEnabled, hMode, hName⟩ => ⟨⟨hMem, hMode, hEnabled⟩, hName⟩⟩

theorem address_of_passwd {address : Bytes} (h : address ∈ (passwdEntries domains mailboxes).map MapEntry.address) :
    ∃ mb ∈ mailboxes, mb.enabled = true ∧ domainNameOf domains mb.domainId ≠ [] ∧
      address = mb.addressIn (domainNameOf domains mb.domainId) := by
  obtain ⟨entry, hEntry, rfl⟩ := List.mem_map.mp h
  obtain ⟨mb, hMem, hEnabled, hName, rfl⟩ := mem_passwdEntries.mp hEntry
  exact ⟨mb, hMem, hEnabled, hName, rfl⟩

theorem passwd_of_enabled {mb : Mailbox} (hMem : mb ∈ mailboxes) (hEnabled : mb.enabled = true)
    (hName : domainNameOf domains mb.domainId ≠ []) :
    mb.addressIn (domainNameOf domains mb.domainId) ∈ (passwdEntries domains mailboxes).map MapEntry.address :=
  List.mem_map.mpr ⟨_, mem_passwdEntries.mpr ⟨mb, hMem, hEnabled, hName, rfl⟩, rfl⟩

theorem virtual_of_named {mb : Mailbox} (hMem : mb ∈ mailboxes) (hName : domainNameOf domains mb.domainId ≠ []) :
    mb.addressIn (domainNameOf domains mb.domainId) ∈ (virtualMailboxEntries domains mailboxes).map MapEntry.address :=
  List.mem_map.mpr ⟨_, mem_virtualMailboxEntries.mpr ⟨mb, hMem, hName, rfl⟩, rfl⟩

/-- The lines of a split domain that is relayed. -/
theorem transported_of_split {mb : Mailbox} {d : MailDomain} (hMem : mb ∈ mailboxes) (hEnabled : mb.enabled = true)
    (hDomain : d ∈ domains) (hId : d.id = mb.domainId) (hOn : d.enabled = true) (hMode : d.mode = .splitM365)
    (hRelay : d.relayHost ≠ []) : ⟨mb.addressIn d.domainName, lmtpTarget⟩ ∈ transportEntries domains mailboxes := by
  refine List.mem_flatMap.mpr ⟨d, hDomain, ?_⟩
  rw [transportLines, hOn, hMode]
  dsimp only
  rw [if_neg (by decide), if_neg hRelay]
  refine List.mem_append_left _ (List.mem_map.mpr ⟨mb, List.mem_filter.mpr ⟨hMem, ?_⟩, rfl⟩)
  rw [hEnabled, Bool.and_true]
  exact decide_eq_true hId.symm

/-! ## The maps together -/

theorem mapsByDesign (domains : List MailDomain) (mailboxes : List Mailbox) : MapsByDesign domains mailboxes where
  known := by
    intro address h
    obtain ⟨mb, hMem, hEnabled, hName, rfl⟩ := address_of_passwd h
    exact ⟨virtual_of_named hMem hName, mb, hMem, hEnabled, rfl⟩
  served := by
    rintro mb d ⟨hMem, hEnabled, hDomain, -, -⟩ hName
    have hNameOf : domainNameOf domains mb.domainId = d.domainName := by
      rw [domainNameOf, hDomain]
      rfl
    rw [← hNameOf] at hName ⊢
    exact ⟨passwd_of_enabled hMem hEnabled hName, virtual_of_named hMem hName⟩
  both := by
    intro name
    rw [mem_relayDomains, mem_virtualMailboxDomains]
    constructor
    · rintro ⟨⟨d, hMem, hEnabled, hRelayed, hName⟩, d', hMem', hEnabled', hLocal, hName'⟩
      rcases hRelayed with hRelayed | hSplit
      · rcases hLocal with hLocal | hSplit
        · exact .inr ⟨⟨d, hMem, hEnabled, hRelayed, hName⟩, d', hMem', hEnabled', hLocal, hName'⟩
        · exact .inl ⟨d', hMem', hEnabled', hSplit, hName'⟩
      · exact .inl ⟨d, hMem, hEnabled, hSplit, hName⟩
    · rintro (⟨d, hMem, hEnabled, hSplit, hName⟩ | ⟨⟨d, hMem, hEnabled, hRelayed, hName⟩, d', hMem', hEnabled', hLocal, hName'⟩)
      · exact ⟨⟨d, hMem, hEnabled, .inr hSplit, hName⟩, d, hMem, hEnabled, .inr hSplit, hName⟩
      · exact ⟨⟨d, hMem, hEnabled, .inl hRelayed, hName⟩, d', hMem', hEnabled', .inl hLocal, hName'⟩
  transported := fun _ hMem hEnabled _ hDomain hId hOn hMode hRelay =>
    transported_of_split hMem hEnabled hDomain hId hOn hMode hRelay

/-- A domain that is split with a relay host. -/
def splitDomain : MailDomain :=
  { id := 1, domainName := bytes "a.pl", mode := .splitM365, relayHost := bytes "a-pl.mail.protection.outlook.com" }

/-- A mailbox of it that is enabled, one that is not, and one of a local domain. -/
def sampleMailboxes : List Mailbox :=
  [⟨1, bytes "on", bytes "hash", true⟩, ⟨1, bytes "off", bytes "hash", false⟩, ⟨2, bytes "info", bytes "hash", true⟩]

def sampleDomains : List MailDomain := [splitDomain, { id := 2, domainName := bytes "b.pl", mode := .localPrimary }]

end ContainerCP.Mail
