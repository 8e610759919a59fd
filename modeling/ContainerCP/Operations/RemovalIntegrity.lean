import ContainerCP.Operations.SiteRemove
import Mathlib.Data.List.Count

/-! Which records the removal of a site leaves. -/
namespace ContainerCP.Operations

/-! ## Erasure by keys -/

section Erasure

variable {Record Key : Type} [DecidableEq Key] {key : Record → Key}

/-- For each key the first record with it goes. -/
def eraseKeys (key : Record → Key) (records : List Record) (keys : List Key) : List Record :=
  keys.foldl (fun records k => records.eraseP fun record => key record = k) records

theorem countP_eraseP_self (k : Key) (records : List Record) :
    (records.eraseP fun record => key record = k).countP (fun record => key record = k) =
      records.countP (fun record => key record = k) - 1 := by
  induction records with
  | nil => rfl
  | cons record rest ih =>
      by_cases hKey : key record = k
      · rw [List.eraseP_cons_of_pos (by simpa using hKey), List.countP_cons_of_pos (by simpa using hKey), Nat.add_sub_cancel]
      · rw [List.eraseP_cons_of_neg (by simpa using hKey), List.countP_cons_of_neg (by simpa using hKey),
          List.countP_cons_of_neg (by simpa using hKey), ih]

theorem filter_eraseP {test keep : Record → Bool} (h : ∀ record, test record = true → keep record = false)
    (records : List Record) : (records.eraseP test).filter keep = records.filter keep := by
  induction records with
  | nil => rfl
  | cons record rest ih =>
      by_cases hTest : test record = true
      · rw [List.eraseP_cons_of_pos hTest, List.filter_cons_of_neg (by simp [h record hTest])]
      · rw [List.eraseP_cons_of_neg hTest, List.filter_cons, List.filter_cons, ih]

theorem countP_eraseKeys (k : Key) (records : List Record) (keys : List Key) :
    (eraseKeys key records keys).countP (fun record => key record = k) =
      records.countP (fun record => key record = k) - keys.countP (fun other => other = k) := by
  induction keys generalizing records with
  | nil => rfl
  | cons first keys ih =>
      rw [eraseKeys, List.foldl_cons]
      change (eraseKeys key (records.eraseP fun record => key record = first) keys).countP _ = _
      rw [ih]
      by_cases hKey : first = k
      · subst hKey
        rw [countP_eraseP_self, List.countP_cons_of_pos (by simp)]
        omega
      · rw [List.countP_cons_of_neg (by simpa using hKey), List.countP_eq_length_filter,
          List.countP_eq_length_filter (l := records), filter_eraseP]
        intro record hFirst
        rw [decide_eq_true_eq] at hFirst
        rw [decide_eq_false_iff_not, hFirst]
        exact hKey

/-- Records with other keys stay. -/
theorem filter_eraseKeys (records : List Record) (keys : List Key) :
    (eraseKeys key records keys).filter (fun record => key record ∉ keys) =
      records.filter fun record => key record ∉ keys := by
  have hMore : ∀ done : List Key, (∀ k ∈ done, k ∈ keys) → (eraseKeys key records done).filter (fun record => key record ∉ keys) =
      records.filter fun record => key record ∉ keys := by
    intro done hDone
    induction done using List.reverseRecOn with
    | nil => rfl
    | append_singleton done k ih =>
        rw [List.forall_mem_append, List.forall_mem_singleton] at hDone
        rw [eraseKeys, List.foldl_append, List.foldl_cons, List.foldl_nil, filter_eraseP]
        · exact ih hDone.1
        · intro record hKey
          rw [decide_eq_true_eq] at hKey
          rw [decide_eq_false_iff_not, not_not, hKey]
          exact hDone.2
  exact hMore keys fun _ hMem => hMem

/-- The erasure takes all records that refer to something, where these are the ones with the
keys, and each key comes as often as there are records with it. -/
theorem eraseKeys_eq_filter_iff (records : List Record) {keys : List Key} {refers : Record → Bool}
    (h : ∀ record, key record ∈ keys → refers record = true) :
    (eraseKeys key records keys = records.filter fun record => !refers record) ↔
      (∀ record ∈ records, refers record = true → key record ∈ keys) ∧
        ∀ k ∈ keys, records.countP (fun record => key record = k) ≤ keys.countP (fun other => other = k) := by
  constructor
  · intro hEq
    constructor
    · intro record hMem hRefers
      by_contra hKey
      have hKept : record ∈ (eraseKeys key records keys).filter fun record => key record ∉ keys := by
        rw [filter_eraseKeys, List.mem_filter, decide_eq_true_eq]
        exact ⟨hMem, hKey⟩
      have hLeft := List.mem_of_mem_filter hKept
      rw [hEq, List.mem_filter, hRefers] at hLeft
      exact absurd hLeft.2 (by decide)
    · intro k hKey
      have hNone : (eraseKeys key records keys).countP (fun record => key record = k) = 0 := by
        rw [List.countP_eq_zero, hEq]
        intro record hMem hRecord
        rw [decide_eq_true_eq] at hRecord
        rw [List.mem_filter, h record (hRecord ▸ hKey)] at hMem
        exact absurd hMem.2 (by decide)
      rw [countP_eraseKeys] at hNone
      omega
  · rintro ⟨hRefers, hCount⟩
    have hFilter : (records.filter fun record => !refers record) = records.filter fun record => key record ∉ keys := by
      apply List.filter_congr
      intro record hMem
      by_cases hKey : key record ∈ keys
      · simp [hKey, h record hKey]
      · have hNot : refers record ≠ true := fun hTrue => hKey (hRefers record hMem hTrue)
        simp [hKey, hNot]
    rw [hFilter, ← filter_eraseKeys, eq_comm, List.filter_eq_self]
    intro record hMem
    rw [decide_eq_true_eq]
    intro hKey
    have hNone : (eraseKeys key records keys).countP (fun other => key other = key record) =
        records.countP (fun other => key other = key record) - keys.countP (fun other => other = key record) :=
      countP_eraseKeys (key record) records keys
    rw [Nat.sub_eq_zero_of_le (hCount _ hKey), List.countP_eq_zero] at hNone
    exact hNone record hMem (by simp)

end Erasure

/-! ## Databases -/

section Databases

variable {databases : Registry Database Database.id} {stale : Nat → Database} {siteId : Nat}

/-- One read of the loop, and what follows from it. -/
def readDatabase (stale : Nat → Database) (siteId : Nat) (databases : Registry Database Database.id) (i : Nat) :
    Registry Database Database.id :=
  let database := (databases.records[i]?).getD (stale i)
  if database.siteId = siteId then databases.remove database.id else databases

theorem removeDatabases_eq (stale : Nat → Database) (siteId : Nat) (databases : Registry Database Database.id) :
    removeDatabases stale siteId databases =
      (List.range databases.records.length).foldl (readDatabase stale siteId) databases := rfl

/-- As long as no database of the site is read, the list is as it was. -/
theorem foldl_readDatabase_of_not {k : Nat} (h : ∀ database ∈ databases.records.take k, database.siteId ≠ siteId)
    (hLength : k ≤ databases.records.length) : (List.range k).foldl (readDatabase stale siteId) databases = databases := by
  induction k with
  | zero => rfl
  | succ k ih =>
      have hMem : databases.records[k] ∈ databases.records.take (k + 1) := by
        rw [List.take_succ_eq_append_getElem hLength]
        exact List.mem_append_right _ (List.mem_singleton_self _)
      rw [List.range_succ, List.foldl_append, ih _ (Nat.le_of_succ_le hLength), List.foldl_cons, List.foldl_nil, readDatabase,
        List.getElem?_eq_getElem hLength, Option.getD_some, if_neg (h _ hMem)]
      intro database hTake
      exact h database (List.take_subset_take_left _ (Nat.le_succ k) hTake)

/-- A removal shortens the list. -/
theorem length_remove_lt {database : Database} (h : database ∈ databases.records) :
    (databases.remove database.id).records.length < databases.records.length := by
  rw [Registry.records_remove]
  refine List.length_filter_lt_length_iff_exists.mpr ⟨database, h, ?_⟩
  simp

theorem length_readDatabase_le (i : Nat) :
    (readDatabase stale siteId databases i).records.length ≤ databases.records.length := by
  rw [readDatabase]
  split
  · rw [Registry.records_remove]
    exact List.length_filter_le _ _
  · exact le_refl _

theorem length_foldl_readDatabase_le (reads : List Nat) :
    (reads.foldl (readDatabase stale siteId) databases).records.length ≤ databases.records.length := by
  induction reads using List.reverseRecOn with
  | nil => exact le_refl _
  | append_singleton reads i ih =>
      rw [List.foldl_append, List.foldl_cons, List.foldl_nil]
      exact le_trans (length_readDatabase_le i) ih

/-- Where the list is as long as it was, no database of the site was read. -/
theorem not_of_length_foldl_readDatabase {k : Nat} (hLength : k ≤ databases.records.length)
    (h : ((List.range k).foldl (readDatabase stale siteId) databases).records.length = databases.records.length) :
    ∀ database ∈ databases.records.take k, database.siteId ≠ siteId := by
  induction k with
  | zero => simp
  | succ k ih =>
      rw [List.range_succ, List.foldl_append, List.foldl_cons, List.foldl_nil] at h
      have hBefore : ((List.range k).foldl (readDatabase stale siteId) databases).records.length =
          databases.records.length :=
        le_antisymm (length_foldl_readDatabase_le _) (h ▸ length_readDatabase_le k)
      have hTake := ih (Nat.le_of_succ_le hLength) hBefore
      rw [foldl_readDatabase_of_not hTake (Nat.le_of_succ_le hLength), readDatabase, List.getElem?_eq_getElem hLength,
        Option.getD_some] at h
      rw [List.take_succ_eq_append_getElem hLength, List.forall_mem_append, List.forall_mem_singleton]
      refine ⟨hTake, fun hSite => ?_⟩
      rw [if_pos hSite] at h
      exact absurd h (Nat.ne_of_lt (length_remove_lt (List.getElem_mem hLength)))

/-- Reads behind the first database do not reach it, where reads behind the end find
nothing of the site. -/
theorem head?_foldl_readDatabase {first : Database} (hFirst : databases.records.head? = some first)
    (hStale : ∀ i, (stale i).siteId ≠ siteId) {reads : List Nat} (hReads : ∀ i ∈ reads, 0 < i) :
    (reads.foldl (readDatabase stale siteId) databases).records.head? = some first := by
  induction reads using List.reverseRecOn with
  | nil => exact hFirst
  | append_singleton reads i ih =>
      rw [List.forall_mem_append, List.forall_mem_singleton] at hReads
      have hBefore := ih hReads.1
      rw [List.foldl_append, List.foldl_cons, List.foldl_nil]
      generalize reads.foldl (readDatabase stale siteId) databases = before at hBefore
      rw [readDatabase]
      cases hRead : before.records[i]? with
      | none =>
          rw [Option.getD_none, if_neg (hStale i)]
          exact hBefore
      | some database =>
          rw [Option.getD_some]
          split
          · obtain ⟨rest, hRecords⟩ := List.head?_eq_some_iff.mp hBefore
            have hNe : first.id ≠ database.id := by
              obtain ⟨j, rfl⟩ := Nat.exists_eq_succ_of_ne_zero (Nat.ne_of_gt hReads.2)
              rw [hRecords, List.getElem?_cons_succ] at hRead
              have hNodup := before.nodup
              rw [hRecords, List.map_cons, List.nodup_cons] at hNodup
              intro hEq
              exact hNodup.1 (hEq ▸ List.mem_map_of_mem (List.mem_of_getElem? hRead))
            rw [Registry.records_remove, hRecords, List.filter_cons_of_pos (by simpa using hNe)]
            rfl
          · exact hBefore

/-- The loop takes all databases of the site, and no other, if there is at most one of them
and it is the last of all. Behind each other removal it reads behind the end. -/
theorem removeDatabases_iff (siteId : Nat) (databases : Registry Database Database.id) :
    (∀ stale, (removeDatabases stale siteId databases).records =
        databases.records.filter fun database => !decide (database.siteId = siteId)) ↔
      ∀ database ∈ databases.records.dropLast, database.siteId ≠ siteId := by
  constructor
  · intro hAll database hMem hSite
    have hNe : databases.records ≠ [] := by
      intro hNil
      rw [hNil] at hMem
      cases hMem
    obtain ⟨m, hLength⟩ := Nat.exists_eq_succ_of_ne_zero (fun hZero => hNe (List.length_eq_zero_iff.mp hZero))
    rw [List.dropLast_eq_take, hLength, Nat.succ_sub_one] at hMem
    by_cases hOther : ∃ other ∈ databases.records, other.siteId ≠ siteId
    · -- The last read finds the record of another site, under the id of this one.
      obtain ⟨other, hRecord, hOther⟩ := hOther
      obtain ⟨stale, hStale⟩ : ∃ stale : Nat → Database, ∀ i, (stale i).siteId = siteId ∧ (stale i).id = other.id :=
        ⟨fun _ => { other with siteId := siteId }, fun _ => ⟨rfl, rfl⟩⟩
      have hLeft : other ∈ (removeDatabases stale siteId databases).records := by
        rw [hAll stale, List.mem_filter]
        exact ⟨hRecord, by simpa using hOther⟩
      rw [removeDatabases_eq, hLength, List.range_succ, List.foldl_append, List.foldl_cons, List.foldl_nil] at hLeft
      have hShort : ((List.range m).foldl (readDatabase stale siteId) databases).records.length ≤ m := by
        have hLe : ((List.range m).foldl (readDatabase stale siteId) databases).records.length ≤ databases.records.length :=
          length_foldl_readDatabase_le _
        have hNot : ((List.range m).foldl (readDatabase stale siteId) databases).records.length ≠
            databases.records.length :=
          fun hSame => not_of_length_foldl_readDatabase (by omega) hSame database hMem hSite
        omega
      rw [readDatabase, List.getElem?_eq_none hShort, Option.getD_none, if_pos (hStale m).1, Registry.mem_remove] at hLeft
      exact hLeft.2 (hStale m).2.symm
    · -- Only the site has databases, and the second one is skipped.
      have hSites : ∀ other ∈ databases.records, other.siteId = siteId := by simpa using hOther
      obtain ⟨stale, hStale⟩ : ∃ stale : Nat → Database, ∀ i, (stale i).siteId ≠ siteId :=
        ⟨fun _ => { database with siteId := siteId + 1 }, fun _ => Nat.succ_ne_self siteId⟩
      have hNone : (databases.records.filter fun database => !decide (database.siteId = siteId)) = [] := by
        rw [List.filter_eq_nil_iff]
        intro other hRecord
        simp [hSites other hRecord]
      obtain ⟨first, rest, hRecords⟩ := List.exists_cons_of_ne_nil hNe
      have hRest : rest ≠ [] := by
        rintro rfl
        rw [hRecords] at hLength
        obtain rfl : m = 0 := (Nat.succ.inj hLength).symm
        cases hMem
      obtain ⟨second, behind, rfl⟩ := List.exists_cons_of_ne_nil hRest
      have hEq := hAll stale
      rw [hNone, removeDatabases_eq, hLength, List.range_succ_eq_map, List.foldl_cons] at hEq
      have hHead : (readDatabase stale siteId databases 0).records.head? = some second := by
        have hFirst : first.siteId = siteId := hSites first (hRecords ▸ List.mem_cons_self ..)
        have hRead : databases.records[0]? = some first := by rw [hRecords, List.getElem?_cons_zero]
        rw [readDatabase, hRead, Option.getD_some, if_pos hFirst]
        change (databases.records.eraseP fun record => record.id = first.id).head? = some second
        rw [hRecords, List.eraseP_cons_of_pos (by simp), List.head?_cons]
      have hReads : ∀ i ∈ (List.range m).map Nat.succ, 0 < i := by simp
      have hLast := head?_foldl_readDatabase hHead hStale hReads
      rw [hEq] at hLast
      cases hLast
  · intro hFront stale
    by_cases hNil : databases.records = []
    · rw [removeDatabases_eq, hNil, List.length_nil, List.range_zero, List.foldl_nil, hNil, List.filter_nil]
    · obtain ⟨front, last, hRecords⟩ : ∃ front last, databases.records = front ++ [last] :=
        ⟨_, _, (List.dropLast_append_getLast hNil).symm⟩
      rw [hRecords, List.dropLast_concat] at hFront
      have hTake : ∀ database ∈ databases.records.take front.length, database.siteId ≠ siteId := by
        rw [hRecords, List.take_left]
        exact hFront
      have hLength : databases.records.length = front.length + 1 := by
        rw [hRecords, List.length_append, List.length_singleton]
      have hRead : databases.records[front.length]? = some last := by
        rw [hRecords, List.getElem?_append_right (le_refl _), Nat.sub_self, List.getElem?_cons_zero]
      rw [removeDatabases_eq, hLength, List.range_succ, List.foldl_append, foldl_readDatabase_of_not hTake (by omega),
        List.foldl_cons, List.foldl_nil, readDatabase, hRead, Option.getD_some]
      split
      · next hSite =>
        have hNodup := databases.nodup
        rw [hRecords, List.map_append, List.nodup_append'] at hNodup
        rw [Registry.records_remove]
        apply List.filter_congr
        rw [hRecords, List.forall_mem_append, List.forall_mem_singleton]
        refine ⟨fun database hMem => ?_, by simp [hSite]⟩
        have hId : database.id ≠ last.id := fun hEq =>
          List.disjoint_left.mp hNodup.2.2 (List.mem_map_of_mem hMem) (by simp [hEq])
        simp [hId, hFront database hMem]
      · next hSite =>
        refine (List.filter_eq_self.mpr ?_).symm
        rw [hRecords, List.forall_mem_append, List.forall_mem_singleton]
        exact ⟨fun database hMem => by simpa using hFront database hMem, by simpa using hSite⟩

end Databases

/-! ## Domains -/

/-- The removal of domains takes for each of them the first certificate and the first mail
domain of its name. -/
theorem foldl_removeDomain (managers : Managers) {domains : List Domain}
    (hMem : ∀ domain ∈ domains, domain ∈ managers.domains.records) (hNodup : (domains.map Domain.id).Nodup) :
    let after := (domains.map Domain.id).foldl removeDomain managers
    after.ssl.records = eraseKeys SslCertificate.domain managers.ssl.records (domains.map Domain.fqdn) ∧
      after.mail.records = eraseKeys MailDomain.domainName managers.mail.records (domains.map Domain.fqdn) ∧
      after.domains.records = managers.domains.records.filter (fun domain => domain.id ∉ domains.map Domain.id) ∧
      after.sites = managers.sites ∧ after.databases = managers.databases ∧ after.proxies = managers.proxies := by
  induction domains generalizing managers with
  | nil => exact ⟨rfl, rfl, (List.filter_eq_self.mpr (by simp)).symm, rfl, rfl, rfl⟩
  | cons domain domains ih =>
      rw [List.map_cons, List.nodup_cons] at hNodup
      obtain ⟨hFirst, hRest⟩ := List.forall_mem_cons.mp hMem
      have hFind : (managers.domains.find fun other => other.id = domain.id) = some domain := Registry.find_id hFirst
      have hStep : removeDomain managers domain.id =
          { managers with
            ssl := removeFound managers.ssl fun certificate => certificate.domain = domain.fqdn
            mail := removeFound managers.mail fun mailDomain => mailDomain.domainName = domain.fqdn
            domains := managers.domains.remove domain.id } := by
        rw [removeDomain, hFind]
      have hLeft : ∀ other ∈ domains, other ∈ (removeDomain managers domain.id).domains.records := by
        intro other hOther
        rw [hStep, Registry.mem_remove]
        exact ⟨hRest other hOther, fun hEq => hNodup.1 (hEq ▸ List.mem_map_of_mem hOther)⟩
      obtain ⟨hSsl, hMail, hDomains, hSame⟩ := ih _ hLeft hNodup.2
      rw [List.map_cons, List.foldl_cons]
      refine ⟨?_, ?_, ?_, ?_⟩
      · rw [hSsl, hStep, records_removeFound]
        rfl
      · rw [hMail, hStep, records_removeFound]
        rfl
      · rw [hDomains, hStep, Registry.records_remove, List.filter_filter]
        apply List.filter_congr
        intro other _
        by_cases hId : other.id = domain.id
        · simp [hId]
        · simp [hId]
      · rw [hStep] at hSame ⊢
        exact hSame

/-! ## References -/

/-- The domain records of a site. -/
def ownDomains (managers : Managers) (site : Site) : List Domain :=
  managers.domains.records.filter fun domain => domain.siteId = site.id

/-- The names of a site: its own domain, and those of its domain records. -/
def ownNames (managers : Managers) (site : Site) : List Bytes := site.domain :: (ownDomains managers site).map Domain.fqdn

def proxyRefers (managers : Managers) (site : Site) (proxy : ReverseProxy) : Bool :=
  proxy.siteId = site.id || proxy.domain ∈ ownNames managers site

def sslRefers (managers : Managers) (site : Site) (certificate : SslCertificate) : Bool :=
  certificate.domainId ∈ (ownDomains managers site).map Domain.id || certificate.domain ∈ ownNames managers site

def mailRefers (managers : Managers) (site : Site) (mailDomain : MailDomain) : Bool :=
  mailDomain.siteId = site.id || mailDomain.domainId ∈ (ownDomains managers site).map Domain.id ||
    mailDomain.domainName ∈ ownNames managers site

/-- No record refers to the site or to its domains any more, and all others are as they
were. -/
structure Purged (site : Site) (before after : Managers) : Prop where
  sites : after.sites.records = before.sites.records.filter fun other => !decide (other.id = site.id)
  domains : after.domains.records = before.domains.records.filter fun domain => !decide (domain.siteId = site.id)
  databases : after.databases.records = before.databases.records.filter fun database => !decide (database.siteId = site.id)
  proxies : after.proxies.records = before.proxies.records.filter fun proxy => !proxyRefers before site proxy
  ssl : after.ssl.records = before.ssl.records.filter fun certificate => !sslRefers before site certificate
  mail : after.mail.records = before.mail.records.filter fun mailDomain => !mailRefers before site mailDomain

/-- The managers whose records the removal of a site deals with as it should. -/
structure Removable (site : Site) (managers : Managers) : Prop where
  databases : ∀ database ∈ managers.databases.records.dropLast, database.siteId ≠ site.id
  proxies : ∀ proxy ∈ managers.proxies.records, proxyRefers managers site proxy = true → proxy.domain = site.domain
  proxy : managers.proxies.records.countP (fun proxy => proxy.domain = site.domain) ≤ 1
  ssl : ∀ certificate ∈ managers.ssl.records, sslRefers managers site certificate = true →
    certificate.domain ∈ (ownDomains managers site).map Domain.fqdn
  certificate : ∀ name ∈ (ownDomains managers site).map Domain.fqdn,
    managers.ssl.records.countP (fun certificate => certificate.domain = name) ≤
      ((ownDomains managers site).map Domain.fqdn).countP (fun other => other = name)
  mail : ∀ mailDomain ∈ managers.mail.records, mailRefers managers site mailDomain = true →
    mailDomain.domainName ∈ (ownDomains managers site).map Domain.fqdn
  mailDomain : ∀ name ∈ (ownDomains managers site).map Domain.fqdn,
    managers.mail.records.countP (fun mailDomain => mailDomain.domainName = name) ≤
      ((ownDomains managers site).map Domain.fqdn).countP (fun other => other = name)

/-- The domain records of a site go by their ids. -/
theorem filter_ownDomains (managers : Managers) (site : Site) :
    managers.domains.records.filter (fun domain => domain.id ∉ (ownDomains managers site).map Domain.id) =
      managers.domains.records.filter fun domain => !decide (domain.siteId = site.id) := by
  apply List.filter_congr
  intro domain hMem
  have hIff : domain.id ∈ (ownDomains managers site).map Domain.id ↔ domain.siteId = site.id := by
    rw [List.mem_map]
    constructor
    · rintro ⟨other, hOther, hId⟩
      rw [ownDomains, List.mem_filter, decide_eq_true_eq] at hOther
      rw [← Registry.eq_of_id_eq hOther.1 hMem hId]
      exact hOther.2
    · intro hSite
      exact ⟨domain, List.mem_filter.mpr ⟨hMem, by simpa using hSite⟩, rfl⟩
  simp only [hIff, decide_not]

/-- The removal of the records. -/
theorem removeRecords_records (stale : Nat → Database) (site : Site) (managers : Managers) :
    let after := removeRecords stale site site.domain managers
    after.sites.records = managers.sites.records.filter (fun other => other.id ≠ site.id) ∧
      after.domains.records = managers.domains.records.filter (fun domain => !decide (domain.siteId = site.id)) ∧
      after.databases = removeDatabases stale site.id managers.databases ∧
      after.proxies.records = eraseKeys ReverseProxy.domain managers.proxies.records [site.domain] ∧
      after.ssl.records = eraseKeys SslCertificate.domain managers.ssl.records ((ownDomains managers site).map Domain.fqdn) ∧
      after.mail.records = eraseKeys MailDomain.domainName managers.mail.records ((ownDomains managers site).map Domain.fqdn) := by
  have hOwn : ∀ domain ∈ ownDomains managers site, domain ∈ managers.domains.records :=
    fun domain hMem => List.mem_of_mem_filter hMem
  have hNodup : ((ownDomains managers site).map Domain.id).Nodup := managers.domains.nodup.sublist (List.filter_sublist.map _)
  obtain ⟨hSsl, hMail, hDomains, hSites, hDatabases, hProxies⟩ := foldl_removeDomain
    { managers with proxies := removeFound managers.proxies fun proxy => proxy.domain = site.domain } hOwn hNodup
  refine ⟨?_, ?_, ?_, ?_, hSsl, hMail⟩
  · exact (congrArg (fun sites : Registry Site Site.id => (sites.remove site.id).records) hSites).trans
      (Registry.records_remove managers.sites site.id)
  · exact hDomains.trans (filter_ownDomains managers site)
  · exact congrArg (removeDatabases stale site.id) hDatabases
  · exact (congrArg Registry.records hProxies).trans (records_removeFound managers.proxies _)

/-- The records that are left are the ones they should be, whatever the loop over the
databases finds behind the end of its list, exactly where the managers allow it. -/
theorem removeRecords_purges_iff (site : Site) (managers : Managers) :
    (∀ stale, Purged site managers (removeRecords stale site site.domain managers)) ↔ Removable site managers := by
  have hProxyKey : ∀ proxy : ReverseProxy, proxy.domain ∈ [site.domain] → proxyRefers managers site proxy = true := by
    intro proxy hKey
    rw [List.mem_singleton] at hKey
    simp [proxyRefers, ownNames, hKey]
  have hSslKey : ∀ certificate : SslCertificate, certificate.domain ∈ (ownDomains managers site).map Domain.fqdn →
      sslRefers managers site certificate = true := by
    intro certificate hKey
    have hName : certificate.domain ∈ ownNames managers site := List.mem_cons_of_mem _ hKey
    simp [sslRefers, hName]
  have hMailKey : ∀ mailDomain : MailDomain, mailDomain.domainName ∈ (ownDomains managers site).map Domain.fqdn →
      mailRefers managers site mailDomain = true := by
    intro mailDomain hKey
    have hName : mailDomain.domainName ∈ ownNames managers site := List.mem_cons_of_mem _ hKey
    simp [mailRefers, hName]
  have hProxies := eraseKeys_eq_filter_iff managers.proxies.records hProxyKey
  have hSsl := eraseKeys_eq_filter_iff managers.ssl.records hSslKey
  have hMail := eraseKeys_eq_filter_iff managers.mail.records hMailKey
  rw [List.forall_mem_singleton, List.countP_singleton, if_pos (by simp)] at hProxies
  simp only [List.mem_singleton] at hProxies
  constructor
  · intro hAll
    have hDatabases : ∀ stale, (removeDatabases stale site.id managers.databases).records =
        managers.databases.records.filter fun database => !decide (database.siteId = site.id) := by
      intro stale
      rw [← (removeRecords_records stale site managers).2.2.1]
      exact (hAll stale).databases
    obtain ⟨-, -, -, hProxyRecords, hSslRecords, hMailRecords⟩ :=
      removeRecords_records (fun _ => ⟨0, [], [], [], 0, 0⟩) site managers
    have hPurged := hAll fun _ => ⟨0, [], [], [], 0, 0⟩
    obtain ⟨hProxy, hProxyCount⟩ := hProxies.mp (hProxyRecords.symm.trans hPurged.proxies)
    obtain ⟨hCertificate, hCertificateCount⟩ := hSsl.mp (hSslRecords.symm.trans hPurged.ssl)
    obtain ⟨hMailDomain, hMailCount⟩ := hMail.mp (hMailRecords.symm.trans hPurged.mail)
    exact ⟨(removeDatabases_iff site.id managers.databases).mp hDatabases, hProxy, hProxyCount, hCertificate,
      hCertificateCount, hMailDomain, hMailCount⟩
  · intro h stale
    obtain ⟨hSites, hDomains, hDatabases, hProxyRecords, hSslRecords, hMailRecords⟩ :=
      removeRecords_records stale site managers
    refine ⟨?_, hDomains, ?_, ?_, ?_, ?_⟩
    · rw [hSites]
      simp only [ne_eq, decide_not]
    · rw [hDatabases]
      exact (removeDatabases_iff site.id managers.databases).mpr h.databases stale
    · exact hProxyRecords.trans (hProxies.mpr ⟨h.proxies, h.proxy⟩)
    · exact hSslRecords.trans (hSsl.mpr ⟨h.ssl, h.certificate⟩)
    · exact hMailRecords.trans (hMail.mpr ⟨h.mail, h.mailDomain⟩)

/-! ## The operation -/

/-- What a removal that succeeds does to the managers; whether it succeeds does not hang on
what the loop over the databases finds. -/
theorem siteRemove_ok {steps : RemoveSteps} {domain message : Bytes} {world world' : World}
    (h : siteRemove steps domain world = (.ok message, world')) :
    ∃ site, (world.managers.sites.find fun site => site.domain = domain) = some site ∧ site.domain = domain ∧
      ∀ stale, (siteRemove { steps with stale := stale } domain world).2.managers =
        removeRecords stale site domain world.managers := by
  rw [siteRemove] at h
  cases hSite : world.managers.sites.find fun site => site.domain = domain with
  | none =>
      rw [hSite] at h
      cases (Prod.mk.inj h).1
  | some site =>
      have hDomain : site.domain = domain := by simpa using List.find?_some hSite
      refine ⟨site, rfl, hDomain, fun stale => ?_⟩
      rw [hSite] at h
      rw [siteRemove, hSite]
      dsimp only at h ⊢
      split at h
      · cases (Prod.mk.inj h).1
      · next hPlan =>
        rw [if_neg hPlan]
        cases hDown : steps.down with
        | error refused =>
            rw [hDown] at h
            cases (Prod.mk.inj h).1
        | ok done =>
            rw [hDown] at h
            dsimp only at h ⊢
            split at h
            · cases (Prod.mk.inj h).1
            · next hVolume => rw [if_neg hVolume]

/-- A removal that succeeds leaves the records that it should, whatever lies behind the end
of the list of databases, exactly where the managers allow it. -/
theorem siteRemove_purges_iff {steps : RemoveSteps} {domain message : Bytes} {world world' : World} {site : Site}
    (hSite : (world.managers.sites.find fun site => site.domain = domain) = some site)
    (h : siteRemove steps domain world = (.ok message, world')) :
    (∀ stale, Purged site world.managers (siteRemove { steps with stale := stale } domain world).2.managers) ↔
      Removable site world.managers := by
  obtain ⟨found, hFound, rfl, hManagers⟩ := siteRemove_ok h
  obtain rfl : site = found := Option.some.inj (hSite.symm.trans hFound)
  simp only [hManagers]
  exact removeRecords_purges_iff site world.managers

section Sample

/-- A site with one database, a proxy, a certificate and a mail domain. -/
def shopSite : Site := ⟨1, bytes "shop.example.org", bytes "alice", 0, bytes "apache", []⟩

def shopDatabase : Database := ⟨1, bytes "shop_db", bytes "shop_user", bytes "secret", 0, 1⟩

section One

variable {Record : Type} (id : Record → Nat) (record : Record)

theorem nodup_one : ([record].map id).Nodup := List.nodup_singleton _

theorem below_two (h : id record = 1) : ∀ other ∈ [record], id other < 2 :=
  List.forall_mem_singleton.mpr (h ▸ Nat.lt_succ_self 1)

end One

def oneRecord {Record : Type} (id : Record → Nat) (record : Record) (h : id record = 1) : Registry Record id where
  records := [record]
  nextId := 2
  nodup := nodup_one id record
  below := below_two id record h
  positive := Nat.two_pos

def shopManagers : Managers where
  sites := oneRecord Site.id shopSite rfl
  domains := oneRecord Domain.id ⟨1, shopSite.domain, 0, 1⟩ rfl
  databases := oneRecord Database.id shopDatabase rfl
  proxies := oneRecord ReverseProxy.id ⟨1, shopSite.domain, 1, [], bytes "site-1-web:80"⟩ rfl
  ssl := oneRecord SslCertificate.id ⟨1, 1, shopSite.domain⟩ rfl
  mail := oneRecord MailDomain.id ⟨1, 1, 1, shopSite.domain⟩ rfl

def bareWorld (managers : Managers) : World := ⟨managers, fun _ => none, fun _ => none, ⟨[], [], []⟩⟩

def bareSteps (stale : Nat → Database) : RemoveSteps := ⟨.ok [], true, Selection.none, stale⟩

theorem siteRemove_purges_iff_sample :
    (∀ stale, Purged shopSite shopManagers
        (siteRemove { bareSteps (fun _ => shopDatabase) with stale := stale } shopSite.domain (bareWorld shopManagers)).2.managers) ↔
      Removable shopSite shopManagers := by
  have hSite : ((bareWorld shopManagers).managers.sites.find fun site => site.domain = shopSite.domain) = some shopSite := by
    rfl
  have hRun : siteRemove (bareSteps fun _ => shopDatabase) shopSite.domain (bareWorld shopManagers) =
      (.ok [], (siteRemove (bareSteps fun _ => shopDatabase) shopSite.domain (bareWorld shopManagers)).2) := by
    rfl
  exact siteRemove_purges_iff hSite hRun

/-- The site has a second database behind its first, in front of that of another site. -/
def threeDatabases : Registry Database Database.id where
  records := [shopDatabase, { shopDatabase with id := 2 }, { shopDatabase with id := 3, siteId := 2 }]
  nextId := 4
  nodup := by decide
  below := by decide
  positive := by decide

/-- The second database of the site is skipped and stays. -/
theorem siteRemove_not_purged :
    ¬∀ (steps : RemoveSteps) (domain message : Bytes) (world world' : World) (site : Site),
      (world.managers.sites.find fun site => site.domain = domain) = some site →
      siteRemove steps domain world = (.ok message, world') → Purged site world.managers world'.managers := by
  intro hAll
  have hPurged := hAll (bareSteps fun _ => { shopDatabase with id := 3, siteId := 2 }) shopSite.domain []
    (bareWorld { shopManagers with databases := threeDatabases }) _ shopSite (by rfl) (by rfl)
  exact absurd hPurged.databases (by decide)

end Sample

end ContainerCP.Operations
