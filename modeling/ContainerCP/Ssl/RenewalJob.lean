import ContainerCP.Ssl.CertificateMetadata
import Mathlib.Logic.Function.Basic

/-! The job of `RenewalScheduler` for one certificate, and what it makes of the metadata that
are stored: its count of failures, and the settings of the site. -/
namespace ContainerCP.Ssl

/-! ## `LetsEncryptProvider::renew` -/

/-- The metadata of the sites. A site that is not there cannot be loaded. -/
abbrev Records := UInt64 → Option Metadata

/-- What is read from a new certificate, its dates as they are printed. -/
structure ParsedCertificate where
  notBefore : Bytes
  notAfter : Bytes
  issuer : Bytes
  subject : Bytes

/-- A certificate that has come from the authority: the time, and the dates that stand for
those that cannot be read. -/
structure Issue where
  now : Bytes
  staging : Bool
  parsed : Option ParsedCertificate
  expiryInstead : Bytes
  renewalInstead : Bytes

/-- The metadata that are stored with a new certificate. -/
def issuedMetadata (siteId : UInt64) (domains : List Bytes) (issue : Issue) : Metadata :=
  let expiry := (issue.parsed.map (·.notAfter)).getD []
  { siteId
    providerId := bytes "letsencrypt"
    status := bytes "active"
    domains
    httpsEnabled := true
    autoRenew := true
    challengeType := bytes "http-01"
    issuedAt := (issue.parsed.map (·.notBefore)).getD issue.now
    expiresAt := if expiry = [] then issue.expiryInstead else expiry
    renewAfter := if expiry = [] then issue.renewalInstead else expiry
    issuer := (issue.parsed.map (·.issuer)).getD []
    subject := (issue.parsed.map (·.subject)).getD []
    environment := if issue.staging then bytes "staging" else bytes "production"
    createdAt := issue.now
    updatedAt := issue.now }

/-- The first site with a domain, and its domains. -/
def siteOf (sites : List UInt64) (records : Records) (domain : Bytes) : Option (UInt64 × List Bytes) :=
  sites.findSome? fun siteId =>
    match records siteId with
    | some metadata => if domain ∈ metadata.domains then some (siteId, metadata.domains) else none
    | none => none

/-- One renewal: the sites as the store lists them, the domain, what the checks before it
say, how the order goes, and the time behind it. -/
structure Renewal where
  sites : List UInt64
  domain : Bytes
  providerFound : Bool := true
  preflight : Option Bytes := none
  order : Except Bytes Issue
  finished : Bytes

/-- `LetsEncryptProvider::renew`: the new records, or the message of the failure. -/
def renew (renewal : Renewal) (records : Records) : Except Bytes Records :=
  let domain := renewal.domain
  match renewal.preflight with
  | some message => .error (domain ++ bytes ": " ++ message)
  | none =>
      match siteOf renewal.sites records domain with
      | none => .error (domain ++ bytes ": No certificate metadata found for renewal")
      | some (siteId, domains) =>
          match renewal.order with
          | .error message => .error (domain ++ bytes ": " ++ message)
          | .ok issue => .ok (Function.update records siteId (some (issuedMetadata siteId domains issue)))

/-! ## The job -/

/-- The update behind a success. -/
def recordSuccess (siteId : UInt64) (now : Bytes) (records : Records) : Records :=
  match records siteId with
  | none => records
  | some metadata =>
      Function.update records siteId
        (some { metadata with renewAttempts := 0, lastError := [], issuedAt := now, updatedAt := now })

/-- The updates behind a failure. The second one, as the first, starts from the metadata that
were loaded before both. -/
def recordFailure (siteId : UInt64) (message : Bytes) (records : Records) : Records :=
  match records siteId with
  | none => records
  | some metadata =>
      let saved := Function.update records siteId
        (some { metadata with renewAttempts := metadata.renewAttempts + 1, lastError := message, lastValidation := [] })
      if 7 ≤ metadata.renewAttempts then
        Function.update saved siteId
          (some { metadata with status := bytes "error", lastError := bytes "Auto-renewal failed after 7 attempts" })
      else saved

/-- The update where the provider is gone. -/
def recordMissingProvider (siteId : UInt64) (records : Records) : Records :=
  match records siteId with
  | none => records
  | some metadata =>
      Function.update records siteId
        (some { metadata with renewAttempts := metadata.renewAttempts + 1, lastError := bytes "Provider not found" })

/-- The job, and whether the renewal succeeded. -/
def runJob (siteId : UInt64) (renewal : Renewal) (records : Records) : Bool × Records :=
  if renewal.providerFound then
    match renew renewal records with
    | .ok renewed => (true, recordSuccess siteId renewal.finished renewed)
    | .error message => (false, recordFailure siteId message records)
  else (false, recordMissingProvider siteId records)

/-! ## A row of jobs -/

/-- The records between two jobs, and the failures since the last success. -/
structure JobState where
  records : Records
  failures : Nat := 0

def JobState.next (siteId : UInt64) (state : JobState) (renewal : Renewal) : JobState where
  records := (runJob siteId renewal state.records).2
  failures := if (runJob siteId renewal state.records).1 then 0 else state.failures + 1

def runJobs (siteId : UInt64) (records : Records) (renewals : List Renewal) : JobState :=
  renewals.foldl (JobState.next siteId) { records }

/-- The stored count is the number of failures since the last success, and the status is that
of an error from the seventh of them on. -/
def Accounted (siteId : UInt64) (state : JobState) : Prop :=
  ∃ metadata, state.records siteId = some metadata ∧ metadata.renewAttempts.toInt = state.failures ∧
    (metadata.status = bytes "error" ↔ 7 ≤ state.failures)

/-- There are records, with the count of the failures, and without an error. -/
def Counted (siteId : UInt64) (state : JobState) : Prop :=
  ∃ metadata, state.records siteId = some metadata ∧ metadata.renewAttempts.toInt = state.failures ∧
    metadata.status ≠ bytes "error"

section Counting

variable {siteId : UInt64} {records : Records} {state : JobState} {renewal : Renewal}

theorem renew_ok {renewed : Records} (h : renew renewal records = .ok renewed) :
    ∃ target domains issue, siteOf renewal.sites records renewal.domain = some (target, domains) ∧
      renewal.order = .ok issue ∧ renewed = Function.update records target (some (issuedMetadata target domains issue)) := by
  rw [renew] at h
  split at h
  · cases h
  · split at h
    · cases h
    · next target domains hSite =>
      split at h
      · cases h
      · next issue hOrder => exact ⟨target, domains, issue, hSite, hOrder, (Except.ok.inj h).symm⟩

/-- What a job that fails below the seventh failure stores. -/
theorem runJob_failure {metadata : Metadata} (hStored : records siteId = some metadata)
    (hFails : (runJob siteId renewal records).1 = false) (hFew : ¬7 ≤ metadata.renewAttempts) :
    ∃ stored, (runJob siteId renewal records).2 siteId = some stored ∧
      stored.renewAttempts = metadata.renewAttempts + 1 ∧ stored.status = metadata.status := by
  rw [runJob] at hFails ⊢
  split
  · next hFound =>
    rw [if_pos hFound] at hFails
    split
    · next hRenewed =>
      rw [hRenewed] at hFails
      cases hFails
    · simp only [recordFailure, hStored, if_neg hFew, Function.update_self]
      exact ⟨_, rfl, rfl, rfl⟩
  · simp only [recordMissingProvider, hStored, Function.update_self]
    exact ⟨_, rfl, rfl, rfl⟩

/-- What a job that succeeds stores: a new certificate of the site itself is active. -/
theorem runJob_success {metadata : Metadata} (hStored : records siteId = some metadata)
    (hSucceeds : (runJob siteId renewal records).1 = true) :
    ∃ stored, (runJob siteId renewal records).2 siteId = some stored ∧ stored.renewAttempts = 0 ∧
      (stored.status = metadata.status ∨ stored.status = bytes "active") := by
  rw [runJob] at hSucceeds ⊢
  split
  · next hFound =>
    rw [if_pos hFound] at hSucceeds
    split
    · next renewed hRenewed =>
      obtain ⟨target, domains, issue, -, -, rfl⟩ := renew_ok hRenewed
      by_cases hSame : siteId = target
      · subst hSame
        simp only [recordSuccess, Function.update_self]
        exact ⟨_, rfl, rfl, .inr rfl⟩
      · have hOther := (Function.update_of_ne hSame (some (issuedMetadata target domains issue)) records).trans hStored
        simp only [recordSuccess, hOther, Function.update_self]
        exact ⟨_, rfl, rfl, .inl rfl⟩
    · next hRenewed =>
      rw [hRenewed] at hSucceeds
      cases hSucceeds
  · next hFound =>
    rw [if_neg hFound] at hSucceeds
    cases hSucceeds

/-- Below the seventh failure a job keeps the count. -/
theorem Counted.next (h : Counted siteId state) (hFew : state.failures < 7) (renewal : Renewal) :
    Counted siteId (state.next siteId renewal) := by
  obtain ⟨metadata, hStored, hAttempts, hStatus⟩ := h
  cases hJob : (runJob siteId renewal state.records).1 with
  | false =>
      have hNot : ¬7 ≤ metadata.renewAttempts := by
        rw [Int32.le_iff_toInt_le, hAttempts, show (7 : Int32).toInt = 7 from rfl]
        omega
      obtain ⟨stored, hAfter, hMore, hSame⟩ := runJob_failure hStored hJob hNot
      refine ⟨stored, hAfter, ?_, hSame ▸ hStatus⟩
      have hNoWrap : ∀ n : Nat, n < 7 → ((n : Int) + 1).bmod (2 ^ 32) = n + 1 := by decide
      rw [hMore, JobState.next, hJob, Int32.toInt_add, hAttempts]
      exact hNoWrap _ hFew
  | true =>
      obtain ⟨stored, hAfter, hZero, hSame⟩ := runJob_success hStored hJob
      refine ⟨stored, hAfter, ?_, ?_⟩
      · rw [hZero, JobState.next, hJob]
        rfl
      · rcases hSame with hSame | hActive
        · exact hSame ▸ hStatus
        · rw [hActive]
          decide

end Counting

section Runs

variable {siteId : UInt64} {records : Records}

theorem runJobs_concat (renewals : List Renewal) (renewal : Renewal) :
    runJobs siteId records (renewals ++ [renewal]) = (runJobs siteId records renewals).next siteId renewal := by
  rw [runJobs, List.foldl_concat]
  rfl

/-- As long as there have not been seven failures in a row, the count is right, also behind
the seventh. -/
theorem counted_runJobs (hStart : Counted siteId { records }) (renewals : List Renewal)
    (hFew : ∀ done, done <+: renewals → done ≠ renewals → (runJobs siteId records done).failures < 7) :
    Counted siteId (runJobs siteId records renewals) := by
  induction renewals using List.reverseRecOn with
  | nil => exact hStart
  | append_singleton renewals renewal ih =>
      have hBefore : ∀ done, done <+: renewals → (runJobs siteId records done).failures < 7 := by
        intro done hDone
        refine hFew done (hDone.trans (List.prefix_append _ _)) ?_
        rintro rfl
        exact absurd hDone.length_le (by simp)
      rw [runJobs_concat]
      exact (ih fun done hDone _ => hBefore done hDone).next (hBefore renewals List.prefix_rfl) renewal

/-- The account is right behind every job if there are never seven failures in a row. -/
theorem accounted_iff {metadata : Metadata} (hStored : records siteId = some metadata) (hAttempts : metadata.renewAttempts = 0)
    (hActive : metadata.status = bytes "active") (renewals : List Renewal) :
    (∀ done, done <+: renewals → Accounted siteId (runJobs siteId records done)) ↔
      ∀ done, done <+: renewals → (runJobs siteId records done).failures < 7 := by
  have hStart : Counted siteId { records } := by
    refine ⟨metadata, hStored, by rw [hAttempts]; rfl, ?_⟩
    rw [hActive]
    decide
  constructor
  · intro hAccounted
    -- The first seventh failure in a row is counted, but the status is not that of an error.
    have hAll : ∀ done, done <+: renewals → ∀ first, first <+: done → (runJobs siteId records first).failures < 7 := by
      intro done
      induction done using List.reverseRecOn with
      | nil =>
          intro _ first hFirst
          rw [List.prefix_nil.mp hFirst]
          exact Nat.succ_pos _
      | append_singleton done renewal ih =>
          intro hDone first hFirst
          have hBefore := ih ((List.prefix_append _ _).trans hDone)
          rcases List.prefix_concat_iff.mp hFirst with rfl | hFirst
          · have hFew := hBefore done List.prefix_rfl
            have hCounted := counted_runJobs hStart (done ++ [renewal]) fun first hFirst hNe =>
              hBefore first ((List.prefix_concat_iff.mp hFirst).resolve_left hNe)
            obtain ⟨stored, hAfter, -, hStatus⟩ := hCounted
            obtain ⟨stored', hAfter', -, hError⟩ := hAccounted _ hDone
            obtain rfl : stored = stored' := Option.some.inj (hAfter.symm.trans hAfter')
            exact Nat.not_le.mp fun hSeven => hStatus (hError.mpr hSeven)
          · exact hBefore first hFirst
    exact fun done hDone => hAll done hDone done List.prefix_rfl
  · intro hFew done hDone
    obtain ⟨stored, hAfter, hCount, hStatus⟩ := counted_runJobs hStart done fun first hFirst _ => hFew first (hFirst.trans hDone)
    have hNot : ¬7 ≤ (runJobs siteId records done).failures := Nat.not_le.mpr (hFew done hDone)
    exact ⟨stored, hAfter, hCount, by simp [hStatus, hNot]⟩

/-- A site that redirects to HTTPS. -/
def shopSite : Metadata where
  siteId := 7
  providerId := bytes "letsencrypt"
  status := bytes "active"
  domains := [bytes "shop.org"]
  httpsEnabled := true
  redirectEnabled := true
  createdAt := bytes "2025-01-01T00:00:00Z"

def shopRecords : Records := Function.update (fun _ => none) 7 (some shopSite)

def shopRenewal (order : Except Bytes Issue) : Renewal where
  sites := [7]
  domain := bytes "shop.org"
  order := order
  finished := bytes "2026-01-01T00:00:05Z"

theorem accounted_iff_shop : Accounted 7 (runJobs 7 shopRecords [shopRenewal (.error (bytes "timeout"))]) := by
  have hStored : shopRecords 7 = some shopSite := Function.update_self ..
  refine (accounted_iff hStored rfl rfl [shopRenewal (.error (bytes "timeout"))]).mpr (fun done hDone => ?_) _ List.prefix_rfl
  rcases List.prefix_concat_iff.mp (show done <+: [] ++ [_] from hDone) with rfl | hNil
  · decide
  · rw [List.prefix_nil.mp hNil]
    decide

/-- Behind the seventh failure the status is the same, and behind the eighth the count is. -/
theorem accounted_seven :
    ¬Accounted 7 (runJobs 7 shopRecords (List.replicate 7 (shopRenewal (.error (bytes "timeout"))))) := by
  rintro ⟨metadata, hStored, -, hStatus⟩
  have hRun : ((runJobs 7 shopRecords (List.replicate 7 (shopRenewal (.error (bytes "timeout"))))).records 7).map (·.status) =
      some (bytes "active") := by
    decide
  rw [hStored] at hRun
  have hActive : metadata.status = bytes "active" := Option.some.inj hRun
  rw [hActive] at hStatus
  exact absurd (hStatus.mpr (by decide)) (by decide)

end Runs

/-! ## What a renewal leaves alone -/

/-- The metadata without what a renewal is for: the data of the certificate, the times and the
account of errors. -/
def Metadata.settings (metadata : Metadata) : Metadata :=
  { metadata with
    issuedAt := [], expiresAt := [], renewAfter := [], lastValidation := [], lastError := [], renewAttempts := 0
    fingerprintSha256 := [], serialNumber := [], issuer := [], subject := [], environment := [], updatedAt := [] }

/-- The settings of every site are the same. -/
def Keeps (before after : Records) : Prop :=
  ∀ siteId metadata, before siteId = some metadata →
    ∃ stored, after siteId = some stored ∧ stored.settings = metadata.settings

/-- The settings that a new certificate is stored with. -/
structure AsIssued (siteId : UInt64) (now : Bytes) (metadata : Metadata) : Prop where
  flags : metadata.httpsEnabled = true ∧ metadata.redirectEnabled = false ∧ metadata.autoRenew = true
  created : metadata.createdAt = now
  identity : metadata.version = 1 ∧ metadata.siteId = siteId ∧ metadata.providerId = bytes "letsencrypt"
  kind : metadata.certificateType = bytes "pem" ∧ metadata.challengeType = bytes "http-01" ∧ metadata.status = bytes "active"

section Settings

variable {siteId target : UInt64} {domains : List Bytes} {issue : Issue} {renewal : Renewal} {records : Records}

theorem settings_issuedMetadata (metadata : Metadata) :
    (issuedMetadata target metadata.domains issue).settings = metadata.settings ↔ AsIssued target issue.now metadata := by
  constructor
  · intro h
    simp only [Metadata.settings, issuedMetadata, Metadata.mk.injEq, true_and, and_true] at h
    obtain ⟨hVersion, hId, hProvider, hType, hStatus, hHttps, hRedirect, hRenew, hChallenge, hCreated⟩ := h
    exact ⟨⟨hHttps.symm, hRedirect.symm, hRenew.symm⟩, hCreated.symm, ⟨hVersion.symm, hId.symm, hProvider.symm⟩,
      hType.symm, hChallenge.symm, hStatus.symm⟩
  · intro h
    obtain ⟨hHttps, hRedirect, hRenew⟩ := h.flags
    obtain ⟨hVersion, hId, hProvider⟩ := h.identity
    obtain ⟨hType, hChallenge, hStatus⟩ := h.kind
    simp only [Metadata.settings, issuedMetadata, hHttps, hRedirect, hRenew, h.created, hVersion, hId, hProvider, hType, hChallenge,
      hStatus]

theorem settings_recordSuccess (now : Bytes) (site : UInt64) :
    (recordSuccess siteId now records site).map Metadata.settings = (records site).map Metadata.settings := by
  rw [recordSuccess]
  cases hStored : records siteId with
  | none => rfl
  | some metadata =>
      by_cases hSame : site = siteId
      · rw [hSame, hStored]
        simp only [Function.update_self]
        rfl
      · simp only [Function.update_of_ne hSame]

/-- A renewal that succeeds keeps the settings of every site if those of the site that it is
stored for are what a new certificate is stored with. -/
theorem renewal_keeps_iff {metadata : Metadata} (hFound : renewal.providerFound = true) (hPreflight : renewal.preflight = none)
    (hSite : siteOf renewal.sites records renewal.domain = some (target, metadata.domains))
    (hStored : records target = some metadata) (hOrder : renewal.order = .ok issue) (siteId : UInt64) :
    Keeps records (runJob siteId renewal records).2 ↔ AsIssued target issue.now metadata := by
  have hJob : (runJob siteId renewal records).2 = recordSuccess siteId renewal.finished
      (Function.update records target (some (issuedMetadata target metadata.domains issue))) := by
    rw [runJob, if_pos hFound, renew, hPreflight]
    simp only [hSite, hOrder]
  have hAfter : ∀ site, ((runJob siteId renewal records).2 site).map Metadata.settings =
      (Function.update records target (some (issuedMetadata target metadata.domains issue)) site).map Metadata.settings := by
    intro site
    rw [hJob, settings_recordSuccess]
  rw [← settings_issuedMetadata]
  constructor
  · intro hKeeps
    obtain ⟨stored, hAfterTarget, hSettings⟩ := hKeeps target metadata hStored
    have hTarget := hAfter target
    rw [hAfterTarget, Function.update_self] at hTarget
    exact (Option.some.inj hTarget).symm.trans hSettings
  · intro hSettings site before hBefore
    have hSame : (Function.update records target (some (issuedMetadata target metadata.domains issue)) site).map Metadata.settings =
        some before.settings := by
      by_cases hSite : site = target
      · subst hSite
        obtain rfl : metadata = before := Option.some.inj (hStored.symm.trans hBefore)
        rw [Function.update_self, Option.map_some, hSettings]
      · rw [Function.update_of_ne hSite, hBefore]
        rfl
    exact Option.map_eq_some_iff.mp ((hAfter site).trans hSame)

/-- A certificate whose dates cannot be read. -/
def newCertificate : Issue where
  now := bytes "2026-01-01T00:00:00Z"
  staging := false
  parsed := none
  expiryInstead := bytes "2026-04-01T00:00:00Z"
  renewalInstead := bytes "2026-03-02T00:00:00Z"

theorem renewal_keeps_iff_shop :
    ¬Keeps shopRecords (runJob 7 (shopRenewal (.ok newCertificate)) shopRecords).2 := by
  have hStored : shopRecords 7 = some shopSite := Function.update_self ..
  have hSite : siteOf [7] shopRecords (bytes "shop.org") = some (7, shopSite.domains) := by decide
  rw [renewal_keeps_iff (show (shopRenewal (.ok newCertificate)).providerFound = true from rfl) rfl hSite hStored rfl]
  exact fun h => absurd h.flags.2.1 (by decide)

/-- The redirect of a site is off behind a renewal, and it is as old as the renewal. -/
theorem renewal_drops_redirect :
    ((runJob 7 (shopRenewal (.ok newCertificate)) shopRecords).2 7).map (fun m => (m.redirectEnabled, m.createdAt)) =
      some (false, newCertificate.now) ∧
    (shopRecords 7).map (fun m => (m.redirectEnabled, m.createdAt)) = some (true, bytes "2025-01-01T00:00:00Z") := by
  decide

end Settings

end ContainerCP.Ssl
