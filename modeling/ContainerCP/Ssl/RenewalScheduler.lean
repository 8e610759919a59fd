import ContainerCP.Ssl.CertificateStore

/-! When a certificate is renewed: the expiry date that `LetsEncryptProvider` stores,
and what `RenewalScheduler::check_now` makes of it. Times are seconds since the
epoch. -/
namespace ContainerCP.Ssl

/-! ## Calendar times -/

/-- A time as `struct tm` has it, with the month and the year counted as people do. -/
structure CalendarTime where
  year : Int
  month : Int
  day : Int
  hour : Int
  minute : Int
  second : Int
  deriving DecidableEq

/-- `timegm`, which also takes a month outside of the year. The year starts in March
for the count of the days. -/
def timegm (time : CalendarTime) : Int :=
  let month := (time.month - 1) % 12 + 1
  let year := time.year + (time.month - 1) / 12 - if month ≤ 2 then 1 else 0
  let dayOfYear := (153 * ((month + 9) % 12) + 2) / 5 + time.day - 1
  let days := year * 365 + year / 4 - year / 100 + year / 400 + dayOfYear - 719468
  days * 86400 + time.hour * 3600 + time.minute * 60 + time.second

example : timegm ⟨1970, 1, 1, 0, 0, 0⟩ = 0 ∧ timegm ⟨2024, 2, 29, 12, 0, 0⟩ = 1709208000 := by decide

/-! ## The date that is stored -/

inductive Month where
  | jan | feb | mar | apr | may | jun | jul | aug | sep | oct | nov | dec
  deriving DecidableEq

def Month.name : Month → Bytes
  | jan => bytes "Jan"
  | feb => bytes "Feb"
  | mar => bytes "Mar"
  | apr => bytes "Apr"
  | may => bytes "May"
  | jun => bytes "Jun"
  | jul => bytes "Jul"
  | aug => bytes "Aug"
  | sep => bytes "Sep"
  | oct => bytes "Oct"
  | nov => bytes "Nov"
  | dec => bytes "Dec"

def Month.number : Month → Int
  | jan => 1
  | feb => 2
  | mar => 3
  | apr => 4
  | may => 5
  | jun => 6
  | jul => 7
  | aug => 8
  | sep => 9
  | oct => 10
  | nov => 11
  | dec => 12

/-- A time of OpenSSL. The fraction, if there is one, starts with its point. -/
structure Asn1Time where
  year : Nat
  month : Month
  day : Nat
  hour : Nat
  minute : Nat
  second : Nat
  fraction : Bytes := []
  gmt : Bool := true
  deriving DecidableEq

def Asn1Time.instant (time : Asn1Time) : Int :=
  timegm ⟨time.year, time.month.number, time.day, time.hour, time.minute, time.second⟩

def padded (fill : UInt8) (width n : Nat) : Bytes :=
  List.replicate (width - (decimal n).length) fill ++ decimal n

/-- `ASN1_TIME_print`. -/
def asn1TimePrint (time : Asn1Time) : Bytes :=
  let two := padded (ascii '0') 2
  time.month.name ++ bytes " " ++ padded (ascii ' ') 2 time.day ++ bytes " " ++ two time.hour ++ bytes ":" ++
    two time.minute ++ bytes ":" ++ two time.second ++ time.fraction ++ bytes " " ++ decimal time.year ++
      if time.gmt then bytes " GMT" else []

/-- The text of `issue` for a date of the certificate, which reads at most 31 bytes of
what was printed. -/
def storedDate (time : Asn1Time) : Bytes := (asn1TimePrint time).take 31

/-! ## The check -/

/-- The conversion `%d`, and the character that has to follow it. -/
def scanInt (text : Bytes) : Option (Int × Bytes) := (scanNumeral text).map fun numeral => (numeral.value, numeral.rest)

def scanIntBefore (separator : Char) (text : Bytes) : Option (Int × Bytes) :=
  match scanInt text with
  | some (value, c :: rest) => if c = ascii separator then some (value, rest) else none
  | _ => none

/-- `sscanf` with `%d-%d-%dT%d:%d:%dZ`, where all six numbers are found. -/
def scanDate (text : Bytes) : Option CalendarTime := do
  let (year, text) ← scanIntBefore '-' text
  let (month, text) ← scanIntBefore '-' text
  let (day, text) ← scanIntBefore 'T' text
  let (hour, text) ← scanIntBefore ':' text
  let (minute, text) ← scanIntBefore ':' text
  let (second, _) ← scanInt text
  return ⟨year, month, day, hour, minute, second⟩

/-- The whole days that are left, cut toward zero. -/
def daysUntilExpiry (expiresAt : Bytes) (now : Int) : Int :=
  match scanDate expiresAt with
  | none => 999
  | some time => (timegm time - now).tdiv 86400

def renewalWindowDays : Int := 30

/-- What `check_now` meets: the time as a number and as a text, what each site's
metadata are, which providers can renew, and whether the queue takes a job. -/
structure CheckEnvironment where
  now : Int
  timestamp : Bytes
  sites : List UInt64
  load : UInt64 → MetadataLoadResult
  supportsAutoRenew : Bytes → Bool
  submits : UInt64 → Bool

/-- The conditions on a site, in their order. -/
def isDue (env : CheckEnvironment) (siteId : UInt64) : Bool :=
  let loaded := env.load siteId
  let metadata := loaded.metadata
  loaded.success && metadata.autoRenew && metadata.status = bytes "active" &&
    env.supportsAutoRenew metadata.providerId && metadata.expiresAt ≠ [] &&
      daysUntilExpiry metadata.expiresAt env.now ≤ renewalWindowDays &&
        (metadata.lastValidation = [] || metadata.lastValidation ≤ env.timestamp)

/-- `check_now`: the sites that it enqueues a renewal for. -/
def checkNow (env : CheckEnvironment) : List UInt64 :=
  env.sites.filter fun siteId => isDue env siteId && env.submits siteId

/-! ## The two formats do not meet -/

theorem scanNumeral_of_letter {c : UInt8} {rest : Bytes} (h : isAlpha c = true) : scanNumeral (c :: rest) = none := by
  have hZero : c ≠ 0 := by
    rintro rfl
    exact absurd h (by decide)
  have hSpace : isSpace c = false := by
    by_contra hIs
    rw [Bool.not_eq_false] at hIs
    simp only [isAlpha, isSpace, Bool.or_eq_true, Bool.and_eq_true, decide_eq_true_eq, beq_iff_eq,
      UInt8.le_iff_toNat_le] at h hIs
    have hUpper : (13 : UInt8).toNat = 13 := rfl
    have hA : (65 : UInt8).toNat = 65 := rfl
    have ha : (97 : UInt8).toNat = 97 := rfl
    obtain rfl | hIs := hIs
    · exact absurd h (by decide)
    · omega
  have hSigns : c ≠ ascii '-' ∧ c ≠ ascii '+' := by
    constructor
    · rintro rfl
      exact absurd h (by decide)
    · rintro rfl
      exact absurd h (by decide)
  have hDigit : isDigit c = false := by
    by_contra hIs
    rw [Bool.not_eq_false] at hIs
    simp only [isAlpha, isDigit, Bool.or_eq_true, Bool.and_eq_true, decide_eq_true_eq, UInt8.le_iff_toNat_le] at h hIs
    have hNine : (57 : UInt8).toNat = 57 := rfl
    have hA : (65 : UInt8).toNat = 65 := rfl
    have ha : (97 : UInt8).toNat = 97 := rfl
    omega
  simp [scanNumeral, splitSign, hZero, hSpace, hSigns, hDigit]

theorem exists_letter_storedDate (time : Asn1Time) : ∃ c rest, storedDate time = c :: rest ∧ isAlpha c = true := by
  have hName : ∀ month : Month, ∃ c rest, month.name = c :: rest ∧ isAlpha c = true := by
    intro month
    cases month <;> exact ⟨_, _, rfl, by decide⟩
  obtain ⟨c, rest, hMonth, hLetter⟩ := hName time.month
  have hPrinted : ∃ tail, asn1TimePrint time = c :: tail := by
    simp only [asn1TimePrint, hMonth, List.cons_append]
    exact ⟨_, rfl⟩
  obtain ⟨tail, hPrinted⟩ := hPrinted
  refine ⟨c, tail.take 30, ?_, hLetter⟩
  rw [storedDate, hPrinted, List.take_succ_cons]

/-- No date that is stored can be read by the check. -/
theorem scanDate_storedDate (time : Asn1Time) : scanDate (storedDate time) = none := by
  obtain ⟨c, rest, hText, hLetter⟩ := exists_letter_storedDate time
  rw [hText, scanDate, scanIntBefore, scanInt, scanNumeral_of_letter hLetter]
  rfl

theorem not_mem_checkNow_of_storedDate {env : CheckEnvironment} {siteId : UInt64} {notAfter : Asn1Time}
    (hStored : (env.load siteId).metadata.expiresAt = storedDate notAfter) : siteId ∉ checkNow env := by
  intro hMem
  have hDue := (List.mem_filter.mp hMem).2
  have hDays : daysUntilExpiry (env.load siteId).metadata.expiresAt env.now = 999 := by
    rw [hStored, daysUntilExpiry, scanDate_storedDate]
  simp only [isDue, hDays, renewalWindowDays, Bool.and_eq_true, decide_eq_true_eq] at hDue
  omega

/-- The certificate runs out within the window, or has run out. -/
def RunsOut (notAfter : Asn1Time) (now : Int) : Prop := notAfter.instant - now ≤ renewalWindowDays * 86400

instance (notAfter : Asn1Time) (now : Int) : Decidable (RunsOut notAfter now) :=
  inferInstanceAs (Decidable (notAfter.instant - now ≤ renewalWindowDays * 86400))

/-- A check enqueues a renewal for a site exactly when its certificate runs out. -/
def RenewsInTime (env : CheckEnvironment) (siteId : UInt64) (notAfter : Asn1Time) : Prop :=
  (RunsOut notAfter env.now → siteId ∈ checkNow env) ∧ (¬RunsOut notAfter env.now → siteId ∉ checkNow env)

/-- The check does right by a certificate of `LetsEncryptProvider` only where there is
nothing to do. -/
theorem renewsInTime_iff_not_runsOut (env : CheckEnvironment) (siteId : UInt64) (notAfter : Asn1Time)
    (_hLoaded : (env.load siteId).success = true) (_hActive : (env.load siteId).metadata.status = bytes "active")
    (_hAutoRenew : (env.load siteId).metadata.autoRenew = true)
    (hStored : (env.load siteId).metadata.expiresAt = storedDate notAfter) :
    RenewsInTime env siteId notAfter ↔ ¬RunsOut notAfter env.now := by
  have hNever := not_mem_checkNow_of_storedDate hStored
  constructor
  · intro h hRunsOut
    exact hNever (h.1 hRunsOut)
  · intro hLater
    exact ⟨fun hRunsOut => absurd hRunsOut hLater, fun _ => hNever⟩

/-- The first second of 2026. -/
def newYear : Asn1Time := ⟨2026, .jan, 1, 0, 0, 0, [], true⟩

example : storedDate newYear = bytes "Jan  1 00:00:00 2026 GMT" := by decide

/-- A server with the one site 7, whose certificate runs out at `newYear`, at some
time. Its provider can renew and its queue takes every job. -/
def oneSite (now : Int) : CheckEnvironment where
  now := now
  timestamp := bytes "2025-12-31T00:00:00Z"
  sites := [7]
  load := fun siteId =>
    { success := true
      metadata :=
        { siteId := siteId
          providerId := bytes "letsencrypt"
          status := bytes "active"
          autoRenew := true
          expiresAt := storedDate newYear } }
  supportsAutoRenew := fun providerId => providerId = bytes "letsencrypt"
  submits := fun _ => true

/-- In October there is nothing to do. -/
theorem renewsInTime_october : RenewsInTime (oneSite (timegm ⟨2025, 10, 1, 0, 0, 0⟩)) 7 newYear := by
  have hLater : ¬RunsOut newYear (timegm ⟨2025, 10, 1, 0, 0, 0⟩) := by decide
  exact (renewsInTime_iff_not_runsOut (oneSite (timegm ⟨2025, 10, 1, 0, 0, 0⟩)) 7 newYear rfl rfl rfl rfl).mpr hLater

/-- On the day before it runs out, the certificate is not renewed, although nothing
but its date keeps the check from it. -/
theorem not_renewsInTime_last_day :
    ¬∀ (env : CheckEnvironment) (siteId : UInt64) (notAfter : Asn1Time), siteId ∈ env.sites →
      (env.load siteId).success = true → (env.load siteId).metadata.status = bytes "active" →
        (env.load siteId).metadata.autoRenew = true →
          env.supportsAutoRenew (env.load siteId).metadata.providerId = true →
            (env.load siteId).metadata.lastValidation = [] → env.submits siteId = true →
              (env.load siteId).metadata.expiresAt = storedDate notAfter → RenewsInTime env siteId notAfter := by
  intro hClaim
  have hLastDay : RunsOut newYear (timegm ⟨2025, 12, 31, 0, 0, 0⟩) := by decide
  have hRenews := hClaim (oneSite (timegm ⟨2025, 12, 31, 0, 0, 0⟩)) 7 newYear (List.mem_singleton.mpr rfl)
    rfl rfl rfl (by decide) rfl rfl rfl
  have hStored : ((oneSite (timegm ⟨2025, 12, 31, 0, 0, 0⟩)).load 7).metadata.expiresAt = storedDate newYear := rfl
  have hMem := hRenews.1 hLastDay
  exact not_mem_checkNow_of_storedDate hStored hMem

end ContainerCP.Ssl
