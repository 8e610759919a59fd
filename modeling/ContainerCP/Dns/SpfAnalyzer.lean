import ContainerCP.Text.Decimal

/-! `SpfAnalyzer`: read an SPF record and ask whether it allows the expected
address, following the records that it includes. Every answer comes from the
network, so nothing is assumed of it: an answer may depend on all that was asked
before. -/
namespace ContainerCP.Dns

/-! ## What the network answers -/

/-- The record types that `DnsCheckService` can ask for. -/
inductive RecordType where
  | a
  | aaaa
  | mx
  | txt
  | cname
  | ns
  | soa
  | caa
  deriving DecidableEq

/-- The records of one type in an answer, each by its value. -/
structure PerTypeResult where
  type : RecordType
  records : List Bytes
  deriving DecidableEq

structure DnsCheckResult where
  success : Bool
  perType : List PerTypeResult
  deriving DecidableEq

/-- The values of all records of a type, in the order of the answer. -/
def DnsCheckResult.values (answer : DnsCheckResult) (type : RecordType) : List Bytes :=
  if answer.success then
    (answer.perType.filter (·.type = type)).flatMap PerTypeResult.records
  else []

/-! ## Records -/

inductive Qualifier where
  | plus
  | minus
  | tilde
  | question
  deriving DecidableEq

structure SpfMechanism where
  qualifier : Qualifier := .plus
  mechanism : Bytes
  domain : Bytes := []
  deriving DecidableEq

def isBlank (c : UInt8) : Bool := c == ascii ' ' || c == ascii '\t'

def spfVersion : Bytes := bytes "v=spf1"

/-- `validate_syntax`: the error that it reports, if there is one. -/
def validateSyntax (record : Bytes) : Option Bytes :=
  if record = [] then some (bytes "Empty SPF record")
  else if record.take 6 ≠ spfVersion then some (bytes "SPF record must start with v=spf1")
  else
    match record.drop 6 with
    | [] => none
    | c :: _ => if isBlank c then none else some (bytes "Invalid v=spf1 format")

/-- The qualifier in front of a mechanism; without one it is a pass. -/
def splitQualifier : Bytes → Qualifier × Bytes
  | [] => (.plus, [])
  | c :: rest =>
      if c = ascii '+' then (.plus, rest)
      else if c = ascii '-' then (.minus, rest)
      else if c = ascii '~' then (.tilde, rest)
      else if c = ascii '?' then (.question, rest)
      else (.plus, c :: rest)

def isNameByte (c : UInt8) : Bool := !isBlank c && c != ascii ':' && c != ascii '='

/-- The value behind a mechanism's name, and the text behind it. -/
def readValue : Bytes → Bytes × Bytes
  | [] => ([], [])
  | c :: rest =>
      if c = ascii ':' ∨ c = ascii '=' then
        (rest.takeWhile fun d => !isBlank d, rest.dropWhile fun d => !isBlank d)
      else ([], c :: rest)

/-- One round of the loop of `parse_mechanisms`: the mechanism in front, and the
text behind it. -/
def readMechanism (text : Bytes) : SpfMechanism × Bytes :=
  let qualified := splitQualifier text
  let value := readValue (qualified.2.dropWhile isNameByte)
  (⟨qualified.1, qualified.2.takeWhile isNameByte, value.1⟩, value.2)

theorem length_splitQualifier_le (text : Bytes) : (splitQualifier text).2.length ≤ text.length := by
  cases text with
  | nil => simp [splitQualifier]
  | cons c rest =>
      simp only [splitQualifier]
      split_ifs <;> simp

theorem length_readValue_le (text : Bytes) : (readValue text).2.length ≤ text.length := by
  cases text with
  | nil => simp [readValue]
  | cons c rest =>
      simp only [readValue]
      split
      · exact (List.length_dropWhile_le _ rest).trans (Nat.le_succ _)
      · exact Nat.le_refl _

/-- Each round takes at least one byte that is not blank. -/
theorem length_readMechanism_lt {c : UInt8} {rest : Bytes} (h : isBlank c = false) :
    (readMechanism (c :: rest)).2.length < (c :: rest).length := by
  have hQualified := length_splitQualifier_le (c :: rest)
  have hValue := length_readValue_le ((splitQualifier (c :: rest)).2.dropWhile isNameByte)
  have hName := List.length_dropWhile_le isNameByte (splitQualifier (c :: rest)).2
  show (readValue ((splitQualifier (c :: rest)).2.dropWhile isNameByte)).2.length < _
  by_cases hTaken : (splitQualifier (c :: rest)).2.length < (c :: rest).length
  · omega
  · -- no qualifier, so the byte starts the name or separates it from the value
    have hSame : (splitQualifier (c :: rest)).2 = c :: rest := by
      simp only [splitQualifier] at hTaken ⊢
      split_ifs at hTaken ⊢ <;> simp_all
    rw [hSame]
    by_cases hByte : isNameByte c = true
    · have hDrop : (c :: rest).dropWhile isNameByte = rest.dropWhile isNameByte := by simp [hByte]
      have hRest := List.length_dropWhile_le isNameByte rest
      have hRead := length_readValue_le (rest.dropWhile isNameByte)
      rw [hDrop, List.length_cons]
      omega
    · have hSeparator : c = ascii ':' ∨ c = ascii '=' := by
        simp only [isNameByte, h, Bool.not_false, Bool.true_and, Bool.and_eq_true, bne_iff_ne] at hByte
        tauto
      have hDrop : (c :: rest).dropWhile isNameByte = c :: rest := by simp [hByte]
      have hRest := List.length_dropWhile_le (fun d => !isBlank d) rest
      rw [hDrop, readValue, if_pos hSeparator]
      exact Nat.lt_succ_of_le hRest

/-- The loop of `parse_mechanisms` over the text behind the version. -/
def readMechanisms (text : Bytes) : List SpfMechanism :=
  match _hText : text.dropWhile isBlank with
  | [] => []
  | c :: rest => (readMechanism (c :: rest)).1 :: readMechanisms (readMechanism (c :: rest)).2
termination_by text.length
decreasing_by
  have hBlank : isBlank c = false := by
    have hHead := List.head?_dropWhile_not isBlank text
    simpa [_hText] using hHead
  have hShorter : (readMechanism (c :: rest)).2.length < (c :: rest).length := length_readMechanism_lt hBlank
  have hDropped := List.length_dropWhile_le isBlank text
  rw [_hText] at hDropped
  omega

/-- `parse_mechanisms`: the mechanisms, and what is left in `error_out`. -/
def parseMechanisms (record : Bytes) : List SpfMechanism × Bytes :=
  match validateSyntax record with
  | some error => ([], error)
  | none => (readMechanisms (record.drop 6), [])

/-! ## Addresses -/

/-- The text that a C function sees of a string. -/
def cString (text : Bytes) : Bytes := text.takeWhile (· ≠ 0)

/-- What an evaluation asks its surroundings: the resolver, which may remember
every event of the evaluation so far, and `inet_pton` for the two families. -/
structure Surroundings (Event : Type) where
  check : List Event → Bytes → RecordType → DnsCheckResult
  inetPton4 : Bytes → Option UInt32
  inetPton6 : Bytes → Option (Vector UInt8 16)

/-- The network of a CIDR text and the length of its prefix. -/
def splitCidr (cidr : Bytes) (width : Nat) : Option (Bytes × Nat) :=
  match cidr.dropWhile (· ≠ ascii '/') with
  | [] => some (cidr, width)
  | _ :: length =>
      match stoi length with
      | none => none
      | some n =>
          if 0 ≤ n.toInt ∧ n.toInt ≤ width then some (cidr.takeWhile (· ≠ ascii '/'), n.toInt.toNat)
          else none

def mask4 (prefixLen : Nat) : UInt32 :=
  if prefixLen = 0 then 0 else ~~~((1 <<< UInt32.ofNat (32 - prefixLen)) - 1)

def checkIp4Mechanism {Event : Type} (env : Surroundings Event) (cidr ip : Bytes) : Bool :=
  match env.inetPton4 (cString ip), splitCidr cidr 32 with
  | some addr, some (network, prefixLen) =>
      match env.inetPton4 (cString network) with
      | some net => addr &&& mask4 prefixLen == net &&& mask4 prefixLen
      | none => false
  | _, _ => false

/-- The comparison of two IPv6 addresses up to a prefix: the full bytes, then the
bits of the byte behind them. -/
def samePrefix6 (addr net : List UInt8) (prefixLen : Nat) : Bool :=
  let fullBytes := prefixLen / 8
  let remainingBits := prefixLen % 8
  let mask : UInt8 := 0xFF <<< UInt8.ofNat (8 - remainingBits)
  addr.take fullBytes == net.take fullBytes &&
    (remainingBits == 0 ||
      (addr.getD fullBytes 0 &&& mask) == (net.getD fullBytes 0 &&& mask))

def checkIp6Mechanism {Event : Type} (env : Surroundings Event) (cidr ip : Bytes) : Bool :=
  match env.inetPton6 (cString ip), splitCidr cidr 128 with
  | some addr, some (network, prefixLen) =>
      match env.inetPton6 (cString network) with
      | some net => samePrefix6 addr.toList net.toList prefixLen
      | none => false
  | _, _ => false

/-! ## The analysis -/

inductive CheckCode where
  | spfSyntax
  | spfExpectedIp
  deriving DecidableEq

structure SpfCheck where
  code : CheckCode
  ok : Bool
  reason : Bytes
  deriving DecidableEq

inductive SpfStatus where
  | unset
  | ok
  | error
  | notFound
  deriving DecidableEq

inductive SpfMatch where
  | unset
  | match
  | mismatch
  | notPublished
  | error
  deriving DecidableEq

/-- The analysis. The counter is an `int` of the source; that it never reaches
2^31 is `lookupCount_lt_of_answers`. -/
structure SpfAnalysis where
  status : SpfStatus := .unset
  match_ : SpfMatch := .unset
  expectedIpAllowed : Bool := false
  record : Bytes := []
  allQualifier : Option Qualifier := none
  lookupCount : Nat := 0
  mechanismMatched : Bytes := []
  errors : List Bytes := []
  warnings : List Bytes := []
  checks : List SpfCheck := []
  deriving DecidableEq

/-- What an evaluation does that can be seen from outside: it enters a list of
mechanisms at a depth of includes and redirects, it evaluates a mechanism that
costs a lookup, and it asks the resolver. -/
inductive Event where
  | entered (depth : Nat)
  | evaluated (mechanism : SpfMechanism)
  | queried (domain : Bytes) (type : RecordType)
  deriving DecidableEq

/-- The state of an evaluation: the result so far, the domains that were included
already, and the events, the latest first. -/
structure Evaluation where
  result : SpfAnalysis
  visitedIncludes : List Bytes := []
  log : List Event := []
  deriving DecidableEq

def maxDepth : Nat := 10

def maxLookups : Nat := 10

def SpfMechanism.consumesLookup (mech : SpfMechanism) : Bool :=
  mech.mechanism == bytes "a" || mech.mechanism == bytes "mx" || mech.mechanism == bytes "include" ||
    mech.mechanism == bytes "exists" || mech.mechanism == bytes "redirect"

def Evaluation.push (e : Evaluation) (event : Event) : Evaluation := { e with log := event :: e.log }

def Evaluation.addError (e : Evaluation) (error : Bytes) : Evaluation :=
  { e with result := { e.result with errors := e.result.errors ++ [error] } }

def Evaluation.visit (e : Evaluation) (domain : Bytes) : Evaluation :=
  { e with visitedIncludes := domain :: e.visitedIncludes }

/-- The counter goes up in front of the check. -/
def Evaluation.countLookup (e : Evaluation) : Evaluation :=
  { e with result := { e.result with lookupCount := e.result.lookupCount + 1 } }

/-- A mechanism matched: the texts of the match. -/
def Evaluation.recordMatch (e : Evaluation) (matchedBy : Bytes) : Evaluation :=
  { e with result :=
      { e.result with
        expectedIpAllowed := true
        mechanismMatched := matchedBy
        checks := e.result.checks ++
          [⟨.spfExpectedIp, true, bytes "Expected IP is allowed by " ++ matchedBy⟩] } }

def Evaluation.setAll (e : Evaluation) (qualifier : Qualifier) : Evaluation :=
  { e with result := { e.result with allQualifier := some qualifier } }

section Evaluate

variable (env : Surroundings Event) (expectedIpv4 expectedIpv6 : Bytes)

/-- One call of the resolver. -/
def Evaluation.query (e : Evaluation) (domain : Bytes) (type : RecordType) : DnsCheckResult × Evaluation :=
  (env.check e.log domain type, e.push (.queried domain type))

/-- The loop over the mail exchangers: the first one with the expected address. -/
def findExchange : List Bytes → Evaluation → Option Bytes × Evaluation
  | [], e => (none, e)
  | target :: rest, e =>
      if target = [] then findExchange rest e
      else
        let asked := e.query env target .a
        if (asked.1.values .a).contains expectedIpv4 then
          (some (bytes "mx:" ++ target ++ bytes " (" ++ expectedIpv4 ++ bytes ")"), asked.2)
        else findExchange rest asked.2

/-- The loop over the TXT records of an included domain. `recur` evaluates the
mechanisms of a record; a record that is no SPF record is passed over. -/
def followRecords (recur : List SpfMechanism → Evaluation → Bool × Evaluation) :
    List Bytes → Bool → Evaluation → Bool × Evaluation
  | [], matched, e => (matched, e)
  | record :: rest, matched, e =>
      if record.take 6 = spfVersion then
        let parsed := parseMechanisms record
        let inner := recur parsed.1 (e.addError parsed.2)
        followRecords recur rest (matched || inner.1) inner.2
      else followRecords recur rest matched e

/-- Ask for the TXT records of a domain and follow them. -/
def followDomain (recur : Bytes → List SpfMechanism → Evaluation → Bool × Evaluation) (domain : Bytes)
    (e : Evaluation) : Bool × Evaluation :=
  let asked := e.query env domain .txt
  followRecords (recur domain) (asked.1.values .txt) false asked.2

/-- The branches of the loop body: what the mechanism matched by, if it matched. -/
def matchMechanism (recur : Bytes → List SpfMechanism → Evaluation → Bool × Evaluation) (domain : Bytes)
    (mech : SpfMechanism) (e : Evaluation) : Option Bytes × Evaluation :=
  let target := if mech.domain = [] then domain else mech.domain
  if mech.mechanism = bytes "ip4" ∧ expectedIpv4 ≠ [] then
    (if checkIp4Mechanism env mech.domain expectedIpv4 then some (bytes "ip4:" ++ mech.domain) else none, e)
  else if mech.mechanism = bytes "ip6" ∧ expectedIpv6 ≠ [] then
    (if checkIp6Mechanism env mech.domain expectedIpv6 then some (bytes "ip6:" ++ mech.domain) else none, e)
  else if mech.mechanism = bytes "a" then
    let asked := e.query env target .a
    (if (asked.1.values .a).contains expectedIpv4 then
        some (bytes "a:" ++ target ++ bytes " (" ++ expectedIpv4 ++ bytes ")")
      else none, asked.2)
  else if mech.mechanism = bytes "mx" then
    let asked := e.query env target .mx
    findExchange env expectedIpv4 (asked.1.values .mx) asked.2
  else if mech.mechanism = bytes "include" then
    if mech.domain = [] then (none, e)
    else if mech.domain ∈ e.visitedIncludes then
      (none, e.addError (bytes "SPF include loop detected: " ++ mech.domain))
    else
      let followed := followDomain env recur mech.domain (e.visit mech.domain)
      (if followed.1 then some (bytes "include:" ++ mech.domain) else none, followed.2)
  else if mech.mechanism = bytes "redirect" then
    -- a redirect neither looks at the visited includes nor adds to them
    if mech.domain = [] then (none, e)
    else
      let followed := followDomain env recur mech.domain e
      (if followed.1 then some (bytes "redirect:" ++ mech.domain) else none, followed.2)
  else (none, e)

/-- The loop body behind the lookup check. -/
def evaluateMechanism (recur : Bytes → List SpfMechanism → Evaluation → Bool × Evaluation) (domain : Bytes)
    (mech : SpfMechanism) (e : Evaluation) : Evaluation :=
  let tried := matchMechanism env expectedIpv4 expectedIpv6 recur domain mech e
  let marked := match tried.1 with
    | some matchedBy => tried.2.recordMatch matchedBy
    | none => tried.2
  if mech.mechanism = bytes "all" then marked.setAll mech.qualifier else marked

/-- The loop over the mechanisms. A mechanism that costs a lookup beyond the
limit ends it. -/
def evaluateLoop (recur : Bytes → List SpfMechanism → Evaluation → Bool × Evaluation) (domain : Bytes) :
    List SpfMechanism → Evaluation → Bool × Evaluation
  | [], e => (e.result.expectedIpAllowed, e)
  | mech :: rest, e =>
      if mech.consumesLookup then
        let counted := e.countLookup
        if counted.result.lookupCount > maxLookups then
          (false, counted.addError (bytes "SPF DNS lookup count exceeded 10"))
        else
          evaluateLoop recur domain rest (evaluateMechanism env expectedIpv4 expectedIpv6 recur domain mech
            (counted.push (.evaluated mech)))
      else
        evaluateLoop recur domain rest
          (evaluateMechanism env expectedIpv4 expectedIpv6 recur domain mech e)

/-- `evaluate_mechanisms`. Only its own check of the depth ends the recursion. -/
def evaluateMechanisms (depth : Nat) (domain : Bytes) (mechs : List SpfMechanism) (e : Evaluation) :
    Bool × Evaluation :=
  if h : depth > maxDepth then
    (false, (e.push (.entered depth)).addError (bytes "SPF include depth exceeded (max 10)"))
  else
    evaluateLoop env expectedIpv4 expectedIpv6 (evaluateMechanisms (depth + 1)) domain mechs
      (e.push (.entered depth))
termination_by maxDepth + 1 - depth

/-- What `analyze` makes of the verdict: the match, and the warnings about a soft
qualifier. -/
def conclude (allowed : Bool) (result : SpfAnalysis) : SpfAnalysis :=
  { result with
    expectedIpAllowed := allowed
    status := .ok
    match_ := if allowed then .match else .mismatch
    warnings := result.warnings ++
      if allowed && result.allQualifier == some .tilde then
        [bytes "SPF softfail (~all): emails from unauthorized servers are marked but not rejected"]
      else if allowed && result.allQualifier == some .question then
        [bytes "SPF neutral (?all): no clear policy"]
      else [] }

/-- `analyze`, with the events of its evaluation. -/
def analyze (spfRecord domain : Bytes) : Evaluation :=
  let result : SpfAnalysis := { record := spfRecord }
  if spfRecord = [] then ⟨{ result with status := .notFound, match_ := .notPublished }, [], []⟩
  else
    match validateSyntax spfRecord with
    | some error =>
        ⟨{ result with
            status := .error, match_ := .error, errors := [error], checks := [⟨.spfSyntax, false, error⟩] },
          [], []⟩
    | none =>
        let checked := { result with checks := [⟨.spfSyntax, true, bytes "SPF syntax is valid"⟩] }
        let parsed := parseMechanisms spfRecord
        if parsed.1 = [] ∧ parsed.2 ≠ [] then
          ⟨{ checked with status := .error, match_ := .error, errors := [parsed.2] }, [], []⟩
        else if expectedIpv4 = [] ∧ expectedIpv6 = [] then
          ⟨{ checked with status := .ok, match_ := .match }, [], []⟩
        else
          let evaluated := evaluateMechanisms env expectedIpv4 expectedIpv6 0 domain parsed.1 { result := checked }
          { evaluated.2 with result := conclude evaluated.1 evaluated.2.result }

end Evaluate

end ContainerCP.Dns
