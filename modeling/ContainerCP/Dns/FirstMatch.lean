import ContainerCP.Dns.SpfAnalyzer

/-! What RFC 7208 makes of an SPF record: its terms are tried from left to right, and the
first one that matches the address decides with its qualifier. An include matches where
the included record passes, and a redirect is only followed where nothing matched. -/
namespace ContainerCP.Dns

/-! ## Terms -/

/-- A mechanism or a modifier. The name is in small letters, since its case means nothing. -/
structure Term where
  qualifier : Qualifier
  name : Bytes
  /-- The byte behind the name and what stands behind that byte. -/
  argument : Option (UInt8 × Bytes)
  deriving DecidableEq

def lowerByte (c : UInt8) : UInt8 := if 65 ≤ c && c ≤ 90 then c + 32 else c

def isSeparator (c : UInt8) : Bool := c == ascii ':' || c == ascii '=' || c == ascii '/'

def readTerm (token : Bytes) : Term :=
  let qualified := splitQualifier token
  { qualifier := qualified.1
    name := (qualified.2.takeWhile (!isSeparator ·)).map lowerByte
    argument := match qualified.2.dropWhile (!isSeparator ·) with
      | [] => none
      | c :: rest => some (c, rest) }

/-- The terms behind the version of a record. -/
def termsOf (record : Bytes) : List Term :=
  (((record.drop spfVersion.length).splitOnP isBlank).filter (· ≠ [])).map readTerm

/-- The value of a mechanism, which stands behind a colon. -/
def Term.value (term : Term) : Bytes :=
  match term.argument with
  | some (c, value) => if c = ascii ':' then value else []
  | none => []

/-- The domain of an address mechanism; without one it is the current domain. -/
def Term.domainSpec (term : Term) : Option Bytes :=
  match term.argument with
  | some (c, value) => if c = ascii ':' then some (value.takeWhile (· ≠ ascii '/')) else none
  | none => none

/-- The prefix lengths of an address mechanism: one for IPv4, and one for IPv6 behind
two slashes, each with its slash. -/
def Term.prefixLengths (term : Term) : Bytes × Bytes :=
  let text : Bytes := match term.argument with
    | some (c, value) =>
        if c = ascii '/' then c :: value
        else if c = ascii ':' then value.dropWhile (· ≠ ascii '/')
        else []
    | none => []
  match text with
  | [] => ([], [])
  | slash :: rest =>
      if rest.head? = some (ascii '/') then ([], rest)
      else (slash :: rest.takeWhile (· ≠ ascii '/'), (rest.dropWhile (· ≠ ascii '/')).tail)

/-! ## Evaluation -/

/-- What an evaluation rests on: the answers of the name servers, the expansion of macros
in the current domain, and the names that the address is validated to have. -/
structure Resolver where
  answer : Bytes → RecordType → DnsCheckResult
  expand : Bytes → Bytes → Bytes
  validated : List Bytes

/-- The verdict on a list of terms. A failed evaluation has no first match. -/
inductive Verdict where
  | matched (qualifier : Qualifier)
  | unmatched
  | failed
  deriving DecidableEq

section Verdict

variable (env : Surroundings Event) (resolver : Resolver) (expectedIpv4 expectedIpv6 : Bytes)

/-- An address record of the domain is the expected address, or in one network with it. -/
def addressMatches (domain : Bytes) (prefixLengths : Bytes × Bytes) : Bool :=
  (expectedIpv4 ≠ [] ∧ ((resolver.answer domain .a).values .a).any fun value =>
    value = expectedIpv4 || checkIp4Mechanism env (value ++ prefixLengths.1) expectedIpv4) ||
  (expectedIpv6 ≠ [] ∧ ((resolver.answer domain .aaaa).values .aaaa).any fun value =>
    value = expectedIpv6 || checkIp6Mechanism env (value ++ prefixLengths.2) expectedIpv6)

/-- The only SPF record of a domain. -/
def spfRecordOf (domain : Bytes) : Option Bytes :=
  match ((resolver.answer domain .txt).values .txt).filter fun record => validateSyntax record = none with
  | [record] => some record
  | _ => none

/-- One term, with the lookups that are left: whether it matches, or nothing if the
evaluation fails. A modifier never matches. -/
def tryTerm (recur : Bytes → List Term → Nat → Verdict × Nat) (domain : Bytes) (term : Term) (left : Nat) :
    Option Bool × Nat :=
  let target := resolver.expand domain (term.domainSpec.getD domain)
  let isMechanism : Bool := term.argument.all (·.1 ≠ ascii '=')
  if !isMechanism then (some false, left)
  else if term.name = bytes "all" then (some true, left)
  else if term.name = bytes "ip4" then
    (some (expectedIpv4 ≠ [] ∧ checkIp4Mechanism env term.value expectedIpv4), left)
  else if term.name = bytes "ip6" then
    (some (expectedIpv6 ≠ [] ∧ checkIp6Mechanism env term.value expectedIpv6), left)
  else if term.name ∉ [bytes "a", bytes "mx", bytes "ptr", bytes "exists", bytes "include"] then (some false, left)
  else
    match left with
    | 0 => (none, 0)
    | left + 1 =>
        if term.name = bytes "a" then
          (some (addressMatches env resolver expectedIpv4 expectedIpv6 target term.prefixLengths), left)
        else if term.name = bytes "mx" then
          let exchanges := (resolver.answer target .mx).values .mx
          if 10 < exchanges.length then (none, left)
          else
            (some (exchanges.any fun exchange =>
              addressMatches env resolver expectedIpv4 expectedIpv6 exchange term.prefixLengths), left)
        else if term.name = bytes "ptr" then
          (some (resolver.validated.any fun name => name = target || (ascii '.' :: target).isSuffixOf name), left)
        else if term.name = bytes "exists" then (some ((resolver.answer target .a).values .a ≠ []), left)
        else
          match spfRecordOf resolver (resolver.expand domain term.value) with
          | none => (none, left)
          | some record =>
              match recur (resolver.expand domain term.value) (termsOf record) left with
              | (.matched qualifier, left) => (some (qualifier = .plus), left)
              | (.unmatched, left) => (some false, left)
              | (.failed, left) => (none, left)

/-- The first term that matches. -/
def firstMatch (recur : Bytes → List Term → Nat → Verdict × Nat) (domain : Bytes) : List Term → Nat → Verdict × Nat
  | [], left => (.unmatched, left)
  | term :: rest, left =>
      match tryTerm env resolver expectedIpv4 expectedIpv6 recur domain term left with
      | (some true, left) => (.matched term.qualifier, left)
      | (some false, left) => firstMatch recur domain rest left
      | (none, left) => (.failed, left)

/-- `redirect=` gives the verdict of another record if nothing matched. -/
def followRedirect (recur : Bytes → List Term → Nat → Verdict × Nat) (domain : Bytes) (terms : List Term) :
    Verdict × Nat → Verdict × Nat
  | (.unmatched, left) =>
      match terms.findSome? fun term =>
          if term.name = bytes "redirect" then term.argument.filter (·.1 = ascii '=') else none with
      | none => (.unmatched, left)
      | some (_, value) =>
          match left with
          | 0 => (.failed, 0)
          | left + 1 =>
              match spfRecordOf resolver (resolver.expand domain value) with
              | none => (.failed, left)
              | some record => recur (resolver.expand domain value) (termsOf record) left
  | decided => decided

/-- The evaluation of the terms of a record. Each record below the first takes a lookup,
so `depth` levels are enough for `depth - 1` lookups. -/
def evaluateTerms : Nat → Bytes → List Term → Nat → Verdict × Nat
  | 0, _, _, left => (.failed, left)
  | depth + 1, domain, terms, left =>
      followRedirect resolver (evaluateTerms depth) domain terms
        (firstMatch env resolver expectedIpv4 expectedIpv6 (evaluateTerms depth) domain terms left)

/-- The verdict on the record of a domain, with ten lookups. -/
def verdictOf (record domain : Bytes) : Verdict :=
  (evaluateTerms env resolver expectedIpv4 expectedIpv6 (maxLookups + 1) domain (termsOf record) maxLookups).1

end Verdict

end ContainerCP.Dns
