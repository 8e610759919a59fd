import ContainerCP.Text.Decimal

/-! Dates in the proleptic Gregorian calendar, as the C library breaks seconds down in UTC. -/
namespace ContainerCP

/-- `std::tm`, as far as time stamps print it. -/
structure BrokenDownTime where
  year : Nat
  month : Nat
  day : Nat
  hour : Nat
  minute : Nat
  second : Nat
  deriving DecidableEq

/-- `gmtime`, from the seconds since 1970. The days are counted from the first of March of
the year zero, in eras of 400 years. -/
def gmtime (seconds : Nat) : BrokenDownTime :=
  let days := seconds / 86400 + 719468
  let dayOfEra := days % 146097
  let yearOfEra := (dayOfEra - dayOfEra / 1460 + dayOfEra / 36524 - dayOfEra / 146096) / 365
  let dayOfYear := dayOfEra - (365 * yearOfEra + yearOfEra / 4 - yearOfEra / 100)
  let monthFromMarch := (5 * dayOfYear + 2) / 153
  let month := if monthFromMarch < 10 then monthFromMarch + 3 else monthFromMarch - 9
  { year := yearOfEra + days / 146097 * 400 + if month ≤ 2 then 1 else 0
    month := month
    day := dayOfYear - (153 * monthFromMarch + 2) / 5 + 1
    hour := seconds / 3600 % 24
    minute := seconds / 60 % 60
    second := seconds % 60 }

/-- Two digits. -/
def twoDigits (n : Nat) : Bytes := if n < 10 then ascii '0' :: decimal n else decimal n

end ContainerCP
