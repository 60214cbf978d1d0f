import Mathlib.Data.Int.Basic

/-!
# RFC 3339 instants

An instant is a number of nanoseconds since the Unix epoch. `Instant.render`
writes it in UTC the way common date libraries do: a four digit year (a signed
one outside 0..9999), and a fraction of 0, 3, 6 or 9 digits, whichever is the
shortest exact one.
-/

/-- Nanoseconds since the Unix epoch. -/
structure Instant where
  nanos : Int
deriving DecidableEq, Repr

namespace Instant

/-- The instant a number of milliseconds after the epoch. -/
def ofMillis (millis : Int) : Instant := ⟨millis * 1000000⟩

/-- Decimal digits padded with zeros to a width. -/
def padded (width n : Nat) : String :=
  let digits := Nat.toDigits 10 n
  String.ofList (List.replicate (width - digits.length) '0' ++ digits)

/-- Year, month and day of a day number counted from 1970-01-01. -/
def civilOfDays (days : Int) : Int × Nat × Nat :=
  let shifted := days + 719468
  let era := shifted.fdiv 146097
  let dayOfEra := (shifted - era * 146097).toNat
  let yearOfEra := (dayOfEra - dayOfEra / 1460 + dayOfEra / 36524 - dayOfEra / 146096) / 365
  let dayOfYear := dayOfEra - (365 * yearOfEra + yearOfEra / 4 - yearOfEra / 100)
  let monthIndex := (5 * dayOfYear + 2) / 153
  let day := dayOfYear - (153 * monthIndex + 2) / 5 + 1
  let month := if monthIndex < 10 then monthIndex + 3 else monthIndex - 9
  let year := era * 400 + yearOfEra
  (if month ≤ 2 then year + 1 else year, month, day)

def renderYear (year : Int) : String :=
  if 0 ≤ year ∧ year ≤ 9999 then padded 4 year.toNat
  else if 0 ≤ year then "+" ++ padded 4 year.toNat
  else "-" ++ padded 4 (-year).toNat

/-- The shortest exact fraction among 0, 3, 6 and 9 digits. -/
def renderFraction (nanos : Nat) : String :=
  if nanos = 0 then ""
  else if nanos % 1000000 = 0 then "." ++ padded 3 (nanos / 1000000)
  else if nanos % 1000 = 0 then "." ++ padded 6 (nanos / 1000)
  else "." ++ padded 9 nanos

/-- Date and time of day, without a zone. -/
def renderLocal (instant : Instant) : String :=
  let seconds := instant.nanos.fdiv 1000000000
  let fraction := (instant.nanos - seconds * 1000000000).toNat
  let days := seconds.fdiv 86400
  let clock := (seconds - days * 86400).toNat
  let (year, month, day) := civilOfDays days
  renderYear year ++ "-" ++ padded 2 month ++ "-" ++ padded 2 day ++ "T" ++
    padded 2 (clock / 3600) ++ ":" ++ padded 2 (clock / 60 % 60) ++ ":" ++
    padded 2 (clock % 60) ++ renderFraction fraction

/-- The UTC form with the zone written `Z`. -/
def render (instant : Instant) : String := renderLocal instant ++ "Z"

/-- The UTC form with the zone written as an offset. -/
def renderOffset (instant : Instant) : String := renderLocal instant ++ "+00:00"

example : render (ofMillis (-1)) = "1969-12-31T23:59:59.999Z" := by decide

end Instant
