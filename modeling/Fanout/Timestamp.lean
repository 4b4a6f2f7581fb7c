import Fanout.Text.Digits

/-!
Points in time in universal time, and their text: date, `T`, time and `Z`, with no decimals of a
second or with three, six or nine, the fewest that are exact. A year outside 0 to 9999 has a sign.
-/

namespace Fanout

open Text

/-- Seconds since the start of 1970; a leap second continues its minute's last second. -/
structure Timestamp where
  secs : Int
  nanos : Nat
  deriving DecidableEq, Repr

namespace Timestamp

def ofMillis (ms : Nat) : Timestamp :=
  ⟨ms / 1000, ms % 1000 * 1000000⟩

structure Date where
  year : Int
  month : Nat
  day : Nat
  deriving DecidableEq, Repr

def dateOf (days : Int) : Date :=
  let shifted := days + 719468
  let era := shifted / 146097
  let dayOfEra := (shifted % 146097).toNat
  let yearOfEra := (dayOfEra - dayOfEra / 1460 + dayOfEra / 36524 - dayOfEra / 146096) / 365
  let dayOfYear := dayOfEra - (365 * yearOfEra + yearOfEra / 4 - yearOfEra / 100)
  let shiftedMonth := (5 * dayOfYear + 2) / 153
  let day := dayOfYear - (153 * shiftedMonth + 2) / 5 + 1
  let month := if shiftedMonth < 10 then shiftedMonth + 3 else shiftedMonth - 9
  let year := era * 400 + yearOfEra
  ⟨if month ≤ 2 then year + 1 else year, month, day⟩

def date (t : Timestamp) : Date :=
  dateOf (t.secs / 86400)

def secondOfDay (t : Timestamp) : Nat :=
  (t.secs % 86400).toNat

def minYear : Int := -262143

def maxYear : Int := 262142

/-- A time in the calendar's range, of which a leap second stands only at the end of a minute. -/
def ofParts? (secs : Int) (nanos : Nat) : Option Timestamp :=
  let t : Timestamp := ⟨secs, nanos⟩
  if 2000000000 ≤ nanos then none
  else if 1000000000 ≤ nanos ∧ t.secondOfDay % 60 ≠ 59 then none
  else if t.date.year < minYear ∨ maxYear < t.date.year then none
  else some t

def yearChars (y : Int) : List Char :=
  if 0 ≤ y ∧ y ≤ 9999 then decimalPadded 4 y.toNat
  else (if y < 0 then '-' else '+') :: decimalPadded 4 y.natAbs

def fractionChars (nanos : Nat) : List Char :=
  if nanos = 0 then []
  else if nanos % 1000000 = 0 then '.' :: decimalPadded 3 (nanos / 1000000)
  else if nanos % 1000 = 0 then '.' :: decimalPadded 6 (nanos / 1000)
  else '.' :: decimalPadded 9 nanos

def localChars (t : Timestamp) : List Char :=
  let s := t.secondOfDay
  let leap := t.nanos / 1000000000
  let two := decimalPadded 2
  yearChars t.date.year ++ '-' :: two t.date.month ++ '-' :: two t.date.day ++
    'T' :: two (s / 3600) ++ ':' :: two (s / 60 % 60) ++ ':' :: two (s % 60 + leap) ++
    fractionChars (t.nanos % 1000000000)

def text (t : Timestamp) : String :=
  String.ofList (t.localChars ++ ['Z'])

def offsetText (t : Timestamp) : String :=
  String.ofList (t.localChars ++ "+00:00".toList)

end Timestamp

end Fanout
