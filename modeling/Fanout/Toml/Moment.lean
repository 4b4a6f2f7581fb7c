import Fanout.Text.Reader

namespace Fanout.Toml

open Text

def isLeapYear (y : Nat) : Bool :=
  y % 4 == 0 && (y % 100 != 0 || y % 400 == 0)

def daysIn (y month : Nat) : Nat :=
  if month = 2 then if isLeapYear y then 29 else 28
  else if month ∈ [4, 6, 9, 11] then 30
  else 31

def readDate : Reader Unit := fun cs => do
  let (y, cs) ← readFixed 10 4 cs
  let (_, cs) ← readChar '-' cs
  let (m, cs) ← readFixed 10 2 cs
  let (_, cs) ← readChar '-' cs
  let (d, cs) ← readFixed 10 2 cs
  if 1 ≤ m ∧ m ≤ 12 ∧ 1 ≤ d ∧ d ≤ daysIn y m then some ((), cs) else none

/-- A second of sixty is a leap second; any number of decimals may follow. -/
def readTime : Reader Unit := fun cs => do
  let (hour, cs) ← readFixed 10 2 cs
  let (_, cs) ← readChar ':' cs
  let (minute, cs) ← readFixed 10 2 cs
  let (_, cs) ← readChar ':' cs
  let (second, cs) ← readFixed 10 2 cs
  if hour ≤ 23 ∧ minute ≤ 59 ∧ second ≤ 60 then
    match readChar '.' cs with
    | none => some ((), cs)
    | some (_, rest) => do
        let (_, rest) ← readDigits 10 rest.length rest
        some ((), rest)
  else none

def readOffset : Reader Unit
  | c :: cs =>
      if c = 'Z' ∨ c = 'z' then some ((), cs)
      else if c = '+' ∨ c = '-' then do
        let (hour, cs) ← readFixed 10 2 cs
        let (_, cs) ← readChar ':' cs
        let (minute, cs) ← readFixed 10 2 cs
        if hour ≤ 23 ∧ minute ≤ 59 then some ((), cs) else none
      else none
  | [] => none

def readTimeOfDay : Reader Unit
  | c :: cs =>
      if c = 'T' ∨ c = 't' ∨ c = ' ' then do
        let (_, cs) ← readTime cs
        match readOffset cs with
        | some r => some r
        | none => some ((), cs)
      else none
  | [] => none

def readMoment : Reader Unit := fun cs =>
  match readDate cs with
  | some (_, rest) =>
      match readTimeOfDay rest with
      | some r => some r
      | none => some ((), rest)
  | none => readTime cs

end Fanout.Toml
