/-!
Bytes shown as text. What is not valid UTF-8 shows as replacement characters, one for each byte
that begins no character and one for each character that is broken off.
-/

namespace Fanout.Text

/-- A character of which some bytes are owed; the next one lies between two bounds. -/
structure Unfinished where
  owed : Nat
  low : Nat := 0x80
  high : Nat := 0xbf
  value : Nat
  deriving DecidableEq, Repr

def replacement : Char :=
  '\ufffd'

def startByte (b : Nat) : List Char × Option Unfinished :=
  if b < 0x80 then ([Char.ofNat b], none)
  else if 0xc2 ≤ b ∧ b ≤ 0xdf then ([], some { owed := 1, value := b - 0xc0 })
  else if b = 0xe0 then ([], some { owed := 2, low := 0xa0, value := 0 })
  else if b = 0xed then ([], some { owed := 2, high := 0x9f, value := 0xd })
  else if 0xe1 ≤ b ∧ b ≤ 0xef then ([], some { owed := 2, value := b - 0xe0 })
  else if b = 0xf0 then ([], some { owed := 3, low := 0x90, value := 0 })
  else if 0xf1 ≤ b ∧ b ≤ 0xf3 then ([], some { owed := 3, value := b - 0xf0 })
  else if b = 0xf4 then ([], some { owed := 3, high := 0x8f, value := 4 })
  else ([replacement], none)

def feedByte (u : Option Unfinished) (b : Nat) : List Char × Option Unfinished :=
  match u with
  | none => startByte b
  | some u =>
      if u.low ≤ b ∧ b ≤ u.high then
        let value := u.value * 64 + (b - 0x80)
        if u.owed = 1 then ([Char.ofNat value], none)
        else ([], some { owed := u.owed - 1, value })
      else
        let (cs, next) := startByte b
        (replacement :: cs, next)

def lossyFrom (u : Option Unfinished) : List UInt8 → List Char
  | [] => if u.isSome then [replacement] else []
  | b :: bs =>
      let (cs, next) := feedByte u b.toNat
      cs ++ lossyFrom next bs

def lossyChars (bytes : List UInt8) : List Char :=
  lossyFrom none bytes

def isBlank (c : Char) : Bool :=
  let n := c.toNat
  (9 ≤ n && n ≤ 13) || n == 0x20 || n == 0x85 || n == 0xa0 || n == 0x1680 ||
    (0x2000 ≤ n && n ≤ 0x200a) || n == 0x2028 || n == 0x2029 || n == 0x202f || n == 0x205f ||
    n == 0x3000

def shownText (bytes : List UInt8) : String :=
  String.ofList ((lossyChars bytes).reverse.dropWhile isBlank).reverse

end Fanout.Text
