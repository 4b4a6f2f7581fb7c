import Fanout.Address.Ip
import Fanout.Text.Reader

/-!
The text of an IP address. An IPv4 address is four decimal octets without leading zeros; an IPv6
address is eight hexadecimal groups in which the first longest run of two or more zero groups is
written `::`, save that a mapped address ends in its four octets.
-/

namespace Fanout.Ip

open Text

def joinWith (sep : Char) : List (List Char) → List Char
  | [] => []
  | [x] => x
  | x :: y :: ys => x ++ sep :: joinWith sep (y :: ys)

def octetsText (a b c d : UInt8) : List Char :=
  joinWith '.' ([a, b, c, d].map fun o => decimal o.toNat)

def groupsText (gs : List UInt16) : List Char :=
  joinWith ':' (gs.map fun g => numeral 16 g.toNat)

def zeroRun (gs : List UInt16) : Nat :=
  (gs.takeWhile (· == 0)).length

def longestZeroRun (i : Nat) : List UInt16 → Nat × Nat
  | [] => (i, 0)
  | g :: gs =>
      let later := longestZeroRun (i + 1) gs
      let here := zeroRun (g :: gs)
      if here < later.2 then later else (i, here)

def compressed (gs : List UInt16) : List Char :=
  let run := longestZeroRun 0 gs
  if 2 ≤ run.2 then
    groupsText (gs.take run.1) ++ ':' :: ':' :: groupsText (gs.drop (run.1 + run.2))
  else groupsText gs

def chars (ip : Ip) : List Char :=
  match ip with
  | .v4 a b c d => octetsText a b c d
  | .v6 .. =>
      match ip.mapped? with
      | some (.v4 a b c d) => "::ffff:".toList ++ octetsText a b c d
      | _ => compressed ip.groups

def text (ip : Ip) : String :=
  String.ofList ip.chars

def readOctet : Reader UInt8 := fun cs => do
  let (ds, rest) ← readDigits 10 3 cs
  let n ← value? 10 ds
  if 255 < n ∨ (1 < ds.length ∧ ds.head? = some '0') then none
  else some (n.toUInt8, rest)

def readV4 : Reader (UInt8 × UInt8 × UInt8 × UInt8) := fun cs => do
  let (a, cs) ← readOctet cs
  let (_, cs) ← readChar '.' cs
  let (b, cs) ← readOctet cs
  let (_, cs) ← readChar '.' cs
  let (c, cs) ← readOctet cs
  let (_, cs) ← readChar '.' cs
  let (d, cs) ← readOctet cs
  some ((a, b, c, d), cs)

def readGroup : Reader UInt16 := fun cs => do
  let (ds, rest) ← readDigits 16 4 cs
  let n ← value? 16 ds
  some (n.toUInt16, rest)

def separated {α : Type} (first : Bool) (read : Reader α) : Reader α := fun cs =>
  if first then read cs
  else do
    let (_, cs) ← readChar ':' cs
    read cs

/--
Groups in front of the input, at most `room` of them, and whether they end in an IPv4 address,
which takes the place of two groups.
-/
def readGroups (room : Nat) (first : Bool) (cs : List Char) : List UInt16 × Bool × List Char :=
  match room with
  | 0 => ([], false, cs)
  | room + 1 =>
      match if room = 0 then none else separated first readV4 cs with
      | some ((a, b, c, d), rest) => ([groupOf a b, groupOf c d], true, rest)
      | none =>
          match separated first readGroup cs with
          | none => ([], false, cs)
          | some (g, rest) =>
              let (gs, embedded, rest) := readGroups room false rest
              (g :: gs, embedded, rest)

/-- The zero groups that `::` stands for are at least one. -/
def readV6 : Reader Ip := fun cs => do
  let (head, embedded, rest) := readGroups 8 true cs
  if head.length = 8 then
    let ip ← ofGroups? head
    some (ip, rest)
  else if embedded then none
  else
    let (_, rest) ← readChar ':' rest
    let (_, rest) ← readChar ':' rest
    let (tail, _, rest) := readGroups (7 - head.length) true rest
    let zeros := List.replicate (8 - head.length - tail.length) 0
    let ip ← ofGroups? (head ++ zeros ++ tail)
    some (ip, rest)

def read : Reader Ip := fun cs =>
  match readV4 cs with
  | some ((a, b, c, d), rest) => some (.v4 a b c d, rest)
  | none => readV6 cs

def ofChars? (cs : List Char) : Option Ip :=
  match read cs with
  | some (ip, []) => some ip
  | _ => none

def ofText? (s : String) : Option Ip :=
  ofChars? s.toList

end Fanout.Ip
