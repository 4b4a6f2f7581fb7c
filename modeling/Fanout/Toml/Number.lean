import Fanout.Text.Reader

/-!
Numbers of TOML. Single underscores may stand between digits. An integer fits sixty-four signed
bits; a float that rounds to positive infinity is refused.
-/

namespace Fanout.Toml

open Text

def moreDigits (base : Nat) : List Char → List Char × List Char
  | '_' :: c :: cs =>
      if isDigit base c then
        let (ds, rest) := moreDigits base cs
        (c :: ds, rest)
      else ([], '_' :: c :: cs)
  | c :: cs =>
      if isDigit base c then
        let (ds, rest) := moreDigits base cs
        (c :: ds, rest)
      else ([], c :: cs)
  | [] => ([], [])

def readSeparatedDigits (base : Nat) : Reader (List Char)
  | c :: cs =>
      if isDigit base c then
        let (ds, rest) := moreDigits base cs
        some (c :: ds, rest)
      else none
  | [] => none

def readSign (cs : List Char) : Bool × List Char :=
  match cs with
  | '-' :: rest => (true, rest)
  | '+' :: rest => (false, rest)
  | _ => (false, cs)

def readWhole : Reader (List Char)
  | '0' :: cs => some (['0'], cs)
  | cs => readSeparatedDigits 10 cs

def inRange (n : Int) : Bool :=
  -9223372036854775808 ≤ n && n < 9223372036854775808

def readPrefixed (base : Nat) : Reader Int := fun cs => do
  let (ds, rest) ← readSeparatedDigits base cs
  let n ← value? base ds
  if inRange n then some (n, rest) else none

def readInteger : Reader Int
  | '0' :: 'x' :: cs => readPrefixed 16 cs
  | '0' :: 'o' :: cs => readPrefixed 8 cs
  | '0' :: 'b' :: cs => readPrefixed 2 cs
  | cs => do
      let (negative, rest) := readSign cs
      let (ds, rest) ← readWhole rest
      let n ← value? 10 ds
      let n : Int := if negative then -n else n
      if inRange n then some (n, rest) else none

def readFraction : Reader (List Char) := fun cs => do
  let (_, cs) ← readChar '.' cs
  readSeparatedDigits 10 cs

def readExponent : Reader Int
  | e :: cs =>
      if e = 'e' ∨ e = 'E' then do
        let (negative, rest) := readSign cs
        let (ds, rest) ← readSeparatedDigits 10 rest
        let n ← value? 10 ds
        some (if negative then -n else n, rest)
      else none
  | [] => none

/--
Whether `digits · 10 ^ exponent` lies at or above the middle between the largest finite double and
the power of two after it, where rounding to the nearest double gives infinity.
-/
def roundsToInfinity (digits : Nat) (exponent : Int) : Bool :=
  if digits = 0 then false
  else
    let magnitude : Int := (decimal digits).length + exponent
    if magnitude < 308 then false
    else if 310 < magnitude then true
    else
      let limit := Nat.pow 2 1024 - Nat.pow 2 970
      if 0 ≤ exponent then limit ≤ digits * Nat.pow 10 exponent.toNat
      else limit * Nat.pow 10 (-exponent).toNat ≤ digits

def readPointed : Reader Unit := fun cs => do
  let (negative, rest) := readSign cs
  let (whole, rest) ← readWhole rest
  let (fraction, hasFraction, rest) :=
    match readFraction rest with
    | some (ds, rest) => (ds, true, rest)
    | none => ([], false, rest)
  let (exponent, hasExponent, rest) :=
    match readExponent rest with
    | some (n, rest) => (n, true, rest)
    | none => (0, false, rest)
  let digits ← value? 10 (whole ++ fraction)
  if !hasFraction && !hasExponent then none
  else if !negative && roundsToInfinity digits (exponent - fraction.length) then none
  else some ((), rest)

def readSpecial : Reader Unit := fun cs =>
  let (_, cs) := readSign cs
  orElse (readLiteral "inf".toList) (readLiteral "nan".toList) cs

def readFloat : Reader Unit :=
  orElse readPointed readSpecial

end Fanout.Toml
