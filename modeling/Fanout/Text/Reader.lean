import Fanout.Text.Digits

/-!
Readers over character lists. A reader takes a front part of its input and gives what it denotes
and the rest, or refuses the input.
-/

namespace Fanout.Text

abbrev Reader (α : Type) :=
  List Char → Option (α × List Char)

def readChar (c : Char) : Reader Unit
  | [] => none
  | x :: xs => if x = c then some ((), xs) else none

def readLiteral : List Char → Reader Unit
  | [], cs => some ((), cs)
  | c :: word, cs => do
      let (_, cs) ← readChar c cs
      readLiteral word cs

def readDigits (base most : Nat) : Reader (List Char) := fun cs =>
  let ds := cs.takeWhile (isDigit base)
  if ds = [] ∨ most < ds.length then none
  else some (ds, cs.dropWhile (isDigit base))

def readFixed (base width : Nat) : Reader Nat := fun cs =>
  let ds := cs.take width
  if ds.length < width then none
  else do
    let n ← value? base ds
    some (n, cs.drop width)

def orElse {α : Type} (first second : Reader α) : Reader α := fun cs =>
  match first cs with
  | some r => some r
  | none => second cs

/-- As many items as there are. Each item takes input, so `most` is the input's length. -/
def readMany {α : Type} (item : Reader α) : Nat → List Char → List α × List Char
  | 0, cs => ([], cs)
  | most + 1, cs =>
      match item cs with
      | none => ([], cs)
      | some (a, rest) =>
          let (as, rest) := readMany item most rest
          (a :: as, rest)

theorem readChar_cons (c : Char) (cs : List Char) : readChar c (c :: cs) = some ((), cs) := by
  simp [readChar]

end Fanout.Text
