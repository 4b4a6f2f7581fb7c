import Fanout.Toml.Moment
import Fanout.Toml.Number
import Fanout.Toml.Quoted
import Fanout.Toml.Value

/-!
Keys and values as they are written. Arrays and inline tables nest, up to a fixed depth; a dotted
key may have that many parts. An inline table obeys the rules that hold for the tables of a
document: each key is set once, and a dotted key extends only what dotted keys have made.
-/

namespace Fanout.Toml

open Text

structure Path where
  parents : List String
  key : String
  deriving DecidableEq, Repr

def maxDepth : Nat :=
  79

/--
Applies `f` to the table at the end of `path`, making the tables that are missing on the way. The
latest table of an array of tables stands for the array. A value or an inline table is not
entered, and by a dotted key neither is a table that has its own header.
-/
def within (isDotted : Bool) (f : Origin → Table → Option (Origin × Table)) :
    List String → Origin → Table → Option (Origin × Table)
  | [], origin, t => f origin t
  | k :: path, origin, t =>
      match t.find? k with
      | none => do
          let made := if isDotted then Origin.dotted else Origin.parent
          let (o, inner) ← within isDotted f path made []
          some (origin, t.set k (.table o inner))
      | some (.table o inner) =>
          if o = .inline ∨ (isDotted ∧ o = .header) then none
          else do
            let (o, inner) ← within isDotted f path o inner
            some (origin, t.set k (.table o inner))
      | some (.tables (.table o inner :: older)) => do
          let (o, inner) ← within isDotted f path o inner
          some (origin, t.set k (.tables (.table o inner :: older)))
      | some _ => none

/-- Sets a key that is not set yet, in a table that dotted keys made iff the key is dotted. -/
def insert (isDotted : Bool) (key : String) (v : Value) (origin : Origin) (t : Table) :
    Option (Origin × Table) :=
  if (origin == .dotted) != isDotted then none
  else if (t.find? key).isSome then none
  else some (origin, t ++ [(key, v)])

def insertAt (path : Path) (v : Value) (origin : Origin) (t : Table) : Option (Origin × Table) :=
  within true (insert (!path.parents.isEmpty) path.key v) path.parents origin t

def inlineTable (pairs : List (Path × Value)) : Option Value := do
  let (origin, entries) ← pairs.foldlM (fun (o, t) (path, v) => insertAt path v o t) (.inline, [])
  some (.table origin entries)

def readBareKey : Reader String := fun cs =>
  let key := cs.takeWhile isBareKey
  if key = [] then none else some (String.ofList key, cs.drop key.length)

def readKeyPart : Reader String := fun cs =>
  match skipBlanks cs with
  | '"' :: rest => readBasic rest
  | '\'' :: rest => readLiteralString rest
  | rest => readBareKey rest

def readNextPart : Reader String := fun cs => do
  let (_, rest) ← readChar '.' (skipBlanks cs)
  readKeyPart rest

def pathOf : List String → String → Path
  | [], key => ⟨[], key⟩
  | next :: parts, key =>
      let path := pathOf parts next
      { path with parents := key :: path.parents }

def readKey : Reader Path := fun cs => do
  let (key, cs) ← readKeyPart cs
  let (parts, cs) := readMany readNextPart maxDepth cs
  if maxDepth ≤ parts.length then none
  else some (pathOf parts key, skipBlanks cs)

def readPair (item : Reader Value) : Reader (Path × Value) := fun cs => do
  let (path, cs) ← readKey cs
  let (_, cs) ← readChar '=' cs
  let (v, cs) ← item (skipBlanks cs)
  some ((path, v), cs)

/-- The items of an array behind its bracket; a comma may follow the last one. -/
def readArrayItems (item : Reader Value) : Nat → Reader (List Value)
  | 0, _ => none
  | most + 1, cs =>
      match skipFill (most + 1) cs with
      | ']' :: rest => some ([], rest)
      | cs => do
          let (v, cs) ← item cs
          match skipFill most cs with
          | ']' :: rest => some ([v], rest)
          | ',' :: rest => do
              let (vs, rest) ← readArrayItems item most rest
              some (v :: vs, rest)
          | _ => none

/-- The pairs of an inline table; no comma may follow the last one. -/
def readInlinePairs (item : Reader Value) : Nat → Reader (List (Path × Value))
  | 0, _ => none
  | most + 1, cs => do
      let (pair, cs) ← readPair item cs
      match skipBlanks cs with
      | '}' :: rest => some ([pair], rest)
      | ',' :: rest => do
          let (pairs, rest) ← readInlinePairs item most rest
          some (pair :: pairs, rest)
      | _ => none

def readInlineTable (item : Reader Value) : Reader Value := fun cs =>
  match skipBlanks cs with
  | '}' :: rest => some (.table .inline [], rest)
  | _ => do
      let (pairs, rest) ← readInlinePairs item cs.length cs
      let v ← inlineTable pairs
      some (v, rest)

def written (cs rest : List Char) : String :=
  String.ofList (cs.take (cs.length - rest.length))

def readNumeric : Reader Value := fun cs =>
  match readMoment cs with
  | some (_, rest) => some (.moment (written cs rest), rest)
  | none =>
      match readFloat cs with
      | some (_, rest) => some (.float (written cs rest), rest)
      | none => (readInteger cs).map fun (n, rest) => (.integer n, rest)

def readScalar : Reader Value := fun cs =>
  match cs with
  | '"' :: _ => (readString cs).map fun (s, rest) => (.string s, rest)
  | '\'' :: _ => (readString cs).map fun (s, rest) => (.string s, rest)
  | 't' :: _ => (readLiteral "true".toList cs).map fun (_, rest) => (.boolean true, rest)
  | 'f' :: _ => (readLiteral "false".toList cs).map fun (_, rest) => (.boolean false, rest)
  | _ => readNumeric cs

def readValue : Nat → Reader Value
  | 0 => readScalar
  | depth + 1 => fun cs =>
      match cs with
      | '[' :: rest => do
          let (vs, rest) ← readArrayItems (readValue depth) (rest.length + 1) rest
          some (.array vs, rest)
      | '{' :: rest => readInlineTable (readValue depth) rest
      | _ => readScalar cs

end Fanout.Toml
