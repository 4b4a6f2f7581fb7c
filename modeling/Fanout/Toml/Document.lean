import Fanout.Toml.Item

/-!
TOML documents. The text is read line by line, and the lines are then put together into one table:
a header opens a table that no earlier line has opened, and the pairs below it go there.
-/

namespace Fanout.Toml

open Text

inductive Line where
  | header (path : Path)
  | element (path : Path)
  | pair (path : Path) (v : Value)
  deriving Repr

def readHeader : Reader Line := fun cs => do
  let (path, cs) ← readKey cs
  let (_, cs) ← readChar ']' cs
  some (.header path, cs)

def readElement : Reader Line := fun cs => do
  let (path, cs) ← readKey cs
  let (_, cs) ← readLiteral [']', ']'] cs
  some (.element path, cs)

def readContent : Reader Line
  | '[' :: '[' :: cs => readElement cs
  | '[' :: cs => readHeader cs
  | cs => do
      let ((path, v), cs) ← readPair (readValue maxDepth) cs
      some (.pair path v, cs)

def readLines : Nat → List Char → Option (List Line)
  | 0, _ => none
  | most + 1, cs =>
      match skipBlanks cs with
      | [] => some []
      | rest =>
          match readLineEnd? rest with
          | some rest => readLines most rest
          | none => do
              let (line, rest) ← readContent rest
              let rest ← readLineEnd? rest
              let lines ← readLines most rest
              some (line :: lines)

/-- A table may be opened once, unless it was only a parent in other headers before. -/
def openTable (key : String) (origin : Origin) (t : Table) : Option (Origin × Table) :=
  match t.find? key with
  | none => some (origin, t.set key (.table .header []))
  | some (.table .parent inner) => some (origin, t.set key (.table .header inner))
  | some _ => none

def openElement (key : String) (origin : Origin) (t : Table) : Option (Origin × Table) :=
  match t.find? key with
  | none => some (origin, t.set key (.tables [.table .header []]))
  | some (.tables elements) => some (origin, t.set key (.tables (.table .header [] :: elements)))
  | some _ => none

structure Draft where
  origin : Origin := .header
  root : Table := []
  current : List String := []

namespace Draft

def change (d : Draft) (path : List String) (f : Origin → Table → Option (Origin × Table)) :
    Option Draft := do
  let (origin, root) ← within false f path d.origin d.root
  some { d with origin, root }

def add (d : Draft) : Line → Option Draft
  | .header path => do
      let d ← d.change path.parents (openTable path.key)
      some { d with current := path.parents ++ [path.key] }
  | .element path => do
      let d ← d.change path.parents (openElement path.key)
      some { d with current := path.parents ++ [path.key] }
  | .pair path v => d.change d.current (insertAt path v)

end Draft

def Table.ofLines? (lines : List Line) : Option Table := do
  let d ← lines.foldlM Draft.add {}
  some d.root

def withoutMark : List Char → List Char
  | '\ufeff' :: cs => cs
  | cs => cs

def Table.ofChars? (cs : List Char) : Option Table := do
  let cs := withoutMark cs
  let lines ← readLines (cs.length + 1) cs
  Table.ofLines? lines

def Table.ofText? (text : String) : Option Table :=
  Table.ofChars? text.toList

end Fanout.Toml
