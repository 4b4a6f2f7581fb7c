namespace Fanout.Toml

def isBlank (c : Char) : Bool :=
  c == ' ' || c == '\t'

def isPlain (c : Char) : Bool :=
  c == '\t' || (32 ≤ c.toNat && c.toNat != 127)

def isBareKey (c : Char) : Bool :=
  c.isAlphanum || c == '_' || c == '-'

def skipBlanks (cs : List Char) : List Char :=
  cs.dropWhile isBlank

def readNewline? : List Char → Option (List Char)
  | '\n' :: rest => some rest
  | '\r' :: '\n' :: rest => some rest
  | _ => none

def skipComment (cs : List Char) : List Char :=
  match cs with
  | '#' :: rest => rest.dropWhile isPlain
  | _ => cs

def readLineEnd? (cs : List Char) : Option (List Char) :=
  match skipComment (skipBlanks cs) with
  | [] => some []
  | rest => readNewline? rest

def skipFill : Nat → List Char → List Char
  | 0, cs => cs
  | most + 1, cs =>
      let cs := skipBlanks cs
      match cs with
      | '#' :: rest =>
          match readNewline? (rest.dropWhile isPlain) with
          | some rest => skipFill most rest
          | none => cs
      | _ =>
          match readNewline? cs with
          | some rest => skipFill most rest
          | none => cs

end Fanout.Toml
