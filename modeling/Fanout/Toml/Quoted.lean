import Fanout.Text.Reader
import Fanout.Toml.Character

/-!
Strings of TOML: basic ones with escapes and literal ones without, on one line or on several.
Reading starts behind the opening delimiter and takes the closing one.
-/

namespace Fanout.Toml

open Text

def scalar? (n : Nat) : Option Char :=
  if n < 0xd800 ∨ (0xdfff < n ∧ n < 0x110000) then some (Char.ofNat n) else none

def readEscape : Reader Char
  | 'b' :: cs => some ('\x08', cs)
  | 't' :: cs => some ('\t', cs)
  | 'n' :: cs => some ('\n', cs)
  | 'f' :: cs => some ('\x0c', cs)
  | 'r' :: cs => some ('\r', cs)
  | '"' :: cs => some ('"', cs)
  | '\\' :: cs => some ('\\', cs)
  | 'u' :: cs => do
      let (n, cs) ← readFixed 16 4 cs
      let c ← scalar? n
      some (c, cs)
  | 'U' :: cs => do
      let (n, cs) ← readFixed 16 8 cs
      let c ← scalar? n
      some (c, cs)
  | _ => none

def readBasicChar : Reader Char
  | '"' :: _ => none
  | '\\' :: cs => readEscape cs
  | c :: cs => if isPlain c then some (c, cs) else none
  | [] => none

/-- The line in front of the input bounds the number of characters. -/
def readBasic : Reader String := fun cs => do
  let (text, cs) := readMany readBasicChar (cs.takeWhile (· != '\n')).length cs
  let (_, cs) ← readChar '"' cs
  some (String.ofList text, cs)

def readLiteralString : Reader String := fun cs => do
  let inside := fun c => isPlain c && c != '\''
  let (_, rest) ← readChar '\'' (cs.dropWhile inside)
  some (String.ofList (cs.takeWhile inside), rest)

def readContinuation : Reader (List Char) := fun cs => do
  let rest ← readNewline? (skipBlanks cs)
  some ([], (readMany readSpace rest.length rest).2)
where
  readSpace : Reader Unit := fun cs =>
    match readNewline? cs with
    | some rest => some ((), rest)
    | none =>
        match cs with
        | c :: rest => if isBlank c then some ((), rest) else none
        | [] => none

/-- One or two delimiters inside a text on several lines; three would end it. -/
def readInnerQuotes (q : Char) : Reader (List Char) := fun cs =>
  let run := cs.takeWhile (· == q)
  if run.length = 0 ∨ 2 < run.length then none else some (run, cs.drop run.length)

/-- The closing delimiter, before which up to two of its characters belong to the text. -/
def readClosingQuotes (q : Char) : Reader (List Char) := fun cs =>
  let run := cs.takeWhile (· == q)
  if run.length < 3 ∨ 5 < run.length then none
  else some (List.replicate (run.length - 3) q, cs.drop run.length)

def readMultilineBasicPart : Reader (List Char) := fun cs =>
  match cs with
  | '\\' :: rest =>
      match readContinuation rest with
      | some r => some r
      | none => do
          let (c, rest) ← readEscape rest
          some ([c], rest)
  | '"' :: _ => readInnerQuotes '"' cs
  | c :: rest =>
      match readNewline? cs with
      | some rest => some (['\n'], rest)
      | none => if isPlain c then some ([c], rest) else none
  | [] => none

def readMultilineLiteralPart : Reader (List Char) := fun cs =>
  match cs with
  | '\'' :: _ => readInnerQuotes '\'' cs
  | c :: rest =>
      match readNewline? cs with
      | some rest => some (['\n'], rest)
      | none => if isPlain c then some ([c], rest) else none
  | [] => none

/-- A line end right behind the opening delimiter does not belong to the text. -/
def readMultiline (q : Char) (part : Reader (List Char)) : Reader String := fun cs => do
  let cs := (readNewline? cs).getD cs
  let (parts, cs) := readMany part cs.length cs
  let (quotes, cs) ← readClosingQuotes q cs
  some (String.ofList (parts.flatten ++ quotes), cs)

def readString : Reader String
  | '"' :: '"' :: '"' :: cs => readMultiline '"' readMultilineBasicPart cs
  | '\'' :: '\'' :: '\'' :: cs => readMultiline '\'' readMultilineLiteralPart cs
  | '"' :: cs => readBasic cs
  | '\'' :: cs => readLiteralString cs
  | _ => none

end Fanout.Toml
