import Fanout.Text.Printable
import Fanout.Text.Digits

/-!
Quoted texts. In a description every character that does not show is written as an escape; in JSON
only the quote, the backslash and the control characters are.
-/

namespace Fanout.Text

def describedChar (c : Char) : List Char :=
  if c = '"' then ['\\', '"']
  else if c = '\\' then ['\\', '\\']
  else if c = '\n' then ['\\', 'n']
  else if c = '\r' then ['\\', 'r']
  else if c = '\t' then ['\\', 't']
  else if c = '\x00' then ['\\', '0']
  else if isShown c then [c]
  else ['\\', 'u', '{'] ++ numeral 16 c.toNat ++ ['}']

def described (s : String) : String :=
  String.ofList ('"' :: (s.toList.flatMap describedChar ++ ['"']))

def jsonChar (c : Char) : List Char :=
  if c = '"' then ['\\', '"']
  else if c = '\\' then ['\\', '\\']
  else if c = '\n' then ['\\', 'n']
  else if c = '\r' then ['\\', 'r']
  else if c = '\t' then ['\\', 't']
  else if c = '\x08' then ['\\', 'b']
  else if c = '\x0c' then ['\\', 'f']
  else if c.toNat < 32 then "\\u00".toList ++ hexByte c.toNat.toUInt8
  else [c]

def jsonString (s : String) : String :=
  String.ofList ('"' :: (s.toList.flatMap jsonChar ++ ['"']))

end Fanout.Text
