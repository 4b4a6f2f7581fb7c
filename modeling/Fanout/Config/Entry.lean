import Fanout.Address.Text
import Fanout.Toml.Document
import Fanout.Config.Error

/-!
Configurations as lists of settings. A schema names the settings of a configuration, in the order
in which they are written, and says of each what values it takes. Writing puts one setting on a
line; reading starts from the default configuration and overlays the settings that a document has.
-/

namespace Fanout

open Text

inductive Kind where
  | number (bound : Nat)
  | flag
  | address
  deriving DecidableEq, Repr

inductive Entry where
  | number (n : Nat)
  | flag (b : Bool)
  | address (ip : Ip)
  deriving DecidableEq, Repr

namespace Entry

/-- A number has a written form only in the range of TOML integers. -/
def chars? : Entry → Option (List Char)
  | .number n => if Toml.inRange n then some (decimal n) else none
  | .flag true => some "true".toList
  | .flag false => some "false".toList
  | .address ip => some ('"' :: (ip.chars ++ ['"']))

def ofValue? : Kind → Toml.Value → Option Entry
  | .number bound, .integer n => if 0 ≤ n ∧ n < bound then some (.number n.toNat) else none
  | .flag, .boolean b => some (.flag b)
  | .address, .string s => (Ip.ofText? s).map .address
  | _, _ => none

end Entry

structure Schema (C F : Type) where
  fields : List F
  key : F → String
  kind : F → Kind
  get : C → F → Entry
  put : C → F → Entry → C

namespace Schema

variable {C F : Type}

def field? (s : Schema C F) (key : String) : Option F :=
  s.fields.find? (s.key · == key)

def line? (s : Schema C F) (c : C) (f : F) : Option (List Char) := do
  let value ← (s.get c f).chars?
  some ((s.key f).toList ++ " = ".toList ++ value ++ ['\n'])

def lines? (s : Schema C F) (c : C) (fs : List F) : Option (List Char) := do
  let ls ← fs.mapM (s.line? c)
  some ls.flatten

def toToml? (s : Schema C F) (c : C) : Option String :=
  (s.lines? c s.fields).map String.ofList

/-- Keys that name no setting are passed over. -/
def overlay (s : Schema C F) (c : C) (key : String) (v : Toml.Value) : Except ConfigError C :=
  match s.field? key with
  | none => .ok c
  | some f =>
      match Entry.ofValue? (s.kind f) v with
      | some e => .ok (s.put c f e)
      | none => .error (.parse (key ++ " has a value of the wrong type or range"))

def ofTable (s : Schema C F) (default : C) (t : Toml.Table) : Except ConfigError C :=
  t.foldlM (fun c (key, v) => s.overlay c key v) default

def ofToml (s : Schema C F) (default : C) (text : String) : Except ConfigError C :=
  match Toml.Table.ofText? text with
  | none => .error (.parse "the text is not a TOML document")
  | some t => s.ofTable default t

end Schema

end Fanout
