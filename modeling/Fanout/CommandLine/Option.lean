import Fanout.Text.Digits

/-!
Options on a command line. An option is known by a long name, perhaps by a letter too, and is a flag
or takes a value; what is no option is an operand. Words are read from the left, and the first one
that ends the reading decides how it ends.
-/

namespace Fanout.CommandLine

structure OptionRule where
  name : String
  letter : Option Char := none
  value : Option (String → Bool) := none
  about : String := ""

structure OperandRule where
  name : String
  value : String → Bool
  about : String := ""

structure Rules where
  options : List OptionRule
  operands : List OperandRule := []

inductive UsageError where
  | noCommand
  | unknownCommand (word : String)
  | unknownOption (word : String)
  | missingValue (option : String)
  | unexpectedValue (option : String)
  | unusableValue (name value : String)
  | repeated (option : String)
  | unexpectedOperand (word : String)
  | missingOperand (name : String)
  deriving DecidableEq, Repr

inductive Halting where
  | help
  | misused (e : UsageError)
  deriving DecidableEq, Repr

structure Given where
  options : List (String × String) := []
  operands : List String := []
  deriving DecidableEq, Repr

namespace Given

def find? (g : Given) (name : String) : Option String :=
  g.options.lookup name

def has (g : Given) (name : String) : Bool :=
  (g.find? name).isSome

end Given

def looksLikeOption (word : String) : Bool :=
  word.startsWith "-" && word != "-"

def addOption (g : Given) (o : OptionRule) (value : String) : Except Halting Given :=
  if g.has o.name then .error (.misused (.repeated o.name))
  else if (o.value.map (· value)).getD true then
    .ok { g with options := g.options ++ [(o.name, value)] }
  else .error (.misused (.unusableValue o.name value))

def addOperand (r : Rules) (g : Given) (word : String) : Except Halting Given :=
  match r.operands[g.operands.length]? with
  | none => .error (.misused (.unexpectedOperand word))
  | some operand =>
      if operand.value word then .ok { g with operands := g.operands ++ [word] }
      else .error (.misused (.unusableValue operand.name word))

inductive Reading where
  | help
  | unknown
  | option (o : OptionRule) (value : Option String)

def readLong (r : Rules) (word : List Char) : Reading :=
  let name := String.ofList (word.takeWhile (· != '='))
  let value :=
    match word.dropWhile (· != '=') with
    | [] => none
    | _ :: cs => some (String.ofList cs)
  if name = "help" ∧ value = none then .help
  else
    match r.options.find? fun o => o.name == name with
    | some o => .option o value
    | none => .unknown

/-- Only options that take a value have letters, so that a word holds one letter. -/
def readShort (r : Rules) : List Char → Reading
  | [] => .unknown
  | c :: cs =>
      if c = 'h' then .help
      else
        match r.options.find? fun o => o.letter == some c with
        | none => .unknown
        | some o =>
            match cs with
            | [] => .option o none
            | '=' :: cs => .option o (some (String.ofList cs))
            | cs => .option o (some (String.ofList cs))

def readWord (r : Rules) (word : String) : Reading :=
  match word.toList with
  | '-' :: '-' :: cs => readLong r cs
  | '-' :: cs => readShort r cs
  | _ => .unknown

def checkOperands (r : Rules) (g : Given) : Except Halting Given :=
  match r.operands[g.operands.length]? with
  | none => .ok g
  | some operand => .error (.misused (.missingOperand operand.name))

def scan (r : Rules) (g : Given) : List String → Except Halting Given
  | [] => checkOperands r g
  | "--" :: words => words.foldlM (addOperand r) g >>= checkOperands r
  | word :: words =>
      if looksLikeOption word then
        match readWord r word with
        | .help => .error .help
        | .unknown => .error (.misused (.unknownOption word))
        | .option o (some value) =>
            if o.value.isNone then .error (.misused (.unexpectedValue o.name))
            else
              match addOption g o value with
              | .ok g => scan r g words
              | .error e => .error e
        | .option o none =>
            if o.value.isNone then
              match addOption g o "" with
              | .ok g => scan r g words
              | .error e => .error e
            else
              match words with
              | value :: words =>
                  if looksLikeOption value then .error (.misused (.missingValue o.name))
                  else
                    match addOption g o value with
                    | .ok g => scan r g words
                    | .error e => .error e
              | [] => .error (.misused (.missingValue o.name))
      else
        match addOperand r g word with
        | .ok g => scan r g words
        | .error e => .error e

end Fanout.CommandLine
