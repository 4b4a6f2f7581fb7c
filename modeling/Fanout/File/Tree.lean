/-!
A tree of files and directories, and what reading a file by its path gives or which error it ends
in. Paths are walked from the root one name at a time, so the first name that cannot be passed
decides.
-/

namespace Fanout

inductive FileTree where
  | file (bytes : List UInt8)
  | directory (entries : List (String × FileTree))
  deriving Repr

inductive FileError where
  | notFound
  | notDirectory
  | isDirectory
  | denied
  | nameTooLong
  | nulInPath
  | notText
  deriving DecidableEq, Repr

namespace FileError

def message : FileError → String
  | .notFound => "No such file or directory (os error 2)"
  | .notDirectory => "Not a directory (os error 20)"
  | .isDirectory => "Is a directory (os error 21)"
  | .denied => "Permission denied (os error 13)"
  | .nameTooLong => "File name too long (os error 36)"
  | .nulInPath => "file name contained an unexpected NUL byte"
  | .notText => "stream did not contain valid UTF-8"

end FileError

namespace FileTree

def maxName : Nat := 255

def maxPath : Nat := 4095

def enter (chain : List FileTree) (name : String) : Except FileError (List FileTree) :=
  match chain with
  | .directory entries :: outer =>
      if name = "" ∨ name = "." then .ok chain
      else if name = ".." then .ok (if outer = [] then chain else outer)
      else if maxName < name.utf8ByteSize then .error .nameTooLong
      else
        match entries.lookup name with
        | some node => .ok (node :: chain)
        | none => .error .notFound
  | _ => .error .notDirectory

/-- The names of a path; a path that starts with a slash is walked from the root. -/
def walk (root : FileTree) (workdir : List String) (path : String) :
    Except FileError (List FileTree) :=
  let names := path.splitOn "/"
  let names := if path.startsWith "/" then names else workdir ++ names
  names.foldlM enter [root]

def read (root : FileTree) (workdir : List String) (path : String) :
    Except FileError (List UInt8) :=
  if path.contains '\x00' then .error .nulInPath
  else if path = "" then .error .notFound
  else if maxPath < path.utf8ByteSize then .error .nameTooLong
  else
    match walk root workdir path with
    | .ok (.file bytes :: _) => .ok bytes
    | .ok _ => .error .isDirectory
    | .error e => .error e

end FileTree

def decodeText (bytes : List UInt8) : Except FileError String :=
  match String.fromUTF8? ⟨bytes.toArray⟩ with
  | some s => .ok s
  | none => .error .notText

end Fanout
