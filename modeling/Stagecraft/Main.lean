import Stagecraft.Binary64
import Stagecraft.CommandLine.Commands

/-!
# The program

The commands run on machine numbers and on the files of the machine.
-/

namespace Stagecraft.CommandLine

def fileErrorOf (e : IO.Error) : FileError :=
  match e with
  | .noFileOrDirectory .. => .missing
  | .alreadyExists .. => .alreadyExists
  | .inappropriateType _ code _ =>
    if code = 20 then .notDirectory else if code = 21 then .isDirectory else .other (toString e)
  | .invalidArgument _ code _ => if code = 36 then .nameTooLong else .other (toString e)
  | _ => .other (toString e)

def attempt {α : Type} (action : IO α) : IO (Except FileError α) := do
  match (← action.toBaseIO) with
  | .ok a => return .ok a
  | .error e => return .error (fileErrorOf e)

def kindOnDisk (p : Path) : IO (Option FileKind) := do
  match (← attempt (IO.FS.realPath p.text)) with
  | .ok found =>
    if (← found.isDir) then return some .directory
    else if (← found.pathExists) then return some .file
    else return none
  | .error _ => return none

instance : MonadFiles IO where
  kind? := kindOnDisk
  read p := attempt (IO.FS.readFile p.text)
  perform
    | .clear p => do
      match (← kindOnDisk p) with
      | some _ => attempt (IO.FS.removeDirAll p.text)
      | none => return .ok ()
    | .makeDirectories p => attempt (IO.FS.createDirAll p.text)
    | .write p text => attempt (IO.FS.writeFile p.text text)

end Stagecraft.CommandLine

open Stagecraft.CommandLine in
/-- Answers the command line, on the two output streams and with the exit code. -/
def main (words : List String) : IO UInt32 := do
  let outcome ← run (m := IO) Float words
  IO.print outcome.output
  IO.eprint outcome.errors
  return UInt32.ofNat outcome.code
