import Raceway.Command.Run
import Std.Time.DateTime.Timestamp
/-!
# The program

The program runs the command that its arguments ask for on the file system of the machine, and draws
seeds from its clock.

## Main definitions

* `main`: the program.
-/

namespace Raceway

/-- The error code has the given number, with either sign. -/
def hasNumber (code number : UInt32) : Bool :=
  code == number || code == 0 - number

/-- The reason of an error of the machine. -/
def machineError : IO.Error → DiskError
  | .noFileOrDirectory .. => .notFound
  | .alreadyExists .. => .taken
  | .inappropriateType _ code details =>
    if hasNumber code 20 then .notFolder
    else if hasNumber code 21 then .isFolder
    else .other details
  | .resourceBusy .. => .busy
  | e => .other (toString e)

/-- An action of the machine with its error as a value. -/
def attempt {α : Type} (act : IO α) : IO (Except DiskError α) := do
  match ← act.toBaseIO with
  | .ok a => return .ok a
  | .error e => return .error (machineError e)

/-- Carry out a step on the machine. -/
def machineChange : Change → IO Unit
  | .makeFolders p => IO.FS.createDirAll p
  | .clear p => discard (IO.FS.Handle.mk p .write)
  | .touch p => discard (IO.FS.Handle.mk p .append)
  | .append p bytes => do
    let file ← IO.FS.Handle.mk p .append
    file.write bytes
    file.flush
  | .sync _ => return
  | .rename source target => IO.FS.rename source target

/-- The file system of the machine. -/
def machineDisk : Disk IO where
  read p := attempt (IO.FS.readBinFile p)
  change c := attempt (machineChange c)

/-- Draw a seed from the clock. -/
def clockDraw : IO SeedDraw := do
  let now ← Std.Time.Timestamp.now
  let seconds := now.toSecondsSinceUnixEpoch.val.toNat
  let nanoseconds := now.toNanosecondsSinceUnixEpoch.val.toNat
  return ⟨UInt64.ofNat nanoseconds, UInt64.ofNat seconds⟩

end Raceway

open Raceway in
/-- The program. -/
def main (arguments : List String) : IO UInt32 := do
  let printed ← runCommand machineDisk clockDraw arguments
  IO.print printed.out
  IO.eprint printed.err
  return UInt32.ofNat printed.code
