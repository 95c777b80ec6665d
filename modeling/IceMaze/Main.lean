import IceMaze.Command.Execute

/-!
The program: commands over the files of the disk.
-/

namespace IceMaze

/-- Error numbers of the disk come as they are or negated. -/
def errorNumber (code : UInt32) : UInt32 := min code (0 - code)

def fileError (e : IO.Error) : FileError :=
  match e with
  | .noFileOrDirectory .. => .notFound
  | .inappropriateType _ code _ =>
    if errorNumber code = 20 then .notFolder else if errorNumber code = 21 then .isFolder
    else .other (toString e)
  | .invalidArgument _ code _ =>
    if errorNumber code = 36 then .longName else .other (toString e)
  | _ => .other (toString e)

def attempt {α : Type} (action : IO α) : IO (Except FileError α) := do
  try
    return .ok (← action)
  catch e =>
    return .error (fileError e)

def readDisk (path : String) : IO (Except FileError String) := do
  match ← attempt (IO.FS.readBinFile path) with
  | .error e => return .error e
  | .ok bytes => return (String.fromUTF8? bytes).elim (.error .notUnicode) .ok

def disk : FileAccess IO where
  read := readDisk
  write path text := attempt (IO.FS.writeFile path text)

end IceMaze

def main (words : List String) : IO UInt32 := do
  let outcome ← IceMaze.Command.run IceMaze.disk words
  IO.print outcome.stdout
  IO.eprint outcome.stderr
  return outcome.code.toUInt32
