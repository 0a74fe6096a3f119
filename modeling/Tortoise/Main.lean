import Std.Time.DateTime.Timestamp
import Tortoise.Application.Run
import Tortoise.Log.Stamp

/-!
# The command line

The application with the files, the output and the clock of the computer it runs on.
-/

namespace Tortoise

def FileFault.ofError : IO.Error → FileFault
  | .noFileOrDirectory .. => .notFound
  | .inappropriateType .. => .notDirectory
  | e => .other (toString e)

def leadsToDirectory (path : String) : IO Bool := do
  try
    let place ← IO.FS.realPath path
    place.isDir
  catch _ => return false

def writeBytes (stream : IO.FS.Stream) (bytes : Bytes) : IO Unit := do
  stream.write ⟨bytes.toArray⟩
  stream.flush

instance : World IO where
  isDirectory path := do
    try
      let place ← IO.FS.realPath path
      return .ok (← place.isDir)
    catch e => return .error ⟨.stat, path, .ofError e⟩
  read path := do
    try
      if ← leadsToDirectory path then return .error ⟨.read, path, .isDirectory⟩
      return .ok (← IO.FS.readBinFile path).toList
    catch e => return .error ⟨.opening, path, .ofError e⟩
  write path content := do
    try
      if ← leadsToDirectory path then return .error ⟨.opening, path, .isDirectory⟩
      IO.FS.writeBinFile path ⟨content.toArray⟩
      return .ok ()
    catch e => return .error ⟨.opening, path, .ofError e⟩
  print text := do writeBytes (← IO.getStdout) text.bytes
  log format record := do
    let moment ← Std.Time.Timestamp.now
    let time := Log.stamp format moment.toNanosecondsSinceUnixEpoch.val.toNat
    writeBytes (← IO.getStderr) (Text.bytes (format.line (some time) record ++ "\n"))
  now := IO.monoNanosNow

def Environment.ofProcess : IO Environment := do
  let get (name : String) : IO String := return (← IO.getEnv name).getD ""
  return ⟨← get "LOG_LEVEL", ← get "TIMEOUT", ← get "MAX_STEPS"⟩

end Tortoise

open Tortoise in
/-- Runs the application and ends with the status 1 if it fails. -/
def main (args : List String) : IO UInt32 := do
  let report ← Application.run 0x4000000000000000 (← Environment.ofProcess) args
  match report.result with
  | .ok () => return 0
  | .error e =>
    writeBytes (← IO.getStderr) (Text.bytes ("Error: " ++ e.message ++ "\n"))
    return 1
