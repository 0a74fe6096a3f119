import Tortoise.Disk.Basic
import Tortoise.Log.Line

/-!
# The world of the application

What the application can do outside itself: files, printing, logging and a look at a clock.
`MemoryWorld` is a world in memory whose clock stands still.
-/

namespace Tortoise

class World (m : Type → Type) extends FileSystem m where
  /-- Prints on the standard output. -/
  print : Text → m Unit
  /-- Writes a log line. -/
  log : Log.Format → Log.Record → m Unit
  /-- The nanoseconds since some fixed moment. -/
  now : m Nat

structure MemoryWorld where
  disk : Disk := {}
  printed : Text := []
  /-- The records that were logged, latest first. -/
  logged : List (Log.Format × Log.Record) := []

namespace MemoryWorld

def onDisk {α : Type} (act : StateM Disk α) : StateM MemoryWorld α := fun s =>
  let (a, disk) := act.run s.disk
  (a, { s with disk })

instance : World (StateM MemoryWorld) where
  isDirectory path := onDisk (FileSystem.isDirectory path)
  read path := onDisk (FileSystem.read path)
  write path content := onDisk (FileSystem.write path content)
  print text := modify fun s => { s with printed := s.printed ++ text }
  log format record := modify fun s => { s with logged := (format, record) :: s.logged }
  now := return 0

end MemoryWorld

end Tortoise
