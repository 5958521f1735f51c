import Switchboard.Memory.Store
import Switchboard.FileSystem.Basic
import Switchboard.Failure

/-!
# Memory in a file

A store that keeps its snapshot in a file. Every change is carried out in memory first and then
written: to a draft beside the file, which takes the place of the file once it is complete. So
the file always holds some snapshot as a whole, and a change whose writing fails is written
with the next one.

A file that holds no snapshot is copied aside before the store begins empty.
-/

namespace Switchboard

/-- A store and the path of its file. -/
structure FileStore where
  path : String
  store : MemoryStore

namespace FileStore

/-- The name under which a file that holds no snapshot is kept. -/
def backupPath (path : String) (now : Timestamp) : String :=
  Path.withFileName path
    ((Path.fileName path).getD "" ++ ".corrupted." ++ toString now.unixSeconds)

/-- The snapshot in a file, and the files after a text that is none was copied aside. That a
copy cannot be made is not reported. -/
def load (fs : FileSystem) (path : String) (now : Timestamp) :
    Except MemoryFailure (MemorySnapshot × FileSystem) :=
  match fs.readText path with
  | .error .notFound => .ok ({}, fs)
  | .error f => .error (.load path f.message)
  | .ok text =>
    match Json.decode MemorySnapshot.read text with
    | .ok s => .ok (s, fs)
    | .error _ =>
      match fs.copy path (backupPath path now) with
      | .ok fs' => .ok ({}, fs')
      | .error _ => .ok ({}, fs)

/-- The store of a file. -/
def openAt (fs : FileSystem) (path : String) (now : Timestamp) :
    Except MemoryFailure (FileStore × FileSystem) :=
  (load fs path now).map fun r => (⟨path, .ofSnapshot r.1⟩, r.2)

/-- The path of the file that is written first. -/
def draftPath (path : String) : String :=
  Path.withExtension path "tmp"

/-- The text of the file. -/
def fileText (s : FileStore) : String :=
  s.store.toMemorySnapshot.toJson.pretty

/-- Writes the file. The files may have changed even if that fails. -/
def persist (s : FileStore) (fs : FileSystem) : Except MemoryFailure Unit × FileSystem :=
  match fs.write (draftPath s.path) (.text s.fileText) with
  | .error f => (.error (.persistence (draftPath s.path) f.message), fs)
  | .ok fs' =>
    match fs'.rename (draftPath s.path) s.path with
    | .error f => (.error (.persistence s.path f.message), fs')
    | .ok fs'' => (.ok (), fs'')

/-- Carries out a change in memory. -/
def change (s : FileStore) (t : Stamps) (u : MemoryUpdate) : FileStore :=
  { s with store := s.store.update t u }

/-- Carries out a change and writes it. -/
def update (s : FileStore) (fs : FileSystem) (t : Stamps) (u : MemoryUpdate) :
    Except MemoryFailure Unit × FileStore × FileSystem :=
  let s' := s.change t u
  let written := s'.persist fs
  (written.1, s', written.2)

end FileStore

end Switchboard
