import SnapshotCoordination.Directory
import SnapshotCoordination.FilePath
import SnapshotCoordination.Storage.Cursor

/-!
# The in-memory storage engine

An `Engine` keeps the committed files by the keys of their paths. A file comes into being the
first time anyone looks at it. Two faults can be switched on: no cursor can be opened, and no
commit notifier can be made.
-/

namespace SnapshotCoordination

/-- Files by key, and the faults switched on. -/
structure Engine where
  files : Directory File
  cursorsFail : Bool
  notifiersFail : Bool
  deriving DecidableEq

namespace Engine

/-- An engine nobody has used. -/
def fresh : Engine := ⟨.empty, false, false⟩

instance : Inhabited Engine := ⟨fresh⟩

/-- The file under a key. -/
def file (e : Engine) (key : String) : File := (e.files.find? key).getD .fresh

/-- Put a file under a key. -/
def setFile (e : Engine) (key : String) (f : File) : Engine :=
  { e with files := e.files.set key f }

/-- Look at the file under a key, which comes into being if it is not there. -/
def touch (e : Engine) (key : String) : Engine := e.setFile key (e.file key)

/-- What is put under one key is seen under that key and under no other. -/
theorem file_setFile (e : Engine) (key k : String) (f : File) :
    (e.setFile key f).file k = if k = key then f else e.file k := by
  simp only [file, setFile, Directory.find?_set]
  split <;> rfl

/-- To look at a file changes none. -/
theorem file_touch (e : Engine) (key k : String) : (e.touch key).file k = e.file k := by
  rw [touch, file_setFile]
  split
  · next h => rw [h]
  · rfl

/-! ## Services -/

/-- Open a cursor on the file of a path. The engine is known as `id` to whoever asks. -/
def openCursor (e : Engine) (id : Nat) (path : String) : Engine × Except Failure Cursor :=
  if e.cursorsFail then (e, .error (.storage (.tooManyOpenFiles path)))
  else (e.touch (FilePath.key path), .ok (.onFile ⟨id, FilePath.key path⟩))

/-- Commit a log to the file of a path, and give the version it made. -/
def commit (e : Engine) (path : String) (log : Log) : Engine × Version :=
  let file := (e.file (FilePath.key path)).commit log
  (e.setFile (FilePath.key path) file, file.latest)

/-- The latest version of the file of a path. -/
def latest (e : Engine) (path : String) : Engine × Version :=
  (e.touch (FilePath.key path), (e.file (FilePath.key path)).latest)

/-- Register a listener for commits to the file of a path, and give the key of the file. -/
def listen (e : Engine) (path : String) (l : ListenerId) : Engine × Except Failure String :=
  if e.notifiersFail then (e, .error (.storage .noNotificationPipe))
  else
    let key := FilePath.key path
    (e.setFile key ((e.file key).listen l), .ok key)

/-- What an engine shows of itself. -/
def render (e : Engine) : String := s!"MemoryEngine \x7b files: {e.files.size}, .. \x7d"

end Engine

end SnapshotCoordination
