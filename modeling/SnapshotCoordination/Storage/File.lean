import SnapshotCoordination.Failure
import SnapshotCoordination.Log.Instruction

/-!
# Committed files

A `File` is the history of one database file: the logs committed to it, oldest first, the
listeners that want to hear of commits, and how often its history was replayed to a reader.
Version `n` of a file reflects `n - 1` commits, so a file without commits is at version 1 and
the log behind version `n` is the one at place `n - 2`.
-/

namespace SnapshotCoordination

/-- The identity of something that listens for commits. -/
abbrev ListenerId := Nat

/-- The committed history of a file, with who listens to it. -/
structure File where
  commits : List Log
  listeners : List ListenerId
  /-- How many replays fed a reader. -/
  replays : Nat
  deriving DecidableEq

namespace File

/-- A file nobody has committed to. -/
def fresh : File := ⟨[], [], 0⟩

instance : Inhabited File := ⟨fresh⟩

/-- The version after the last commit. -/
def latest (f : File) : Version := ⟨f.commits.length + 1, 0⟩

/-- The log of the commit that made version `n`. -/
def logOf (f : File) (n : Nat) : Option Log := if n < 2 then none else f.commits[n - 2]?

/-- The logs that lead from one version to another, oldest first. -/
def logsBetween (f : File) (start target : Version) : List Log :=
  (List.range' (start.number + 1) (target.number - start.number)).filterMap f.logOf

/-- Commit a log. -/
def commit (f : File) (log : Log) : File := { f with commits := f.commits ++ [log] }

/-- Count one more replay. -/
def countReplay (f : File) : File := { f with replays := f.replays + 1 }

/-- Register a listener, once more if it is registered already. -/
def listen (f : File) (l : ListenerId) : File := { f with listeners := f.listeners ++ [l] }

/-- Take out every registration of a listener, and those of listeners that are gone. -/
def unlisten (alive : ListenerId → Bool) (f : File) (l : ListenerId) : File :=
  { f with listeners := f.listeners.filter fun x => alive x && x != l }

/-- Take out the registrations of listeners that are gone; those left are to be woken, in the
order in which they registered. -/
def sweepListeners (alive : ListenerId → Bool) (f : File) : File :=
  { f with listeners := f.listeners.filter alive }

end File

end SnapshotCoordination
