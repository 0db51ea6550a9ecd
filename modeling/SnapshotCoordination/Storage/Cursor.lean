import SnapshotCoordination.Replay.LogReader
import SnapshotCoordination.Storage.File

/-!
# Snapshot cursors

A `Cursor` looks at one file. While it reads, it holds the version it reads; a read can be
started anywhere in the history, and from there the cursor only moves forward, either silently
(`advance`) or while the logs in between are replayed to a reader (`follow`). A step that fails
leaves the cursor where it was.
-/

namespace SnapshotCoordination

/-- A file of an engine, by the key of its path. -/
structure FileId where
  engine : Nat
  key : String
  deriving DecidableEq

/-- A view of a file at a version, or at none while nothing is read. -/
structure Cursor where
  file : FileId
  current : Option Version
  deriving DecidableEq

namespace Cursor

/-- A cursor on a file, before its first read. -/
def onFile (file : FileId) : Cursor := ⟨file, none⟩

def isReading (c : Cursor) : Bool := c.current.isSome

/-- Start to read at the version asked for, or at the latest one. -/
def beginRead (c : Cursor) (f : File) (asked : Option Version) : Except Failure Cursor :=
  let version := asked.getD f.latest
  if version.isUnset ∨ f.latest < version then
    .error (.storage (.missingVersion version f.latest))
  else .ok { c with current := some version }

/-- Stop reading. -/
def endRead (c : Cursor) : Cursor := { c with current := none }

/-- Where an advance to the version asked for, or to the latest one, starts and ends. -/
def route (c : Cursor) (f : File) (asked : Option Version) : Except Failure (Version × Version) :=
  match c.current with
  | none => .error (.storage .noActiveRead)
  | some current =>
    let target := asked.getD f.latest
    if target < current then .error (.storage (.wouldGoBack current target))
    else if f.latest < target then .error (.storage (.missingVersion target f.latest))
    else .ok (current, target)

/-- Move to the version asked for, or to the latest one. -/
def advance (c : Cursor) (f : File) (asked : Option Version) : Except Failure Cursor :=
  match c.route f asked with
  | .ok (_, target) => .ok { c with current := some target }
  | .error failure => .error failure

/-- What comes of a replay: the file that counted it, the reader that was fed, and the cursor at
its target. -/
structure Replay (σ : Type) where
  file : File
  reader : σ
  outcome : Except Failure Cursor

/-- Move to the version asked for, or to the latest one, while a reader is fed the logs of every
commit on the way. The replay counts even if the reader refuses it. -/
def follow {σ : Type} [LogReader σ] (c : Cursor) (f : File) (asked : Option Version)
    (reader : σ) : Replay σ :=
  match c.route f asked with
  | .error failure => ⟨f, reader, .error failure⟩
  | .ok (current, target) =>
    match LogReader.replay reader (f.logsBetween current target).flatten with
    | (reader', none) => ⟨f.countReplay, reader', .ok { c with current := some target }⟩
    | (reader', some failure) => ⟨f.countReplay, reader', .error failure⟩

end Cursor

end SnapshotCoordination
