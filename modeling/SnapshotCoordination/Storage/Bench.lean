import SnapshotCoordination.Replay.ChangeRecorder
import SnapshotCoordination.Storage.Engine

/-!
# A workbench for an engine

A `Bench` drives one engine by hand, through cursors, listeners and notifiers that go by name.
Besides the readers of the library it can feed two plain ones: an `InstructionCounter`, and a
`LogTape` that keeps what it is fed and refuses on demand. A run that names a cursor or a
notifier that is not there has no answers at all.
-/

namespace SnapshotCoordination

/-- Counts the instructions it is fed. -/
structure InstructionCounter where
  count : Nat
  deriving DecidableEq

instance : LogReader InstructionCounter where
  read c _ := (⟨c.count + 1⟩, none)
  finish c := (c, none)

/-- Keeps the instructions it is fed. -/
structure LogTape where
  log : Log
  /-- How often it was told that a log is complete. -/
  completed : Nat
  /-- How many instructions it takes in before it refuses one. -/
  failAt : Option Nat
  /-- Whether it refuses to be told that a log is complete. -/
  failEnd : Bool
  deriving DecidableEq

instance : LogReader LogTape where
  read t i :=
    if t.failAt = some t.log.length then (t, some (.storage (.other "handler refused")))
    else ({ t with log := t.log ++ [i] }, none)
  finish t :=
    ({ t with completed := t.completed + 1 },
      if t.failEnd then some (.storage (.other "handler refused to complete")) else none)

namespace Bench

/-- What a replay on the bench is fed to. -/
inductive Reader where
  | nobody
  | counter
  | tape (failAt : Option Nat) (failEnd : Bool)
  | guard
  | recorder (observed : List ListKey)
  deriving DecidableEq

/-- What a reader shows after it was fed. -/
inductive Seen where
  | nothing
  | count (instructions : Nat)
  | tape (log : Log) (completed : Nat)
  | table (number : Nat)
  | changes (changes : Changes)
  deriving DecidableEq

/-- One thing to do at the bench. -/
inductive Command where
  | commit (path : String) (log : Log)
  | latest (path : String)
  | stats (path : String)
  | failCursors (on : Bool)
  | failNotifiers (on : Bool)
  | describe
  | openCursor (cursor path : String)
  | beginRead (cursor : String) (asked : Option Version)
  | endRead (cursor : String)
  | look (cursor : String)
  | advance (cursor : String) (asked : Option Version) (reader : Reader)
  | listen (listener notifier path : String)
  | dropListener (listener : String)
  | dropNotifier (notifier : String)
  | notify (notifier : String)
  deriving DecidableEq

/-- What the bench answers. -/
inductive Answer where
  | done
  | failed (failure : Failure)
  | version (version : Version)
  | flag (value : Bool)
  | text (text : String)
  | names (names : List String)
  | stats (commits replays listeners : Nat)
  /-- What a cursor operation gave, what the reader shows, and where the cursor is now. -/
  | cursor (result : Option (Except Failure Version)) (seen : Seen) (now : Option Version)

/-- A listener: its name, and whether it is still there. -/
structure Listener where
  name : String
  alive : Bool
  deriving DecidableEq

/-- A notifier: the file it is for and the listener it was made for. -/
structure Notifier where
  key : String
  listener : ListenerId
  deriving DecidableEq

end Bench

/-- An engine, and what goes by name at the bench. -/
structure Bench where
  engine : Engine
  cursors : Directory Cursor
  /-- Every listener there ever was, by identity. -/
  listeners : List Bench.Listener
  listenerNames : Directory ListenerId
  notifiers : Directory Bench.Notifier

namespace Bench

/-- A bench with a new engine and nothing on it. -/
def fresh : Bench := ⟨.fresh, .empty, [], .empty, .empty⟩

/-- Whether a listener is still there. -/
def alive (b : Bench) (l : ListenerId) : Bool := (b.listeners[l]?.map (·.alive)).getD false

/-- The file a cursor looks at. -/
def fileOf (b : Bench) (c : Cursor) : File := b.engine.file c.file.key

/-- Feed a replay to a reader, and put the file and the cursor back. -/
def follow {σ : Type} [LogReader σ] (b : Bench) (name : String) (c : Cursor)
    (asked : Option Version) (reader : σ) (shown : σ → Seen) : Bench × Answer :=
  let replay := c.follow (b.fileOf c) asked reader
  let b := { b with engine := b.engine.setFile c.file.key replay.file }
  match replay.outcome with
  | .ok moved =>
    ({ b with cursors := b.cursors.set name moved },
      .cursor (moved.current.map .ok) (shown replay.reader) moved.current)
  | .error failure => (b, .cursor (some (.error failure)) (shown replay.reader) c.current)

/-- Move a cursor, feeding the reader. -/
def advance (b : Bench) (name : String) (c : Cursor) (asked : Option Version) :
    Reader → Bench × Answer
  | .nobody =>
    match c.advance (b.fileOf c) asked with
    | .ok moved =>
      ({ b with cursors := b.cursors.set name moved },
        .cursor (moved.current.map .ok) .nothing moved.current)
    | .error failure => (b, .cursor (some (.error failure)) .nothing c.current)
  | .counter => b.follow name c asked (⟨0⟩ : InstructionCounter) fun r => .count r.count
  | .tape failAt failEnd =>
    b.follow name c asked (⟨[], 0, failAt, failEnd⟩ : LogTape) fun r => .tape r.log r.completed
  | .guard => b.follow name c asked SchemaGuard.fresh fun r => .table r.currentTable
  | .recorder observed =>
    b.follow name c asked (ChangeRecorder.observing observed) fun r => .changes r.changes

/-- The listener of a name, made if there is none. -/
def listenerFor (b : Bench) (name : String) : Bench × ListenerId :=
  match b.listenerNames.find? name with
  | some l => (b, l)
  | none =>
    ({ b with
        listeners := b.listeners ++ [⟨name, true⟩]
        listenerNames := b.listenerNames.set name b.listeners.length },
      b.listeners.length)

/-- A notifier goes: its listener is no longer registered on its file. -/
def dropNotifier (b : Bench) (n : Notifier) : Bench :=
  { b with engine := b.engine.setFile n.key ((b.engine.file n.key).unlisten b.alive n.listener) }

/-- Register a listener on a file, and keep the notifier under a name. A notifier that had the
name goes when the new one is there. -/
def listen (b : Bench) (listener notifier path : String) : Bench × Answer :=
  let (b, l) := b.listenerFor listener
  let (engine, registered) := b.engine.listen path l
  let b := { b with engine := engine }
  match registered with
  | .error failure => (b, .failed failure)
  | .ok key =>
    let before := b.notifiers.find? notifier
    let b := { b with notifiers := b.notifiers.set notifier ⟨key, l⟩ }
    (before.elim b b.dropNotifier, .done)

/-- Open a cursor under a name. -/
def openCursor (b : Bench) (name path : String) : Bench × Answer :=
  let (engine, opened) := b.engine.openCursor 0 path
  let b := { b with engine := engine }
  match opened with
  | .ok c => ({ b with cursors := b.cursors.set name c }, .done)
  | .error failure => (b, .failed failure)

/-- Begin to read with a cursor. -/
def beginRead (b : Bench) (name : String) (c : Cursor) (asked : Option Version) :
    Bench × Answer :=
  match c.beginRead (b.fileOf c) asked with
  | .ok c =>
    ({ b with cursors := b.cursors.set name c }, .cursor (c.current.map .ok) .nothing c.current)
  | .error failure => (b, .cursor (some (.error failure)) .nothing c.current)

/-- Wake the listeners of a notifier's file. -/
def notify (b : Bench) (n : Notifier) : Bench × Answer :=
  let file := (b.engine.file n.key).sweepListeners b.alive
  ({ b with engine := b.engine.setFile n.key file },
    .names (file.listeners.filterMap fun l => b.listeners[l]?.map (·.name)))

/-- Do one thing at the bench, unless it is for a cursor or a notifier that is not there. -/
def perform (b : Bench) : Command → Option (Bench × Answer)
  | .commit path log =>
    let (engine, version) := b.engine.commit path log
    some ({ b with engine := engine }, .version version)
  | .latest path =>
    let (engine, version) := b.engine.latest path
    some ({ b with engine := engine }, .version version)
  | .stats path =>
    let file := b.engine.file (FilePath.key path)
    some ({ b with engine := b.engine.touch (FilePath.key path) },
      .stats file.commits.length file.replays file.listeners.length)
  | .failCursors on => some ({ b with engine := { b.engine with cursorsFail := on } }, .done)
  | .failNotifiers on => some ({ b with engine := { b.engine with notifiersFail := on } }, .done)
  | .describe => some (b, .text b.engine.render)
  | .openCursor name path => some (b.openCursor name path)
  | .beginRead name asked => (b.cursors.find? name).map fun c => b.beginRead name c asked
  | .endRead name => (b.cursors.find? name).map fun c =>
    ({ b with cursors := b.cursors.set name c.endRead }, .cursor none .nothing none)
  | .look name => (b.cursors.find? name).map fun c => (b, .cursor none .nothing c.current)
  | .advance name asked reader => (b.cursors.find? name).map fun c =>
    b.advance name c asked reader
  | .listen listener notifier path => some (b.listen listener notifier path)
  | .dropListener name =>
    match b.listenerNames.find? name with
    | none => some (b, .flag false)
    | some l =>
      some ({ b with
          listeners := b.listeners.modify l fun x => { x with alive := false }
          listenerNames := b.listenerNames.erase name }, .flag true)
  | .dropNotifier name =>
    match b.notifiers.find? name with
    | none => some (b, .flag false)
    | some n => some ({ b with notifiers := b.notifiers.erase name }.dropNotifier n, .flag true)
  | .notify name => (b.notifiers.find? name).map b.notify

/-- Do one thing after the other, and list the answers. -/
def run? (b : Bench) : List Command → Option (List Answer)
  | [] => some []
  | c :: rest => do
    let (b, answer) ← b.perform c
    return answer :: (← b.run? rest)

end Bench

end SnapshotCoordination
