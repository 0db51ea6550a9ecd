import SnapshotCoordination.Failure

/-!
# Open configurations

A `Config` says how a file is to be opened. The first handle opened on a file fixes the
canonical configuration; a later one has to agree with it on everything but the caching of
handles, and on the schema version only if it asks for one. Two configurations name the same
engine when they hold the same engine's identity.
-/

namespace SnapshotCoordination

/-- The identity of a storage engine. -/
abbrev EngineId := Nat

/-- How to open a file. -/
structure Config where
  path : String
  readOnly : Bool
  inMemory : Bool
  /-- The bytes of the encryption key, if the file is encrypted. -/
  encryptionKey : Option (List Nat)
  /-- The schema version the caller expects, if it cares. -/
  schemaVersion : Option Nat
  /-- Whether a handle that the same thread opened before may be handed out again. -/
  cache : Bool
  engine : Option EngineId
  deriving DecidableEq

namespace Config

/-- The configuration with nothing asked for and no engine. -/
def blank : Config := ⟨"", false, false, none, none, true, none⟩

instance : Inhabited Config := ⟨blank⟩

/-- The plain configuration of a file of an engine. -/
def forFile (path : String) (engine : EngineId) : Config :=
  { blank with path := path, engine := some engine }

/-- The engine to open the file with. -/
def engine? (c : Config) : Except Failure EngineId :=
  match c.engine with
  | some e => .ok e
  | none => .error (.invalidConfig (.noEngine c.path))

/-- What makes a configuration impossible to open, if anything. -/
def fault? (c : Config) : Option ConfigFault :=
  if c.path.isEmpty then some .emptyPath
  else
    match c.encryptionKey with
    | some key =>
      if key.length ≠ encryptionKeyLength then some (.keyLength key.length)
      else if c.engine.isNone then some (.noEngine c.path) else none
    | none => if c.engine.isNone then some (.noEngine c.path) else none

/-- The first field on which a request cannot go along with this configuration. -/
def conflict? (canonical requested : Config) : Option ConfigField :=
  if canonical.readOnly ≠ requested.readOnly then some .readOnly
  else if canonical.inMemory ≠ requested.inMemory then some .inMemory
  else if canonical.encryptionKey ≠ requested.encryptionKey then some .encryptionKey
  else if canonical.engine.isSome ∧ requested.engine.isSome ∧ canonical.engine ≠ requested.engine
    then some .engine
  else if requested.schemaVersion.isSome ∧ canonical.schemaVersion ≠ requested.schemaVersion
    then some .schemaVersion
  else none

/-- Refuse a request that cannot go along with this configuration. -/
def checkCompatible (canonical requested : Config) : Except Failure Unit :=
  match canonical.conflict? requested with
  | some field => .error (.mismatchedConfig canonical.path field field.conflict)
  | none => .ok ()

end Config

end SnapshotCoordination
