import SnapshotCoordination.Version

/-!
# Failures

The causes for which an operation can fail, and the wording of each. A cause that comes from
outside, such as a storage engine of another make, is carried in its own words.

Two kinds of failure, `schemaMismatch` and `invalidLog`, are raised while a log is replayed
and leave the reader of the log unable to trust its snapshot; they are the *consistency*
failures.
-/

namespace SnapshotCoordination

/-- A configuration field on which two opens of one file disagree. -/
inductive ConfigField where
  | readOnly
  | inMemory
  | encryptionKey
  | schemaVersion
  | engine
  deriving DecidableEq

/-- The name of a field in a message. -/
def ConfigField.name : ConfigField → String
  | readOnly => "read_only"
  | inMemory => "in_memory"
  | encryptionKey => "encryption_key"
  | schemaVersion => "schema_version"
  | engine => "engine"

/-- What two opens that disagree on a field are told. -/
def ConfigField.conflict : ConfigField → String
  | readOnly => "already opened with different read permissions"
  | inMemory => "already opened with different in-memory settings"
  | encryptionKey => "already opened with a different encryption key"
  | schemaVersion => "already opened with a different schema version"
  | engine => "already opened with a different storage engine"

/-- The two background cursors of a coordinator. -/
inductive BackgroundCursor where
  | query
  | advancer
  deriving DecidableEq

/-- What a storage engine can report. -/
inductive StorageFault where
  | missingVersion (asked latest : Version)
  | noActiveRead
  | wouldGoBack (current target : Version)
  | tooManyOpenFiles (path : String)
  | noNotificationPipe
  | cursorNotOpen (cursor : BackgroundCursor)
  | other (text : String)
  deriving DecidableEq

def StorageFault.message : StorageFault → String
  | missingVersion asked latest =>
    s!"version {asked.render} does not exist (latest is {latest.render})"
  | noActiveRead => "no active read transaction"
  | wouldGoBack current target => s!"cannot advance from {current.render} back to {target.render}"
  | tooManyOpenFiles path => s!"unable to open '{path}': too many open files"
  | noNotificationPipe =>
    "failed to create notification pipe: resource temporarily unavailable"
  | cursorNotOpen .query => "query cursor is not open"
  | cursorNotOpen .advancer => "advancer cursor is not open"
  | other text => text

/-- Why a transaction log cannot be followed. -/
inductive LogFault where
  | orderedErase (row : Nat)
  | erasesSeveral (rows row : Nat)
  | other (text : String)
  deriving DecidableEq

def LogFault.message : LogFault → String
  | orderedErase row => s!"ordered erase of row {row} is not supported"
  | erasesSeveral rows row => s!"unordered erase of {rows} rows at row {row} is not supported"
  | other text => text

/-- Why a configuration can never be opened. -/
inductive ConfigFault where
  | emptyPath
  | keyLength (bytes : Nat)
  | noEngine (path : String)
  | other (text : String)
  deriving DecidableEq

/-- How many bytes an encryption key has. -/
def encryptionKeyLength : Nat := 64

def ConfigFault.message : ConfigFault → String
  | emptyPath => "database path must not be empty"
  | keyLength bytes => s!"encryption key must be {encryptionKeyLength} bytes, got {bytes}"
  | noEngine path => s!"no storage engine configured for '{path}'"
  | other text => text

/-- Why an operation failed. -/
inductive Failure where
  | schemaMismatch
  | mismatchedConfig (path : String) (field : ConfigField) (text : String)
  | access (path cause : String)
  | asyncOpen (path cause : String)
  | storage (fault : StorageFault)
  | invalidLog (fault : LogFault)
  | readOnly (path : String)
  | closed (path : String)
  | notOpen (path : String)
  | invalidConfig (fault : ConfigFault)
  deriving DecidableEq

namespace Failure

/-- The wording of a failure. -/
def message : Failure → String
  | schemaMismatch =>
    "Schema mismatch detected: another process has modified the database file's schema " ++
      "in an incompatible way"
  | mismatchedConfig path field text =>
    s!"Database at '{path}' already opened with a different {field.name}: {text}"
  | access path cause => s!"Unable to open '{path}': {cause}"
  | asyncOpen path cause => s!"Failed to open background snapshot for '{path}': {cause}"
  | storage fault => s!"Storage error: {fault.message}"
  | invalidLog fault => s!"Invalid transaction log: {fault.message}"
  | readOnly path => s!"Cannot write to read-only database at '{path}'"
  | closed path => s!"Database handle for '{path}' has been closed"
  | notOpen path => s!"No database handle has been opened for '{path}'"
  | invalidConfig fault => s!"Invalid configuration: {fault.message}"

/-- Whether the failure leaves the reader of a log unable to trust its snapshot. -/
def isConsistency : Failure → Bool
  | schemaMismatch => true
  | invalidLog _ => true
  | _ => false

end Failure

end SnapshotCoordination
