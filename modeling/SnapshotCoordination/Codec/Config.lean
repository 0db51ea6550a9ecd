import SnapshotCoordination.Config
import SnapshotCoordination.Document.Decoding

/-!
# Versions and configurations as documents

A configuration comes back without its engine, and every field that its document leaves out
has the value it has in the blank configuration.
-/

namespace SnapshotCoordination

open Document

namespace Version

/-- The first number that no sub-index reaches. -/
def indexLimit : Nat := UInt32.size

def encode (v : Version) : Document :=
  .record [("version", ofNat v.number), ("index", ofNat v.index)]

def decode? (d : Document) : Option Version := do
  let fs ← fields? ["version", "index"] d
  return ⟨← fs.get "version" nat?, ← fs.get "index" (natBelow? indexLimit)⟩

end Version

namespace Config

def encode (c : Config) : Document :=
  .record [
    ("path", .text c.path),
    ("read_only", .bool c.readOnly),
    ("in_memory", .bool c.inMemory),
    ("encryption_key", ofOption (fun key => .list (key.map ofNat)) c.encryptionKey),
    ("schema_version", ofOption ofNat c.schemaVersion),
    ("cache", .bool c.cache)]

/-- The names of the fields, in the order of their declaration. -/
def fieldNames : List String :=
  ["path", "read_only", "in_memory", "encryption_key", "schema_version", "cache"]

def decode? (d : Document) : Option Config := do
  let fs ← someFields? fieldNames d
  return {
    path := ← fs.getD "path" text? blank.path
    readOnly := ← fs.getD "read_only" bool? blank.readOnly
    inMemory := ← fs.getD "in_memory" bool? blank.inMemory
    encryptionKey := ← fs.getD "encryption_key" (option? (list? byte?)) blank.encryptionKey
    schemaVersion := ← fs.getD "schema_version" (option? nat?) blank.schemaVersion
    cache := ← fs.getD "cache" bool? blank.cache
    engine := none }

end Config

end SnapshotCoordination
