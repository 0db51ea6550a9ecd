/-!
# Release

The name and the version under which the library presents itself.
-/

namespace SnapshotCoordination

namespace Release

def name : String := "snapcoord"

def version : String := "0.0.1"

end Release

end SnapshotCoordination
