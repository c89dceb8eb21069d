import WebBaseline.Catalog.Snapshot
import WebBaseline.Store.Backend

/-!
# The cache of catalogs

Catalogs are kept in a store.  A failure of the store counts as a miss: what
cannot be read is not there, and what cannot be written is not kept.
-/

namespace WebBaseline.Catalog.Cache

open Store

variable {σ : Type} (ops : Operations σ)

/-- What a read of the store means to the cache. -/
def cached? : Except Store.Error (Option Entry) → Option Cached
  | .ok (some e) => Cached.ofEntry? e
  | .ok none => none
  | .error _ => none

/-- The catalog under a key. -/
def get (key : String) (s : σ) : Option Cached × σ :=
  let (outcome, s) := ops.get key s
  (cached? outcome, s)

/-- Write a catalog; the first part tells whether it was kept. -/
def put (key : String) (c : Cached) (s : σ) : Bool × σ :=
  let (outcome, s) := ops.put key c.toEntry s
  (outcome.isOk, s)

/-- Forget the catalog under a key. -/
def invalidate (key : String) (s : σ) : σ := (ops.remove key s).2

end WebBaseline.Catalog.Cache
