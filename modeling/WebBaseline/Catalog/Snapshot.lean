import WebBaseline.Feature.Record
import WebBaseline.Store.Entry

/-!
# Snapshots of a catalog

A catalog is cached with the time at which it was fetched and is fresh while
it is younger than a given age.  A snapshot says where its records come from.
-/

namespace WebBaseline.Catalog

/-- A catalog in the cache. -/
structure Cached where
  timestamp : Int
  records : List FeatureRecord
deriving BEq, Inhabited

namespace Cached

/-- Whether a catalog is younger than an age; times are in milliseconds. -/
def isFresh (c : Cached) (now ttl : Int) : Bool := now - c.timestamp < ttl

/-- The catalog of an entry of the store, if its value is a list of records. -/
def ofEntry? (e : Store.Entry) : Option Cached :=
  match FeatureRecord.listOfJson e.data with
  | .ok records => some ⟨e.timestamp, records⟩
  | .error _ => none

/-- The entry of the store for a catalog. -/
def toEntry (c : Cached) : Store.Entry := ⟨c.timestamp, FeatureRecord.listToJson c.records⟩

end Cached

/-- Where the records of a snapshot come from. -/
inductive Freshness where
  /-- From the cache, without a request. -/
  | fresh
  /-- From a request. -/
  | fetched
  /-- From the cache, because requests failed. -/
  | stale
  /-- From nowhere. -/
  | unavailable
deriving DecidableEq, Repr, Inhabited

namespace Freshness

/-- All cases. -/
def all : List Freshness := [fresh, fetched, stale, unavailable]

/-- The name in data. -/
def name : Freshness → String
  | fresh => "fresh"
  | fetched => "fetched"
  | stale => "stale"
  | unavailable => "unavailable"

/-- The name in texts for people. -/
def title : Freshness → String
  | fresh => "Fresh"
  | fetched => "Fetched"
  | stale => "Stale"
  | unavailable => "Unavailable"

/-- The names by which a case may be given. -/
def names : List (String × Freshness) := all.map fun f => (f.name, f)

end Freshness

/-- The records that scanners get. -/
structure Snapshot where
  records : List FeatureRecord
  freshness : Freshness
  /-- When the records were fetched. -/
  timestamp : Option Int
  /-- Why the last request failed. -/
  error : Option String
deriving BEq, Inhabited

namespace Snapshot

/-- The snapshot of a fresh catalog. -/
def ofFresh (c : Cached) : Snapshot := ⟨c.records, .fresh, some c.timestamp, none⟩

/-- The snapshot of a catalog that has just been fetched. -/
def ofFetched (c : Cached) : Snapshot := ⟨c.records, .fetched, some c.timestamp, none⟩

/-- The snapshot when requests failed: what the cache holds, or nothing. -/
def fallback (cached : Option Cached) (error : Option String) : Snapshot :=
  match cached with
  | some c => ⟨c.records, .stale, some c.timestamp, error⟩
  | none => ⟨[], .unavailable, none, error⟩

/-- Whether an expired catalog stands in because the service could not be reached. -/
def isOffline (s : Snapshot) : Bool := s.freshness == .stale

end Snapshot

end WebBaseline.Catalog
