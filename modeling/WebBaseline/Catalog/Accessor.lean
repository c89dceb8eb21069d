import WebBaseline.Catalog.Address
import WebBaseline.Catalog.Cache
import WebBaseline.Catalog.Duration
import WebBaseline.Settings.Basic

/-!
# Access to a catalog

The accessor prefers a fresh catalog from the cache.  Otherwise it requests
one, again after each failure and ever longer delays, and when all requests
have failed it falls back to what the cache holds.

What it does is a `Plan`: a tree of single operations on the cache, the clock
and the service, so that plans can be carried out one after the other or
interleaved.  `Plan.run` carries one out.
-/

namespace WebBaseline.Catalog

/-! ### Delays -/

/-- The most doublings of a delay. -/
def mostDoublings : Nat := 16

/-- The delay after a failed attempt; the first attempt has number zero. -/
def backoffDelay (baseMs : UInt64) (attempt : Nat) : Duration :=
  (Duration.ofMillis baseMs).saturatingMul (1 <<< min attempt mostDoublings)

/-! ### Plans -/

/-- Why a request failed. -/
inductive RequestError where
  /-- The service answered with something unexpected. -/
  | catalog (text : String)
  /-- The service could not be reached. -/
  | http (text : String)
deriving DecidableEq, Repr

/-- The wording of an error. -/
def RequestError.message : RequestError → String
  | catalog text => "Catalog error: " ++ text
  | http text => "HTTP error: " ++ text

/-- The error of a service that does not answer. -/
def RequestError.unreachable (address : String) : RequestError :=
  .http ("error sending request for url (" ++ address ++ ")")

/-- Operations that lead to a result. -/
inductive Plan (α : Type) where
  | done (result : α)
  /-- Read the cache. -/
  | read (next : Option Cached → Plan α)
  /-- Write the cache, and learn whether that succeeded. -/
  | write (content : Cached) (next : Bool → Plan α)
  /-- Remove what the cache holds. -/
  | remove (next : Plan α)
  /-- Look at the clock. -/
  | clock (next : Int → Plan α)
  /-- Request the catalog. -/
  | request (next : Except RequestError (List FeatureRecord) → Plan α)
  /-- Wait. -/
  | wait (delay : Duration) (next : Plan α)

/-- Where plans are carried out: the operations as steps of `m`, those on the cache for a key. -/
structure Host (m : Type → Type) where
  read : String → m (Option Cached)
  write : String → Cached → m Bool
  remove : String → m Unit
  clock : m Int
  request : m (Except RequestError (List FeatureRecord))
  wait : Duration → m Unit

/-- Carry out a plan for the entry of a key. -/
def Plan.run {α : Type} {m : Type → Type} [Monad m] (host : Host m) (key : String) : Plan α → m α
  | done a => pure a
  | read next => host.read key >>= fun c => (next c).run host key
  | write c next => host.write key c >>= fun kept => (next kept).run host key
  | remove next => host.remove key >>= fun _ => next.run host key
  | clock next => host.clock >>= fun now => (next now).run host key
  | request next => host.request >>= fun r => (next r).run host key
  | wait d next => host.wait d >>= fun _ => next.run host key

/-! ### The accessor -/

/-- The key of the entry for the address that settings point at. -/
def keyOf (s : CatalogSettings) : String := keyOfAddress (address s.baseUrl s.endpoint)

/-- What an accessor knows. -/
structure Accessor where
  key : String
  /-- The age from which on a catalog is not fresh, in milliseconds. -/
  ttl : Int
  /-- How often a request is tried. -/
  attempts : Nat
  backoffBaseMs : UInt64
  /-- Whether there is a service to ask. -/
  online : Bool
deriving DecidableEq, Repr

namespace Accessor

/-- The accessor for settings.  Seconds are taken as a signed number of 64 bits,
and at least one attempt is made. -/
def ofSettings (s : CatalogSettings) (online : Bool) : Accessor where
  key := keyOf s
  ttl := s.cacheTtlSecs.toInt64.toInt * 1000
  attempts := max 1 s.maxAttempts.toNat
  backoffBaseMs := s.backoffBaseMs
  online := online

variable (a : Accessor)

/-- Request the catalog; `left` are the attempts after the next one, `attempt`
those before it. -/
def requestWithRetry {α : Type} (next : Except RequestError (List FeatureRecord) → Plan α) :
    Nat → Nat → Plan α
  | 0, _ => .request next
  | left + 1, attempt =>
    .request fun
      | .ok records => next (.ok records)
      | .error _ =>
        .wait (backoffDelay a.backoffBaseMs attempt)
          (requestWithRetry next left (attempt + 1))

/-- Request the catalog and keep it, or fall back to what the cache holds. -/
def fetchOrFallback (cached : Option Cached) : Plan Snapshot :=
  if a.online then
    a.requestWithRetry (fun
      | .ok records =>
        .clock fun now =>
          let c : Cached := ⟨now, records⟩
          .write c fun _ => .done (.ofFetched c)
      | .error e =>
        .read fun latest => .done (.fallback (latest.or cached) (some e.message)))
      (a.attempts - 1) 0
  else .done (.fallback cached none)

/-- Get the catalog, preferably from the cache. -/
def fetch : Plan Snapshot :=
  .read fun cached => .clock fun now =>
    match cached with
    | some c => if c.isFresh now a.ttl then .done (.ofFresh c) else a.fetchOrFallback cached
    | none => a.fetchOrFallback cached

/-- Get the catalog by a request, however fresh the cache is. -/
def refresh : Plan Snapshot := .read fun cached => a.fetchOrFallback cached

/-- Forget the catalog. -/
def invalidate : Plan Unit := .remove (.done ())

end Accessor

end WebBaseline.Catalog
