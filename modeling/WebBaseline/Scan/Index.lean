import Std.Data.HashMap
import WebBaseline.Feature.Record
import WebBaseline.Scan.Issue
import WebBaseline.Scan.NameTable
import WebBaseline.Text.Fragment

/-!
# The index of a catalog

An index is built once for a catalog and a table of script names; scanners
then find a feature by its identifier, or by a name in a script, with one
look-up.  Where several records qualify, the first one of the catalog counts.
Records are kept apart by domain, so that names of scripts are resolved among
the records for scripts only.  `FeatureIndex.search` and
`FeatureIndex.searchScript` find the same features by going through the catalog.
-/

namespace WebBaseline

/-- What scanners need of a record. -/
structure IndexedFeature where
  identifier : String
  name : String
  status : Status
deriving DecidableEq, Repr, Inhabited

/-- The part of a record that scanners need. -/
def IndexedFeature.ofRecord (r : FeatureRecord) : IndexedFeature where
  identifier := r.identifier
  name := r.displayName
  status := r.status

/-- The index of a catalog.  Records are known by their slots, which are their
places in the catalog. -/
structure FeatureIndex where
  /-- What scanners need of the records, by slot. -/
  features : Array IndexedFeature := #[]
  /-- The first slot of each identifier. -/
  exact : Std.HashMap String Nat := ∅
  /-- The slots of each domain. -/
  byDomain : Vector (Array Nat) 5 := .replicate 5 #[]
  /-- The slots that names in scripts stand for. -/
  scriptNames : Std.HashMap String Nat := ∅
  policy : PriorityPolicy

namespace FeatureIndex

/-! ### Search through a catalog -/

/-- The first record with an identifier. -/
def search (catalog : List FeatureRecord) (identifier : String) : Option IndexedFeature :=
  (catalog.find? (·.identifier == identifier)).map .ofRecord

/-- The first record for scripts whose identifier contains a fragment. -/
def searchFragment (catalog : List FeatureRecord) (fragment : String) : Option IndexedFeature :=
  (catalog.find? fun r => r.domain.isScript && Text.contains r.identifier fragment).map .ofRecord

/-- The feature that a name in a script refers to. -/
def searchScript (catalog : List FeatureRecord) (table : NameTable) (name : String) :
    Option IndexedFeature :=
  (table.fragment? name).bind (searchFragment catalog)

/-! ### The index -/

variable (index : FeatureIndex)

/-- The slots of a domain. -/
def slotsOf (d : Domain) : List Nat := index.byDomain[d.number].toList

/-- Add a record in the next slot. -/
def addRecord (r : FeatureRecord) : FeatureIndex :=
  let slot := index.features.size
  let domain := r.domain.number
  { index with
    features := index.features.push (.ofRecord r)
    exact := index.exact.insertIfNew r.identifier slot
    byDomain := index.byDomain.set domain (index.byDomain[domain].push slot) }

/-- Whether the identifier of a slot contains a fragment. -/
def slotContains (fragment : String) (slot : Nat) : Bool :=
  index.features[slot]?.any fun f => Text.contains f.identifier fragment

/-- The slots of all domains for scripts, one domain after the other. -/
def scriptSlots : List Nat := (Domain.all.filter Domain.isScript).flatMap index.slotsOf

/-- The first slot for scripts whose identifier contains a fragment: the slots
are put back into the order of the catalog. -/
def firstScriptSlot (fragment : String) : Option Nat :=
  ((index.scriptSlots.filter (index.slotContains fragment)).mergeSort).head?

/-- Let a name of scripts stand for the first slot with its fragment, if there is one. -/
def resolveName (entry : String × String) : FeatureIndex :=
  match index.firstScriptSlot entry.2 with
  | some slot => { index with scriptNames := index.scriptNames.insert entry.1 slot }
  | none => index

/-- Build the index: first the records are added, then the names of scripts are resolved. -/
def build (catalog : List FeatureRecord) (table : NameTable) (policy : PriorityPolicy) :
    FeatureIndex :=
  table.entries.foldl resolveName (catalog.foldl addRecord { policy })

/-- The feature of an identifier. -/
def lookup (identifier : String) : Option IndexedFeature :=
  index.exact[identifier]?.bind fun slot => index.features[slot]?

/-- The feature that a name in a script refers to. -/
def scriptFeature (name : String) : Option IndexedFeature :=
  index.scriptNames[name]?.bind fun slot => index.features[slot]?

/-- The number of records of a domain. -/
def countOf (d : Domain) : Nat := (index.slotsOf d).length

/-- The number of records. -/
def size : Nat := index.features.size

/-- The priority of a status. -/
def priorityOf (s : Status) : Priority := index.policy.priorityOf s

/-- The issue for a feature used at a place. -/
def issueAt (file : String) (f : IndexedFeature) (name : String) (place : Location) : Issue where
  file := file
  featureId := f.identifier
  name := name
  status := f.status
  priority := index.priorityOf f.status
  line := place.line
  column := place.column

end FeatureIndex

end WebBaseline
