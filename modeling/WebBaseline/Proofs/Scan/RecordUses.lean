import WebBaseline.Proofs.Scan.Resolution

/-!
# Issues for records

What an issue says of a record that is used at a point of a text.  Points count
from zero and lines and columns from one; both fit into 32 bits as long as the
point stays below the last number.

* `FeatureRecord.usedAt`, `issueAt_build` — the issue, and that indexes make it;
* `Location.toNat_ofPoint` — lines and columns of points that fit.
-/

namespace WebBaseline

/-- The issue for a record that is used at a point. -/
def FeatureRecord.usedAt (r : FeatureRecord) (policy : PriorityPolicy) (path : String)
    (point : Point) : Issue where
  file := path
  featureId := r.identifier
  name := if r.name = "" then r.identifier else r.name
  status := .ofCode r.statusCode
  priority := policy.priorityOf (.ofCode r.statusCode)
  line := (Location.ofPoint point).line
  column := (Location.ofPoint point).column

namespace FeatureIndex

/-- The index of a catalog makes the issues for its records. -/
theorem issueAt_build (catalog : List FeatureRecord) (table : NameTable) (policy : PriorityPolicy)
    (path : String) (r : FeatureRecord) (point : Point) :
    (build catalog table policy).issueAt path (.ofRecord r) (IndexedFeature.ofRecord r).name
      (.ofPoint point) = r.usedAt policy path point := by
  rw [ofRecord_eq, issueAt, priorityOf, policy_build]
  rfl

theorem issueAt_comp_ofRecord (catalog : List FeatureRecord) (table : NameTable)
    (policy : PriorityPolicy) (path : String) (point : Point) :
    (fun f => (build catalog table policy).issueAt path f f.name (.ofPoint point)) ∘
        IndexedFeature.ofRecord =
      fun r => r.usedAt policy path point :=
  funext fun r => issueAt_build catalog table policy path r point

end FeatureIndex

/-- Whether a point fits: the line and the column of its location need no more than 32 bits. -/
structure Point.Fits (p : Point) : Prop where
  row : p.row + 1 < UInt32.size
  column : p.column + 1 < UInt32.size

instance (p : Point) : Decidable p.Fits :=
  decidable_of_iff (p.row + 1 < UInt32.size ∧ p.column + 1 < UInt32.size)
    ⟨fun h => ⟨h.1, h.2⟩, fun h => ⟨h.row, h.column⟩⟩

theorem toNat_ofNat_add_one {k : Nat} (h : k + 1 < UInt32.size) :
    (UInt32.ofNat k + 1).toNat = k + 1 := by
  have hk : k < UInt32.size := by omega
  rw [UInt32.toNat_add, UInt32.toNat_ofNat_of_lt' hk]
  exact Nat.mod_eq_of_lt h

/-- **Locations of points that fit** are one further in both directions. -/
theorem Location.toNat_ofPoint {p : Point} (h : p.Fits) :
    (ofPoint p).line.toNat = p.row + 1 ∧ (ofPoint p).column.toNat = p.column + 1 :=
  ⟨toNat_ofNat_add_one h.row, toNat_ofNat_add_one h.column⟩

end WebBaseline
