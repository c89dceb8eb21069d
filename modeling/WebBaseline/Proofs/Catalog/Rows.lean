import WebBaseline.Catalog.Cache

/-!
# Catalogs in rows of a table

A row of the table is as it was left by whoever wrote to it last.  The cache
finds a catalog in it only if every check of the row succeeds.

* `Store.Row.Holds` — sound rows; `cached?_readRow_eq_some_iff` — what is read
  of a row;
* `get_table_eq_some_iff` — what the cache finds in a table.
-/

namespace WebBaseline

/-- Whether a row holds a catalog: its columns have the types of the table, the checksum is that of
the payload, and the payload is the text of a list of records. -/
inductive Store.Row.Holds (r : Store.Row) (c : Catalog.Cached) : Prop where
  | sound {payload : String} {data : Json} (htimestamp : r.timestamp = .integer c.timestamp)
      (hpayload : r.payload = .text payload)
      (hchecksum : r.checksum = .text (Digest.sha256 payload))
      (hdata : Json.parse payload = .ok data)
      (hrecords : FeatureRecord.listOfJson data = .ok c.records)

namespace Catalog

/-- The catalog of an entry has its time and the records that its value is a list of. -/
theorem Cached.ofEntry?_eq_some_iff {e : Store.Entry} {c : Cached} :
    Cached.ofEntry? e = some c ↔
      e.timestamp = c.timestamp ∧ FeatureRecord.listOfJson e.data = .ok c.records := by
  obtain ⟨timestamp, records⟩ := c
  unfold ofEntry?
  cases FeatureRecord.listOfJson e.data with
  | error f => exact ⟨nofun, fun h => nomatch h.2⟩
  | ok found => simp

/-- **Reading a row.**  The cache finds a catalog in a row if the row holds it. -/
theorem cached?_readRow_eq_some_iff {r : Store.Row} {c : Cached} :
    Cache.cached? ((Store.Table.readRow r).map some) = some c ↔ r.Holds c := by
  constructor
  · -- Each check that fails gives an error, of which nothing is made.
    intro h
    rw [Store.Table.readRow] at h
    split at h
    next timestamp htimestamp =>
      split at h
      next payload hpayload =>
        split at h
        next checksum hchecksum =>
          split at h
          next heq =>
            split at h
            next data hdata =>
              obtain ⟨htime, hrecords⟩ := Cached.ofEntry?_eq_some_iff.mp h
              exact .sound (htimestamp.trans (congrArg _ htime)) hpayload
                (hchecksum.trans (congrArg _ heq.symm)) hdata hrecords
            next => cases h
          next => cases h
        next => cases h
      next => cases h
    next => cases h
  · rintro ⟨htimestamp, hpayload, hchecksum, hdata, hrecords⟩
    simp only [Store.Table.readRow, htimestamp, hpayload, hchecksum, if_true, hdata]
    exact Cached.ofEntry?_eq_some_iff.mpr ⟨rfl, hrecords⟩

/-- **Reading a table.**  The cache finds a catalog in a table if the row of the key holds it. -/
theorem get_table_eq_some_iff {rows : List Store.Row} {key : String} {c : Cached} :
    (Cache.get Store.Backend.operations key (.table ⟨some rows⟩)).1 = some c ↔
      ∃ row, rows.find? (·.key == key) = some row ∧ row.Holds c := by
  change Cache.cached? (Store.Table.get ⟨some rows⟩ key) = some c ↔ _
  cases hfound : rows.find? (·.key == key) with
  | none => simp [Store.Table.get, hfound, Cache.cached?]
  | some row => simp [Store.Table.get, hfound, cached?_readRow_eq_some_iff]

end Catalog

end WebBaseline
