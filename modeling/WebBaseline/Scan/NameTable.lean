/-!
# Names that scripts use

A table from the names of web interfaces, as scripts write them, to fragments
of the identifiers that catalogs give them.
-/

namespace WebBaseline

/-- Whether entries are in ascending order of their names, each name once. -/
def AscendingNames (entries : List (String × String)) : Prop :=
  (entries.map (·.1)).Pairwise (· < ·)

/-- Names with their fragments, in ascending order of the names. -/
structure NameTable where
  entries : List (String × String)
  ascending : AscendingNames entries

namespace NameTable

/-- Two tables are equal if their entries are. -/
theorem ext {s t : NameTable} (h : s.entries = t.entries) : s = t := by
  cases s
  cases t
  simp_all

instance : DecidableEq NameTable := fun s t =>
  if h : s.entries = t.entries then isTrue (ext h)
  else isFalse fun e => h (e ▸ rfl)

instance : Repr NameTable := ⟨fun t n => reprPrec t.entries n⟩

/-- The table without entries. -/
def empty : NameTable := ⟨[], List.Pairwise.nil⟩

instance : Inhabited NameTable := ⟨empty⟩

/-- Insert into ascending entries, in place of an earlier entry of the name. -/
def insertInto (name fragment : String) : List (String × String) → List (String × String)
  | [] => [(name, fragment)]
  | (n, f) :: rest =>
    if name < n then (name, fragment) :: (n, f) :: rest
    else if name = n then (name, fragment) :: rest
    else (n, f) :: insertInto name fragment rest

/-- Inserting adds one name at most. -/
theorem mem_names_insertInto {name fragment n : String} {entries : List (String × String)}
    (h : n ∈ (insertInto name fragment entries).map (·.1)) :
    n = name ∨ n ∈ entries.map (·.1) := by
  induction entries with
  | nil => simpa [insertInto] using h
  | cons e rest ih =>
    obtain ⟨a, b⟩ := e
    rw [insertInto] at h
    split at h
    · simpa using h
    · split at h
      · rename_i h'
        subst h'
        simp only [List.map_cons, List.mem_cons] at h ⊢
        exact h.imp_right .inr
      · simp only [List.map_cons, List.mem_cons] at h ⊢
        rcases h with h | h
        · exact .inr (.inl h)
        · exact (ih h).imp_right .inr

/-- Inserting keeps the order. -/
theorem ascending_insertInto {name fragment : String} {entries : List (String × String)}
    (h : AscendingNames entries) : AscendingNames (insertInto name fragment entries) := by
  induction entries with
  | nil => simp [insertInto, AscendingNames]
  | cons e rest ih =>
    obtain ⟨a, b⟩ := e
    have ⟨first, others⟩ := List.pairwise_cons.1 h
    rw [insertInto]
    split
    · rename_i lt
      refine List.pairwise_cons.2 ⟨fun n hn => ?_, h⟩
      rcases List.mem_cons.1 hn with rfl | hn
      · exact lt
      · exact String.lt_trans lt (first n hn)
    · rename_i notLt
      split
      · rename_i eq
        subst eq
        exact h
      · rename_i ne
        refine List.pairwise_cons.2 ⟨fun n hn => ?_, ih others⟩
        rcases mem_names_insertInto hn with rfl | hn
        · exact Decidable.byContradiction fun h =>
            ne (String.le_antisymm (String.not_lt.1 h) (String.not_lt.1 notLt))
        · exact first n hn

/-- The table with one entry more. -/
def insert (t : NameTable) (name fragment : String) : NameTable :=
  ⟨insertInto name fragment t.entries, ascending_insertInto t.ascending⟩

/-- The fragment of a name. -/
def fragment? (t : NameTable) (name : String) : Option String :=
  (t.entries.find? (·.1 == name)).map (·.2)

/-- The table of a list of entries; the last entry of a name counts. -/
def ofList (entries : List (String × String)) : NameTable :=
  entries.foldl (fun t e => t.insert e.1 e.2) empty

/-- The names known without any configuration. -/
def builtIn : NameTable := ofList [
  ("structuredClone", "structuredClone"),
  ("fetch", "fetch"),
  ("IntersectionObserver", "intersection-observer"),
  ("ResizeObserver", "resize-observer"),
  ("MutationObserver", "mutation-observer"),
  ("AbortController", "abortcontroller"),
  ("AbortSignal", "abortsignal"),
  ("BroadcastChannel", "broadcast-channel"),
  ("requestIdleCallback", "requestidlecallback"),
  ("queueMicrotask", "queuemicrotask"),
  ("showPopover", "popover"),
  ("startViewTransition", "view-transitions"),
  ("showModal", "dialog"),
  ("CompressionStream", "compression-streams"),
  ("DecompressionStream", "compression-streams"),
  ("WeakRef", "weakrefs"),
  ("FinalizationRegistry", "weakrefs"),
  ("findLast", "array-findlast"),
  ("findLastIndex", "array-findlast"),
  ("toSorted", "array-by-copy"),
  ("toReversed", "array-by-copy"),
  ("toSpliced", "array-by-copy"),
  ("groupBy", "array-group"),
  ("withResolvers", "promise-withresolvers")]

/-- The built-in names with others, which take precedence. -/
def withExtras (extras : List (String × String)) : NameTable :=
  extras.foldl (fun t e => t.insert e.1 e.2) builtIn

end NameTable

end WebBaseline
