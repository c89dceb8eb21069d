import WebBaseline.Proofs.Json.Restoring
import WebBaseline.Proofs.Json.RoundTrip
import WebBaseline.Scan.Issue

/-!
# Reading issues back

An issue is written as an object, whose members come in the order of their keys
when its text has been read.  The issue is read back from them.

* `ofJson_ofMembers` — one issue;
* `listOfJson_arranged` — a list of issues, after its text has been read;
* `exact_toJson` — the text of an issue determines it.
-/

namespace WebBaseline.Issue

open Decoding Json

/-- The parts that are written of an issue, in the order of their names. -/
def parts (i : Issue) : List (Part Json Issue) :=
  [⟨"column", .integer i.column.toNat, fun r => { r with column := i.column }⟩,
   ⟨"featureId", .text i.featureId, fun r => { r with featureId := i.featureId }⟩,
   ⟨"file", .text i.file, fun r => { r with file := i.file }⟩,
   ⟨"line", .integer i.line.toNat, fun r => { r with line := i.line }⟩,
   ⟨"name", .text i.name, fun r => { r with name := i.name }⟩,
   ⟨"priority", .text i.priority.name, fun r => { r with priority := i.priority }⟩,
   ⟨"status", .text i.status.label, fun r => { r with status := i.status }⟩]

/-- The members of an issue in the order of their keys. -/
theorem ofList_members (i : Issue) : Members.ofList i.members = written i.parts := by
  simp only [members, Members.ofList, Members.insert, written, parts, List.foldl_cons,
    List.foldl_nil, List.map_cons, List.map_nil, String.reduceLT, String.reduceEq, if_true,
    if_false]

/-- A line or a column is read back. -/
theorem readCount_natural (k : UInt32) :
    Location.readCount (target.natural k.toNat) = .ok k := by
  rw [Location.readCount, restores.natural rfl k.toNat_lt_size (by decide)]
  exact congrArg Except.ok UInt32.ofNat_toNat

/-- **One issue.**  It is read back from its members in the order of their keys. -/
theorem ofJson_ofMembers (i : Issue) : ofJson (.ofMembers i.members) = .ok i := by
  have htext : ∀ s n, n = target.text s → readText n = .ok s :=
    fun s n hn => restores.text hn "a string"
  have hcount : ∀ (k : UInt32) n, n = target.natural k.toNat → Location.readCount n = .ok k := by
    rintro k _ rfl
    exact readCount_natural k
  have hstatus : ∀ (s : Status) n, n = target.text s.label → readStatus n = .ok s :=
    fun s n hn => restores.readChoice (by cases s <;> decide) hn
  have hpriority : ∀ (p : Priority) n, n = target.text p.name → readPriority n = .ok p :=
    fun p n hn => restores.readChoice (by cases p <;> decide) hn
  have hparts : ∀ p ∈ i.parts, p.IsRead (fun w n => n = w) fields := by
    simp only [parts, List.forall_mem_cons, List.not_mem_nil, false_imp_iff, implies_true,
      and_true]
    exact ⟨Part.isRead_of_find rfl (hcount _) rfl, Part.isRead_of_find rfl (htext _) rfl,
      Part.isRead_of_find rfl (htext _) rfl, Part.isRead_of_find rfl (hcount _) rfl,
      Part.isRead_of_find rfl (htext _) rfl, Part.isRead_of_find rfl (hpriority _) rfl,
      Part.isRead_of_find rfl (hstatus _) rfl⟩
  have hrequired : ∀ field ∈ fields, field.required = true →
      field.name ∈ i.parts.map (·.name) := by simp [fields, Field.mandatory, parts]
  rw [Json.ofMembers, ofList_members]
  exact restores.readRecord hparts (by simp [parts]) hrequired "Issue" false default rfl

/-- The members of an issue are scalars, which stay as they are. -/
theorem arranged_toJson (i : Issue) : i.toJson.arranged = .ofMembers i.members := by
  rw [toJson, arranged_object]
  rfl

/-- **Lists of issues.**  They are read back from the array that is written for them, when its
text has been read. -/
theorem listOfJson_arranged (issues : List Issue) :
    listOfJson (Json.array (issues.map toJson)).arranged = .ok issues := by
  have hread : List.Forall₂ (fun i v => ofJson v = .ok i) issues
      ((issues.map toJson).map arranged) := by
    rw [List.map_map, List.forall₂_map_right_iff]
    exact List.forall₂_same.mpr fun i _ => (congrArg ofJson (arranged_toJson i)).trans
      (ofJson_ofMembers i)
  rw [arranged_array, listOfJson]
  exact readItems_of_forall Json.format _ hread 0

/-- The text of an issue determines it. -/
theorem exact_toJson {levels : Nat} (i : Issue) : Exact (levels + 1) i.toJson := by
  have hcount : ∀ k : UInt32, Exact levels (.integer k.toNat) := by
    intro k
    have hk := k.toNat_lt
    exact .integer (by unfold Bound.signed64; omega) (by unfold Bound.unsigned64; omega)
  refine .object ?_
  simp only [members, List.forall_mem_cons, List.not_mem_nil, false_imp_iff, implies_true, and_true]
  exact ⟨.text _, .text _, .text _, .text _, .text _, hcount _, hcount _⟩

end WebBaseline.Issue
