import WebBaseline.Proofs.Scan.IssueReading
import WebBaseline.Proofs.Scan.ResultInvariant
import WebBaseline.Report.Basic

/-!
# Reports that are read back

The JSON text of a report holds its issues in full.  The result is made from
them again, although priorities were edited after it was made: it is sorted
already, and counts and score do not depend on priorities.

* `ScanResult.Derived.ofIssues_eq` — a result is that of its own issues;
* `Report.nodup_keys` — no two members of a report share a key;
* `Report.reimport` — the text of a report, read back.
-/

namespace WebBaseline

open Json

/-! ### Results of their own issues -/

namespace Counts

/-- Counts are determined by what they say of each status. -/
theorem ext_get {c d : Counts} (h : ∀ s, c.get s = d.get s) : c = d := by
  obtain ⟨widely, newly, limited, unknown⟩ := c
  obtain ⟨widely', newly', limited', unknown'⟩ := d
  exact congr (congr (congr (congrArg Counts.mk (h .widely)) (h .newly)) (h .limited)) (h .unknown)

end Counts

namespace ScanResult

/-- Issues in the order of their files are sorted already. -/
theorem sortByFile_of_ordered {issues : List Issue}
    (h : issues.Pairwise fun a b => Text.bytes a.file ≤ Text.bytes b.file) :
    sortByFile issues = issues := by
  refine List.mergeSort_of_pairwise (h.imp fun {a b} hab => ?_)
  exact decide_eq_true ((Text.le_iff_bytes_le _ _).mpr hab)

/-- **A result of its own issues.**  What is derived from some issues is the result of those that
it holds. -/
theorem Derived.ofIssues_eq {input : List Issue} {r : ScanResult} (h : Derived input r) :
    ofIssues r.issues = r := by
  have hissues : (ofIssues r.issues).issues = r.issues := sortByFile_of_ordered h.sorted
  have hderived := derived_ofIssues r.issues
  have hcounts : (ofIssues r.issues).counts = r.counts := by
    refine Counts.ext_get fun s => ?_
    rw [hderived.counted, hissues, h.counted]
  have hscore : (ofIssues r.issues).score = r.score := by
    by_cases hnil : r.issues = []
    · rw [hderived.score_nil (hissues.trans hnil), h.score_nil hnil]
    · have hround := hderived.score_round (fun heq => hnil (hissues.symm.trans heq))
      rw [hcounts, ← h.score_round hnil] at hround
      exact Int.ofNat.inj hround
  calc ofIssues r.issues
      = ⟨(ofIssues r.issues).issues, (ofIssues r.issues).counts, (ofIssues r.issues).score⟩ := rfl
    _ = ⟨r.issues, r.counts, r.score⟩ := by rw [hissues, hcounts, hscore]

end ScanResult

/-! ### The members of a report -/

namespace Report

/-- Whether the numbers of a report fit into machine words. -/
structure FitsWords (r : Report) : Prop where
  filesScanned : r.filesScanned < Bound.unsigned64
  catalogSize : r.catalogSize < Bound.unsigned64
  issues : r.result.issues.length < Bound.unsigned64

/-- Whether all numbers that a report shows fit into machine words.  Those of its result need not be
the score and the counts of its issues. -/
structure ShowsWords (r : Report) : Prop extends FitsWords r where
  score : r.result.score < Bound.unsigned64
  counts : ∀ s, r.result.counts.get s < Bound.unsigned64

/-- The score and the counts fit if they are those of issues whose number fits. -/
theorem FitsWords.showsWords {r : Report} (hfits : r.FitsWords) {input : List Issue}
    (h : ScanResult.Derived input r.result) : r.ShowsWords where
  toFitsWords := hfits
  score := by
    have hle : (ScanResult.ofIssues r.result.issues).score ≤ 100 := percentage_le_hundred _ _
    rw [h.ofIssues_eq] at hle
    unfold Bound.unsigned64
    omega
  counts := by
    intro s
    have hle : r.result.counts.get s ≤ r.result.issues.length :=
      (h.counted s).trans_le List.countP_le_length
    exact Nat.lt_of_le_of_lt hle hfits.issues

/-- The keys of a report are the same for all. -/
theorem keys_eq (r : Report) : r.members.map (·.1) =
    ["root", "generatedAt", "filesScanned", "cancelled", "catalogFeatures", "catalogFreshness",
      "offline", "score", "stats", "issues"] := rfl

/-- **Keys.**  No two members of a report share a key. -/
theorem nodup_keys (r : Report) : (r.members.map (·.1)).Nodup := by
  rw [keys_eq]
  decide

/-- A natural number of a machine word is determined by its text. -/
theorem exact_natural {levels n : Nat} (hn : n < Bound.unsigned64) : Exact levels (.integer n) :=
  .integer (by unfold Bound.signed64; omega) (by omega)

/-- The text of a report determines it up to the order of members. -/
theorem exact_members {levels : Nat} {r : Report} (hfits : r.FitsWords) {input : List Issue}
    (h : ScanResult.Derived input r.result) : Exact (levels + 3) (.object r.members) := by
  have hshows := hfits.showsWords h
  have hcounts : Exact (levels + 2) (.object r.result.counts.members) := by
    refine .object fun m hm => ?_
    obtain ⟨s, -, rfl⟩ := List.mem_map.mp hm
    exact exact_natural (hshows.counts s)
  have hissues : Exact (levels + 2) (.array (r.result.issues.map Issue.toJson)) := by
    refine .array fun v hv => ?_
    obtain ⟨i, -, rfl⟩ := List.mem_map.mp hv
    exact i.exact_toJson
  refine .object ?_
  simp only [members, contextMembers, ScanResult.members, List.cons_append, List.nil_append,
    List.forall_mem_cons, List.not_mem_nil, false_imp_iff, implies_true, and_true]
  exact ⟨.text _, .text _, exact_natural hfits.filesScanned, .bool _,
    exact_natural hfits.catalogSize, .text _, .bool _, exact_natural hshows.score, hcounts,
    hissues⟩

/-- What has been read of the text of a report has the members of its result, each arranged. -/
theorem get?_arranged (r : Report) {key : String} {v : Json} (hv : (key, v) ∈ r.result.members) :
    (Members.ofList (r.members.map fun m => (m.1, m.2.arranged))).get? key = some v.arranged := by
  refine Members.get?_ofList ?_ (List.mem_map.mpr ⟨(key, v), List.mem_append_right _ hv, rfl⟩)
  rw [List.map_map]
  exact r.nodup_keys

/-- The count of each status is under its label. -/
theorem get?_counts (c : Counts) (s : Status) :
    (Members.ofList (c.members.map fun m => (m.1, m.2.arranged))).get? s.label =
      some (.integer (c.get s)) := by
  refine Members.get?_ofList ?_ (List.mem_map.mpr ⟨(s.label, .integer (c.get s)), ?_, rfl⟩)
  · change (Status.all.map Status.label).Nodup
    decide
  · exact List.mem_map.mpr ⟨s, s.mem_all, rfl⟩

/-- **Reading a report back.**  Let the result of a report be that of a list of issues with edited
priorities, and let its numbers fit into machine words.  Then no two of its members share a key,
its text is that of an object, the array of issues in that is read as the issues of the result in
their order, and the result of these is that of the report, with the score and the counts that the
object gives. -/
theorem reimport (r : Report) (input : List Issue) (edits : List (Nat × Priority))
    (hresult : r.result = (ScanResult.ofIssues input).edited edits) (hfits : r.FitsWords) :
    (r.members.map (·.1)).Nodup ∧
    ∃ m : Members, Json.parse r.jsonText = .ok (.object m) ∧
      ∃ items issues, m.get? "issues" = some (.array items) ∧
        Issue.listOfJson (.array items) = .ok issues ∧ issues = r.result.issues ∧
        ScanResult.ofIssues issues = r.result ∧
        m.get? "score" = some (.integer (ScanResult.ofIssues issues).score) ∧
        ∃ stats : Members, m.get? "stats" = some (.object stats) ∧
          ∀ s, stats.get? s.label = some (.integer ((ScanResult.ofIssues issues).counts.get s)) := by
  have hderived : ScanResult.Derived input r.result := by
    rw [hresult]
    exact (ScanResult.derived_ofIssues input).edited edits
  have hparse := parse_pretty (exact_members hfits hderived)
  rw [arranged_object] at hparse
  have hscore := r.get?_arranged List.mem_cons_self
  have hstats := r.get?_arranged (List.mem_cons_of_mem _ List.mem_cons_self)
  have hissues := r.get?_arranged
    (List.mem_cons_of_mem _ (List.mem_cons_of_mem _ List.mem_cons_self))
  rw [arranged_array] at hissues
  rw [arranged_object] at hstats
  refine ⟨r.nodup_keys, _, hparse, _, r.result.issues, hissues, ?_, rfl, hderived.ofIssues_eq, ?_,
    _, hstats, ?_⟩
  · rw [← arranged_array]
    exact Issue.listOfJson_arranged r.result.issues
  · rw [hderived.ofIssues_eq]
    exact hscore
  · intro s
    rw [hderived.ofIssues_eq]
    exact get?_counts r.result.counts s

/-- A use in a file, for the report below. -/
def useIn (file : String) (status : Status) (line : UInt32) : Issue :=
  ⟨file, "api-\x27\"\n", "", status, .medium, line, 4294967295⟩

/-- A report of issues that were given in another order, one of which was edited; another edit was
of an issue that is not there. -/
theorem reimport_edited :
    let input := [useIn "b/x.js" .limited 9, useIn "a.css" .widely 1, useIn "b/x.js" .unknown 2]
    let edits := [(2, Priority.high), (7, Priority.low)]
    let r : Report :=
      { root := "\\ \t\x7b", generatedAt := -1, filesScanned := 18446744073709551615, cancelled := true
        catalogSize := 0, freshness := .stale, offline := true
        result := (ScanResult.ofIssues input).edited edits }
    let issues := [useIn "a.css" .widely 1, useIn "b/x.js" .limited 9,
      { useIn "b/x.js" .unknown 2 with priority := .high }]
    r.result.issues = issues ∧ r.FitsWords ∧
    ∃ (m : Members) (items : List Json), Json.parse r.jsonText = .ok (.object m) ∧
      m.get? "issues" = some (.array items) ∧ Issue.listOfJson (.array items) = .ok issues ∧
      ScanResult.ofIssues issues = r.result ∧ m.get? "score" = some (.integer 33) := by
  intro input edits r issues
  have hsorted : ScanResult.sortByFile input =
      [useIn "a.css" .widely 1, useIn "b/x.js" .limited 9, useIn "b/x.js" .unknown 2] := by
    simp [input, useIn, ScanResult.sortByFile, List.mergeSort,
      List.MergeSort.Internal.splitInTwo]
  have hissues : r.result.issues = issues := by
    change ((ScanResult.ofIssues input).edited edits).issues = issues
    rw [ScanResult.ofIssues, hsorted]
    rfl
  have hfits : r.FitsWords := ⟨by decide, by decide, by rw [hissues]; decide⟩
  obtain ⟨-, m, hparse, items, read, hitems, hread, hsame, hresult, hscore, -⟩ :=
    reimport r input edits rfl hfits
  have hread' : read = issues := hsame.trans hissues
  rw [hread'] at hread hresult hscore
  refine ⟨hissues, hfits, m, items, hparse, hitems, hread, hresult, ?_⟩
  have hpercent : (ScanResult.ofIssues issues).score = 33 := by
    rw [hresult]
    change ((ScanResult.ofIssues input).edited edits).score = 33
    rw [ScanResult.ofIssues, hsorted]
    rfl
  rw [hscore, hpercent]
  rfl

end Report

end WebBaseline
