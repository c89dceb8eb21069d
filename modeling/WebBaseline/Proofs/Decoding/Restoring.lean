import Mathlib.Data.List.Forall2
import WebBaseline.Decimal.Bound
import WebBaseline.Decoding.Record
import WebBaseline.Encoding.Record

/-!
# Reading records back

A format restores what is written to a target if each of its operations gives
the value that was written back.  Lists, choices and records are then read back
too: a record has the changes of the fields that were written, and its defaults
elsewhere.

* `readItems_of_forall` — lists;
* `readNamed_of_forall` — fields by name, in any order;
* `Restores.readRecord` — records, of which fields may have been left out.
-/

namespace WebBaseline.Decoding

open List (Forall₂)

variable {μ ν ε R α : Type}

/-- A format gives back what is written to a target.  `conveys w n` says that the node `n` says
what was written as `w`. -/
structure Restores (t : Encoding.Target μ) (f : Format ν ε) (conveys : μ → ν → Prop) : Prop where
  natural : ∀ {k : Nat} {n : ν}, conveys (t.natural k) n → ∀ {bound}, k < bound →
    bound ≤ Bound.unsigned64 → ∀ typeName, f.natural bound typeName n = .ok k
  text : ∀ {s : String} {n : ν}, conveys (t.text s) n → ∀ expected, f.text expected n = .ok s
  choice : ∀ {s : String} {n : ν}, conveys (t.text s) n → ∀ {names}, s ∈ names →
    f.choice names n = .ok s
  boolean : ∀ {b : Bool} {n : ν}, conveys (t.boolean b) n → f.boolean n = .ok b
  items : ∀ {ws : List μ} {n : ν}, conveys (t.list ws) n →
    ∃ ns, f.items n = .ok ns ∧ Forall₂ conveys ws ns
  /-- A record is given by the names of its fields; it can be read as a dictionary. -/
  entries : ∀ {parts : List (String × μ)} {n : ν}, conveys (t.record parts) n →
    ∃ entries, (∀ expected, f.layout expected n = .ok (.named entries)) ∧
      f.entries n = .ok entries ∧
      Forall₂ (fun w e => (∀ expected, f.text expected e.1 = .ok w.1) ∧ conveys w.2 e.2)
        parts entries
  /-- What is written stands for something. -/
  natural_isNothing : ∀ {k : Nat} {n : ν}, conveys (t.natural k) n → k < Bound.unsigned64 →
    f.isNothing n = .ok false
  text_isNothing : ∀ {s : String} {n : ν}, conveys (t.text s) n → f.isNothing n = .ok false
  record_isNothing : ∀ {parts : List (String × μ)} {n : ν}, conveys (t.record parts) n →
    f.isNothing n = .ok false

/-- A part of a record: what is written for it under its name, and what reading that changes. -/
structure Part (μ R : Type) where
  name : String
  written : μ
  change : R → R

/-- What is written for parts. -/
def written (parts : List (Part μ R)) : List (String × μ) := parts.map fun p => (p.name, p.written)

/-- A field of its name reads what is written for a part as its change. -/
def Part.IsRead (conveys : μ → ν → Prop) (fields : List (Field ν ε R)) (p : Part μ R) : Prop :=
  ∃ field, fields.find? (·.name == p.name) = some field ∧
    ∀ n, conveys p.written n → field.read n = .ok p.change

/-- A field reads its value as the change that sets it. -/
theorem Part.isRead_of_find {conveys : μ → ν → Prop} {fields : List (Field ν ε R)} {p : Part μ R}
    {required : Bool} {read : ν → Except ε α} {set : α → R → R}
    (hfield : fields.find? (·.name == p.name) =
      some ⟨p.name, required, fun n => (read n).map set⟩) {a : α}
    (hread : ∀ n, conveys p.written n → read n = .ok a) (hset : set a = p.change) :
    p.IsRead conveys fields :=
  ⟨_, hfield, fun n hn => (congrArg (Except.map set) (hread n hn)).trans (congrArg _ hset)⟩

variable (f : Format ν ε)

/-- **Lists.**  A list is read if each of its items is. -/
theorem readItems_of_forall {read : ν → Except ε α} (node : ν) {as : List α} {ns : List ν}
    (h : Forall₂ (fun a n => read n = .ok a) as ns) (i : Nat) :
    f.readItems read node i ns = .ok as := by
  induction h generalizing i with
  | nil => rfl
  | cons ha _ ih => simp only [Format.readItems, ha, ih, Except.map]

/-- **Fields by name.**  Fields that are given once each change the record one after the other. -/
theorem readNamed_of_forall {fields : List (Field ν ε R)} (strict : Bool) (node : ν)
    {parts : List (Part μ R)} {entries : List (ν × ν)}
    (h : Forall₂ (fun p e => f.text "field identifier" e.1 = .ok p.name ∧
      ∃ field, fields.find? (·.name == p.name) = some field ∧ field.read e.2 = .ok p.change)
      parts entries)
    (hnames : (parts.map (·.name)).Nodup) {given : List String}
    (hgiven : ∀ name ∈ given, name ∉ parts.map (·.name)) (r : R) :
    f.readNamed fields strict node entries given r =
      .ok ((parts.map (·.name)).reverse ++ given, parts.foldl (fun r p => p.change r) r) := by
  induction h generalizing given r with
  | nil => rfl
  | @cons p e parts entries he _ ih =>
      obtain ⟨hkey, field, hfield, hread⟩ := he
      have ⟨hfirst, hrest⟩ := List.nodup_cons.mp hnames
      have hnew : p.name ∉ given := fun hmem => hgiven p.name hmem List.mem_cons_self
      have hlater : ∀ name ∈ p.name :: given, name ∉ parts.map (·.name) :=
        List.forall_mem_cons.mpr
          ⟨hfirst, fun name hname hmem => hgiven name hname (List.mem_cons_of_mem _ hmem)⟩
      rw [Format.readNamed, hkey]
      simp only [bind, Except.bind, hfield, hread, List.contains_eq_mem, hnew, decide_false,
        Bool.false_eq_true, if_false, ih hrest hlater (p.change r)]
      simp

/-- **Dictionaries.**  The entries of a dictionary are inserted one after the other. -/
theorem readTexts_of_forall (insert : String → String → α → α) (node : ν)
    {pairs : List (String × String)} {entries : List (ν × ν)}
    (h : Forall₂ (fun p e => f.text "a string" e.1 = .ok p.1 ∧ f.text "a string" e.2 = .ok p.2)
      pairs entries) (acc : α) :
    f.readTexts insert node entries acc =
      .ok (pairs.foldl (fun acc p => insert p.1 p.2 acc) acc) := by
  induction h generalizing acc with
  | nil => rfl
  | cons he _ ih =>
      obtain ⟨hkey, hvalue⟩ := he
      simp only [Format.readTexts, hkey, hvalue, bind, Except.bind, ih, List.foldl_cons]

namespace Restores

variable {f} {t : Encoding.Target μ} {conveys : μ → ν → Prop} (h : Restores t f conveys)
include h

/-- A list is read back if its items are. -/
theorem readList {read : ν → Except ε α} {write : α → μ}
    (hread : ∀ a n, conveys (write a) n → read n = .ok a) {as : List α} {n : ν}
    (hn : conveys (t.list (as.map write)) n) : f.readList read n = .ok as := by
  obtain ⟨ns, hitems, hns⟩ := h.items hn
  have hall : List.Forall₂ (fun a n => read n = .ok a) as ns :=
    (List.forall₂_map_left_iff.mp hns).imp hread
  rw [Format.readList, hitems]
  exact readItems_of_forall f n hall 0

/-- One of several named values is read back from a name that means it. -/
theorem readChoice {choices : List (String × α)} {name : String} {a : α}
    (hname : choices.find? (·.1 == name) = some (name, a)) {n : ν}
    (hn : conveys (t.text name) n) : f.readChoice choices n = .ok a := by
  have hmem : name ∈ choices.map (·.1) :=
    List.mem_map.mpr ⟨(name, a), List.mem_of_find?_eq_some hname, rfl⟩
  simp only [Format.readChoice, h.choice hn hmem, bind, Except.bind, hname]

/-- **Records.**  A record is read back from the parts that were written, each of which is found
by its name and read as a change; all that must be given are among them. -/
theorem readRecord {fields : List (Field ν ε R)} {parts : List (Part μ R)}
    (hparts : ∀ p ∈ parts, p.IsRead conveys fields)
    (hnames : (parts.map (·.name)).Nodup)
    (hrequired : ∀ field ∈ fields, field.required = true → field.name ∈ parts.map (·.name))
    (typeName : String) (strict : Bool) (start : R) {n : ν}
    (hn : conveys (t.record (written parts)) n) :
    f.readRecord typeName strict fields start n =
      .ok (parts.foldl (fun r p => p.change r) start) := by
  obtain ⟨entries, hlayout, -, hentries⟩ := h.entries hn
  have hread : Forall₂ (fun p e => f.text "field identifier" e.1 = .ok p.name ∧
      ∃ field, fields.find? (·.name == p.name) = some field ∧ field.read e.2 = .ok p.change)
      parts entries := by
    have hall := List.forall₂_map_left_iff.mp hentries
    refine ((List.forall₂_and_left _ _).mpr ⟨hparts, hall⟩).imp ?_
    rintro p e ⟨⟨field, hfield, hchange⟩, hkey, hvalue⟩
    exact ⟨hkey _, field, hfield, hchange e.2 hvalue⟩
  have hgiven : (fields.find? fun field => field.required &&
      !((parts.map (Part.name ·)).reverse ++ []).contains field.name) = none := by
    rw [List.find?_eq_none]
    intro field hfield hmissing
    rw [Bool.and_eq_true] at hmissing
    have hmem := hrequired field hfield hmissing.1
    simp only [List.append_nil, List.contains_eq_mem, List.mem_reverse, hmem, decide_true,
      Bool.not_true, Bool.false_eq_true, and_false] at hmissing
  rw [Format.readRecord, hlayout]
  simp only [bind, Except.bind,
    readNamed_of_forall f strict n hread hnames (fun name hname => absurd hname List.not_mem_nil),
    hgiven]

end Restores

end WebBaseline.Decoding
