import Mathlib.Data.List.Nodup
import Mathlib.Data.List.Perm.Basic
import WebBaseline.Proofs.Decoding.Restoring

/-!
# Records of which some fields are given

A record that is read strictly has each known field once at most, in any order,
and nothing else.  What is given takes the place of the defaults, and all other
fields keep them; so the order does not matter.

* `Format.Regular` — formats that find the same whatever is expected;
* `Given`, `Format.gives` — fields with the values that are given for them, and
  nodes that give just these;
* `readRecord_of_gives` — what is read of such a node;
* `Format.Lists`, `Format.Reaches` — entries of a node, and nodes inside it;
* `Accepted` — records all of whose entries are those of known fields.
-/

namespace WebBaseline.Decoding

open List (Forall₂)

variable {ν ε R α γ : Type}

/-- Whether a format finds the same in a node whatever is expected there, and finds no entries where
nothing is. -/
structure Format.Regular (f : Format ν ε) : Prop where
  layout : ∀ {n expected found}, f.layout expected n = .ok found →
    ∀ other, f.layout other n = .ok found
  text : ∀ {n expected s}, f.text expected n = .ok s → ∀ other, f.text other n = .ok s
  nothing : ∀ {n expected entries}, f.isNothing n = .ok true →
    f.layout expected n = .ok (.named entries) → entries = []

/-! ### Given fields -/

/-- A field that is given: its name, the nodes that say its value, and what reading one changes. -/
structure Given (ν R : Type) where
  name : String
  states : ν → Bool
  change : R → R

/-- A field, if there is a value for it; `states` tells which nodes say it. -/
def given (name : String) (states : γ → ν → Bool) (set : γ → R → R) : Option γ → List (Given ν R)
  | some a => [⟨name, states a, set a⟩]
  | none => []

/-- Whether a node is read as a value. -/
def reads [DecidableEq α] (read : ν → Except ε α) (a : α) (n : ν) : Bool :=
  decide ((read n).toOption = some a)

/-- Whether a node that may stand for nothing states a value, or nothing. -/
def Format.statesOptional (f : Format ν ε) (states : γ → ν → Bool) (a : Option γ) (n : ν) : Bool :=
  match a with
  | some a => reads f.isNothing false n && states a n
  | none => reads f.isNothing true n

/-- The entries of a node by their names. -/
def Format.members? (f : Format ν ε) (n : ν) : Option (List (String × ν)) :=
  match f.layout "" n with
  | .ok (.named entries) => entries.mapM fun e => (f.text "" e.1).toOption.map (·, e.2)
  | _ => none

/-- Whether a node gives fields: it has one entry for each of them, in any order, which states its
value, and no others. -/
def Format.gives (f : Format ν ε) (parts : List (Given ν R)) (n : ν) : Bool :=
  match f.members? n with
  | some m =>
    decide (m.map (·.1)).Nodup && (m.map (·.1)).isPerm (parts.map (·.name)) &&
      parts.all fun p => m.any fun e => e.1 == p.name && p.states e.2
  | none => false

/-- A field of its name reads every node that states a given value as its change. -/
def Given.IsRead (fields : List (Field ν ε R)) (p : Given ν R) : Prop :=
  ∃ field, fields.find? (·.name == p.name) = some field ∧
    ∀ n, p.states n = true → field.read n = .ok p.change

/-- What holds of all given fields holds of the one that may be given. -/
theorem forall_mem_given {name : String} {states : γ → ν → Bool} {set : γ → R → R} {o : Option γ}
    {P : Given ν R → Prop} :
    (∀ p ∈ given name states set o, P p) ↔ ∀ a, o = some a → P ⟨name, states a, set a⟩ := by
  cases o <;> simp [given]

/-- What a field changes that may be given. -/
theorem foldl_given {name : String} {states : γ → ν → Bool} {set : γ → R → R} (o : Option γ)
    (r : R) :
    (given name states set o).foldl (fun r p => p.change r) r = o.elim r (set · r) := by
  cases o <;> rfl

/-- An outcome that gives a value is no error. -/
theorem eq_ok_of_toOption {outcome : Except ε α} {a : α} (h : outcome.toOption = some a) :
    outcome = .ok a := by
  cases outcome with
  | error e => cases h
  | ok b => exact congrArg Except.ok (Option.some.inj h)

/-- What a node is read as. -/
theorem eq_ok_of_reads [DecidableEq α] {read : ν → Except ε α} {a : α} {n : ν}
    (h : reads read a n = true) : read n = .ok a :=
  eq_ok_of_toOption (of_decide_eq_true h)

/-- What may stand for nothing is read as what it says. -/
theorem readOptional_of_statesOptional {f : Format ν ε} {states : γ → ν → Bool}
    {read : ν → Except ε α} {value : γ → α}
    (hread : ∀ a n, states a n = true → read n = .ok (value a)) {a : Option γ} {n : ν}
    (h : f.statesOptional states a n = true) :
    f.readOptional read n = .ok (a.map value) := by
  cases a with
  | none =>
      have hnothing : f.isNothing n = .ok true := eq_ok_of_reads h
      rw [Format.readOptional, hnothing]
      rfl
  | some a =>
      rw [Format.statesOptional, Bool.and_eq_true] at h
      have hsomething : f.isNothing n = .ok false := eq_ok_of_reads h.1
      rw [Format.readOptional, hsomething]
      simp only [bind, Except.bind, Bool.false_eq_true, if_false, hread a n h.2]
      rfl

/-- Whether all given fields are read as their changes. -/
def AllRead (fields : List (Field ν ε R)) (parts : List (Given ν R)) : Prop :=
  ∀ p ∈ parts, p.IsRead fields

namespace AllRead

variable {fields : List (Field ν ε R)} {name : String} {read : ν → Except ε α} {set : α → R → R}

/-- Given fields are read apart. -/
theorem append {parts more : List (Given ν R)} (h : AllRead fields parts)
    (hmore : AllRead fields more) : AllRead fields (parts ++ more) :=
  List.forall_mem_append.mpr ⟨h, hmore⟩

/-- A field that may be given is read if every node that states a value of it is. -/
theorem of_states {states : γ → ν → Bool} {change : γ → R → R} {o : Option γ} (value : γ → α)
    (hfield : fields.find? (·.name == name) = some (.optional name read set))
    (hchange : ∀ a, change a = set (value a))
    (hread : ∀ a n, states a n = true → read n = .ok (value a)) :
    AllRead fields (given name states change o) :=
  forall_mem_given.mpr fun a _ => ⟨_, hfield, fun n hn =>
    (congrArg (Except.map set) (hread a n hn)).trans (congrArg Except.ok (hchange a).symm)⟩

/-- So is a field whose values are stated by being read. -/
theorem of_reads [DecidableEq α] {o : Option α}
    (hfield : fields.find? (·.name == name) = some (.optional name read set)) :
    AllRead fields (given name (reads read) set o) :=
  of_states id hfield (fun _ => rfl) fun _ _ => eq_ok_of_reads

end AllRead

/-- Whether changes of different fields do not get in each other's way. -/
def AllApart (parts : List (Given ν R)) : Prop :=
  ∀ p ∈ parts, ∀ q ∈ parts, p.name ≠ q.name → ∀ r, q.change (p.change r) = p.change (q.change r)

variable {f : Format ν ε}

/-- What is made of all items of a list is made of them one by one. -/
theorem forall₂_of_mapM {β : Type} {g : α → Option β} {l : List α} {r : List β}
    (h : l.mapM g = some r) : Forall₂ (fun a b => g a = some b) l r := by
  induction l generalizing r with
  | nil =>
      obtain rfl := Option.some.inj h
      exact .nil
  | cons a l ih =>
      simp only [List.mapM_cons, Option.bind_eq_bind, Option.bind_eq_some_iff, Option.pure_def,
        Option.some.injEq] at h
      obtain ⟨b, hb, rest, hrest, rfl⟩ := h
      exact .cons hb (ih hrest)

/-- The entries of a node with its members, in the order of the node. -/
theorem exists_entries_of_members? (hregular : f.Regular) {n : ν} {m : List (String × ν)}
    (h : f.members? n = some m) :
    ∃ entries, (∀ expected, f.layout expected n = .ok (.named entries)) ∧
      Forall₂ (fun p e => (∀ expected, f.text expected e.1 = .ok p.1) ∧ e.2 = p.2) m entries := by
  rw [Format.members?] at h
  split at h
  next entries hlayout =>
    refine ⟨entries, hregular.layout hlayout, (forall₂_of_mapM h).flip.imp ?_⟩
    rintro p e hp
    obtain ⟨name, hname, rfl⟩ := Option.map_eq_some_iff.mp hp
    exact ⟨hregular.text (eq_ok_of_toOption hname), rfl⟩
  next => cases h

/-- What stands at the same places of two lists as something of a third. -/
theorem forall₂_of_forall₂ {β : Type} {A : α → β → Prop} {B : α → γ → Prop} {l : List α}
    {u : List β} {v : List γ} (hA : Forall₂ A l u) (hB : Forall₂ B l v) :
    Forall₂ (fun b c => ∃ a, A a b ∧ B a c) u v := by
  induction hA generalizing v with
  | nil =>
      cases hB
      exact .nil
  | cons ha _ ih =>
      cases hB with
      | cons hb hrest => exact .cons ⟨_, ha, hb⟩ (ih hrest)

/-- **Given fields.**  A node that gives fields is read as the record in which their values take the
place of the defaults, whatever their order is. -/
theorem readRecord_of_gives (hregular : f.Regular) {fields : List (Field ν ε R)}
    (hoptional : ∀ field ∈ fields, field.required = false) {parts : List (Given ν R)}
    (hread : AllRead fields parts) (hapart : AllApart parts) (typeName : String) (strict : Bool)
    (start : R) {n : ν} (h : f.gives parts n = true) :
    f.readRecord typeName strict fields start n =
      .ok (parts.foldl (fun r p => p.change r) start) := by
  rw [Format.gives] at h
  split at h
  next m hmembers =>
    simp only [Bool.and_eq_true, decide_eq_true_eq, List.isPerm_iff, List.all_eq_true,
      List.any_eq_true, beq_iff_eq] at h
    obtain ⟨⟨hnames, hperm⟩, hstates⟩ := h
    obtain ⟨entries, hlayout, hentries⟩ := exists_entries_of_members? hregular hmembers
    -- The given fields in the order of the node, and the one entry of each.
    obtain ⟨order, hsame, horder⟩ := List.perm_comp_forall₂ hperm
      (List.forall₂_map_left_iff.mpr (List.forall₂_same.mpr fun p (_ : p ∈ parts) => rfl) :
        Forall₂ (fun name p => name = Given.name p) (parts.map (·.name)) parts)
    have hmember : ∀ x ∈ m, ∀ p ∈ parts, x.1 = p.name → p.states x.2 = true := by
      intro x hx p hp hname
      obtain ⟨y, hy, hyname, hyvalue⟩ := hstates p hp
      rwa [List.inj_on_of_nodup_map hnames hx hy (hname.trans hyname.symm)]
    have hvalues : Forall₂ (fun p e => f.text "field identifier" e.1 = .ok p.name ∧
        ∃ field, fields.find? (·.name == p.name) = some field ∧ field.read e.2 = .ok p.change)
        (order.map fun p => (⟨p.name, (), p.change⟩ : Part Unit R)) entries := by
      refine List.forall₂_map_left_iff.mpr ?_
      have hfound := forall₂_of_forall₂ (List.forall₂_map_left_iff.mp hsame)
        ((List.forall₂_and_left _ _).mpr ⟨hmember, hentries⟩)
      refine ((List.forall₂_and_left _ _).mpr ⟨fun p => horder.mem_iff.mp, hfound⟩).imp ?_
      rintro p e ⟨hp, x, hname, hx, htext, hvalue⟩
      obtain ⟨field, hfield, hchange⟩ := hread p hp
      exact ⟨hname ▸ htext _, field, hfield, hchange _ (hvalue ▸ hx p hp hname)⟩
    have hnodup : ((order.map fun p => (⟨p.name, (), p.change⟩ : Part Unit R)).map
        (·.name)).Nodup := by
      rw [List.map_map]
      exact (horder.map Given.name).nodup_iff.mpr (hperm.nodup_iff.mp hnames)
    have hnone : ∀ given : List String,
        (fields.find? fun field => field.required && !given.contains field.name) = none := by
      intro given
      rw [List.find?_eq_none]
      intro field hfield
      simp [hoptional field hfield]
    rw [Format.readRecord, hlayout]
    simp only [bind, Except.bind, readNamed_of_forall f strict n hvalues hnodup
      (fun name hname => absurd hname List.not_mem_nil), hnone, List.foldl_map]
    refine congrArg Except.ok (horder.foldl_eq' (fun p hp q hq r => ?_) start)
    rcases eq_or_ne p.name q.name with hsame | hne
    · have hparts : (parts.map Given.name).Nodup := hperm.nodup_iff.mp hnames
      rw [List.inj_on_of_nodup_map hparts (horder.mem_iff.mp hp) (horder.mem_iff.mp hq) hsame]
    · exact hapart p (horder.mem_iff.mp hp) q (horder.mem_iff.mp hq) hne r
  next => cases h

/-! ### Entries of records -/

/-- Whether a node has an entry. -/
def Format.Lists (f : Format ν ε) (n : ν) (entry : ν × ν) : Prop :=
  ∃ entries, f.layout "" n = .ok (.named entries) ∧ entry ∈ entries

/-- The nodes that are reached from a node by the names of entries. -/
inductive Format.Reaches (f : Format ν ε) : ν → List String → ν → Prop
  | here (n : ν) : Reaches f n [] n
  | inside {n key value m : ν} {name : String} {path : List String}
      (entry : f.Lists n (key, value)) (named : f.text "" key = .ok name)
      (reaches : Reaches f value path m) : Reaches f n (name :: path) m

/-- Fields that were read by name are known, and their values were read. -/
theorem read_of_readNamed_ok {fields : List (Field ν ε R)} {node : ν} {entries : List (ν × ν)}
    {names : List String} {r : R} {outcome : List String × R}
    (h : f.readNamed fields true node entries names r = .ok outcome) :
    ∀ e ∈ entries, ∃ name, f.text "field identifier" e.1 = .ok name ∧
      ∃ field, fields.find? (·.name == name) = some field ∧
        ∃ change, field.read e.2 = .ok change := by
  induction entries generalizing names r with
  | nil => exact fun e he => absurd he List.not_mem_nil
  | cons e entries ih =>
      obtain ⟨key, value⟩ := e
      rw [Format.readNamed] at h
      cases htext : f.text "field identifier" key with
      | error err =>
          rw [htext] at h
          cases h
      | ok name =>
          simp only [htext, bind, Except.bind] at h
          cases hfield : fields.find? (·.name == name) with
          | none =>
              simp only [hfield, if_true] at h
              cases h
          | some field =>
              simp only [hfield] at h
              split at h
              · cases h
              · cases hread : field.read value with
                | error err =>
                    simp only [hread] at h
                    cases h
                | ok change =>
                    simp only [hread] at h
                    exact List.forall_mem_cons.mpr
                      ⟨⟨name, htext, field, hfield, change, hread⟩, ih h⟩

/-- Whether every entry of a node is that of a known field, and its value is read. -/
def Accepted (f : Format ν ε) (fields : List (Field ν ε R)) (n : ν) : Prop :=
  ∀ key value, f.Lists n (key, value) → ∃ name, f.text "" key = .ok name ∧
    ∃ field, fields.find? (·.name == name) = some field ∧ ∃ change, field.read value = .ok change

namespace Accepted

variable {fields : List (Field ν ε R)} {n : ν}

/-- **Accepted records.**  A record that is read strictly has entries of known fields only. -/
theorem of_readRecord_ok (hregular : f.Regular) {typeName : String} {start r : R}
    (h : f.readRecord typeName true fields start n = .ok r) : Accepted f fields n := by
  rintro key value ⟨entries, hlayout, hmem⟩
  rw [Format.readRecord, hregular.layout hlayout] at h
  simp only [bind, Except.bind] at h
  split at h
  · cases h
  · rename_i outcome hnamed
    obtain ⟨name, htext, hfield⟩ := read_of_readNamed_ok hnamed _ hmem
    exact ⟨name, hregular.text htext "", hfield⟩

/-- A node that may stand for nothing is accepted if it is wherever it stands for something. -/
theorem of_readOptional_ok (hregular : f.Regular) {read : ν → Except ε α} {found : Option α}
    (h : f.readOptional read n = .ok found) (hread : ∀ a, read n = .ok a → Accepted f fields n) :
    Accepted f fields n := by
  intro key value hentry
  rw [Format.readOptional] at h
  cases hnothing : f.isNothing n with
  | error e =>
      rw [hnothing] at h
      cases h
  | ok nothing =>
      cases nothing with
      | true =>
          obtain ⟨entries, hlayout, hmem⟩ := hentry
          rw [hregular.nothing hnothing hlayout] at hmem
          exact absurd hmem List.not_mem_nil
      | false =>
          cases hvalue : read n with
          | error e =>
              simp only [hnothing, hvalue, bind, Except.bind, Except.map, Bool.false_eq_true,
                if_false] at h
              cases h
          | ok a => exact hread a hvalue key value hentry

/-- The key of an entry is one of the known names. -/
theorem known (h : Accepted f fields n) {key value : ν} (hentry : f.Lists n (key, value)) :
    ∃ name ∈ fields.map (·.name), f.text "" key = .ok name := by
  obtain ⟨name, htext, field, hfield, -⟩ := h key value hentry
  have hname : field.name = name := by simpa using List.find?_some hfield
  exact ⟨name, List.mem_map.mpr ⟨field, List.mem_of_find?_eq_some hfield, hname⟩, htext⟩

/-- The value of an entry was read as that of its field. -/
theorem inside (h : Accepted f fields n) {key value : ν} (hentry : f.Lists n (key, value))
    {name : String} (hname : f.text "" key = .ok name) {read : ν → Except ε α} {set : α → R → R}
    (hfield : fields.find? (·.name == name) = some (.optional name read set)) :
    ∃ a, read value = .ok a := by
  obtain ⟨found, htext, field, hfound, change, hchange⟩ := h key value hentry
  obtain rfl := Except.ok.inj (hname.symm.trans htext)
  obtain rfl := Option.some.inj (hfield.symm.trans hfound)
  cases hvalue : read value with
  | error e =>
      simp only [Field.optional, hvalue] at hchange
      cases hchange
  | ok a => exact ⟨a, rfl⟩

end Accepted

end WebBaseline.Decoding
