import WebBaseline.Proofs.Files.Listing

/-!
# Trees that only grow

Making a directory where nothing is, and writing a file where nothing or a file
is, leaves everything else in a tree as it is.  So a path that means a directory
goes on to mean one.

* `Extends` — everything in a tree is in another one, files maybe with other
  contents; `SameFile` — both have the same files;
* `Tolerant.put`, `Tolerant.put_new` — changes at one place;
* `means_follow` — what a path means whose last part may be missing;
* `Extends.follow_existing`, `Extends.at?` — what a path means in a tree has its
  like in a larger one;
* `extends_makeDirectories`, `sameFile_makeDirectories` — directories are made
  without a loss, and no file comes, goes or changes.
-/

namespace WebBaseline.FileTree

/-- Whether two trees are both files, both directories, or the same link. -/
inductive Alike : FileTree → FileTree → Prop where
  | file (c d : Content) : Alike (.file c) (.file d)
  | directory (entries others : List (String × FileTree)) :
      Alike (.directory entries) (.directory others)
  | link (target : String) : Alike (.link target) (.link target)

/-- A tree is like itself. -/
theorem Alike.refl (t : FileTree) : Alike t t := by
  cases t with
  | file c => exact .file c c
  | directory entries => exact .directory entries entries
  | link target => exact .link target

/-- Trees that are like the same tree are alike. -/
theorem Alike.trans {t u v : FileTree} (hfirst : Alike t u) (hsecond : Alike u v) :
    Alike t v := by
  cases hfirst with
  | file c _ =>
      obtain ⟨_, d⟩ := hsecond
      exact .file c d
  | directory entries _ =>
      obtain _ | ⟨_, others⟩ := hsecond
      exact .directory entries others
  | link target => exact hsecond

/-- Whether what is at the same names in two trees is related. -/
def Throughout (R : Option FileTree → Option FileTree → Prop) (t u : FileTree) : Prop :=
  ∀ names, R (t.get? names) (u.get? names)

/-- Whether a relation allows that directories differ. -/
structure Tolerant (R : Option FileTree → Option FileTree → Prop) : Prop where
  refl : ∀ a, R a a
  directories : ∀ entries others, R (some (directory entries)) (some (directory others))

/-- Whether something is not missing if another is there, and is like it. -/
def Stays (a b : Option FileTree) : Prop := ∀ v, a = some v → ∃ v', b = some v' ∧ Alike v v'

/-- Whether everything in a tree is also in another one, in the same place. -/
def Extends : FileTree → FileTree → Prop := Throughout Stays

theorem tolerant_stays : Tolerant Stays where
  refl _ v h := ⟨v, h, Alike.refl v⟩
  directories entries others v h := by
    obtain rfl := Option.some.inj h
    exact ⟨_, rfl, .directory entries others⟩

/-- A tree extends itself. -/
theorem Extends.refl (t : FileTree) : Extends t t := fun _ => tolerant_stays.refl _

/-- An extension may be extended. -/
theorem Extends.trans {t u v : FileTree} (hfirst : Extends t u) (hsecond : Extends u v) :
    Extends t v := by
  intro names a ha
  obtain ⟨b, hb, hab⟩ := hfirst names a ha
  obtain ⟨c, hc, hbc⟩ := hsecond names b hb
  exact ⟨c, hc, hab.trans hbc⟩

/-- Whether one is a certain file if the other is. -/
def SameFile (a b : Option FileTree) : Prop := ∀ c, b = some (file c) ↔ a = some (file c)

theorem tolerant_sameFile : Tolerant SameFile where
  refl _ _ := Iff.rfl
  directories _ _ _ := ⟨nofun, nofun⟩

/-! ### Changes at one place -/

/-- What is below some names is looked up there. -/
theorem get?_append (t : FileTree) (names rest : List String) :
    t.get? (names ++ rest) = (t.get? names).bind (get? rest) := by
  induction names generalizing t with
  | nil => rfl
  | cons name names ih =>
      cases t with
      | directory entries =>
          rw [List.cons_append, get?_directory_cons, get?_directory_cons, Option.bind_assoc]
          exact congrArg _ (funext ih)
      | _ => rfl

/-- The first entry is found by its name, the others by theirs. -/
theorem lookup_cons_eq_ite (n : String) (t : FileTree) (rest : List (String × FileTree))
    (name : String) :
    ((n, t) :: rest).lookup name = if name = n then some t else rest.lookup name := by
  rw [List.lookup_cons]
  by_cases h : name = n
  · rw [beq_iff_eq.mpr h, if_pos h]
  · rw [beq_eq_false_iff_ne.mpr h, if_neg h]

/-- What is found by a name under which something was put. -/
theorem lookup_putEntry (name : String) (t : FileTree) (entries : List (String × FileTree))
    (other : String) :
    (putEntry name t entries).lookup other =
      if other = name then some t else entries.lookup other := by
  induction entries with
  | nil => exact lookup_cons_eq_ite name t [] other
  | cons e rest ih =>
      obtain ⟨n, u⟩ := e
      rw [putEntry]
      by_cases hn : n = name
      · subst hn
        rw [if_pos rfl, lookup_cons_eq_ite, lookup_cons_eq_ite]
        split <;> rfl
      · rw [if_neg hn, lookup_cons_eq_ite, lookup_cons_eq_ite, ih]
        by_cases hother : other = n
        · rw [if_pos hother, if_pos hother, if_neg (hother ▸ hn)]
        · rw [if_neg hother, if_neg hother]

/-- Putting what is there changes nothing. -/
theorem putEntry_self {name : String} {t : FileTree} {entries : List (String × FileTree)}
    (h : entries.lookup name = some t) : putEntry name t entries = entries := by
  induction entries with
  | nil => cases h
  | cons e rest ih =>
      obtain ⟨n, u⟩ := e
      rw [lookup_cons_eq_ite] at h
      rw [putEntry]
      by_cases hn : n = name
      · rw [if_pos hn.symm] at h
        rw [if_pos hn, hn, Option.some.inj h]
      · rw [if_neg (Ne.symm hn)] at h
        rw [if_neg hn, ih h]

/-- What was put is there. -/
theorem get?_put (t : FileTree) (names : List String) (new : FileTree) :
    (t.put names new).get? names = some new := by
  induction names generalizing t with
  | nil => rfl
  | cons name rest ih =>
      cases t with
      | directory entries =>
          rw [put, get?_directory_cons, lookup_putEntry, if_pos rfl]
          exact ih _
      | _ => exact (congrArg (Option.bind · (get? rest)) (List.lookup_cons_self ..)).trans (ih _)

/-- Putting what is there changes nothing. -/
theorem put_self {t u : FileTree} {names : List String} (h : t.get? names = some u) :
    t.put names u = t := by
  induction names generalizing t with
  | nil => exact (Option.some.inj h).symm
  | cons name rest ih =>
      cases t with
      | directory entries =>
          obtain ⟨v, hv, hrest⟩ := Option.bind_eq_some_iff.mp h
          rw [put, hv, Option.getD_some, ih hrest, putEntry_self hv]
      | _ => cases h

/-- Putting something into a directory is putting another directory in its place. -/
theorem put_append_singleton {t : FileTree} {names : List String}
    {entries : List (String × FileTree)} (h : t.get? names = some (directory entries))
    (part : String) (new : FileTree) :
    t.put (names ++ [part]) new = t.put names (directory (putEntry part new entries)) := by
  induction names generalizing t with
  | nil =>
      obtain rfl := Option.some.inj h
      rfl
  | cons name rest ih =>
      cases t with
      | directory es =>
          obtain ⟨v, hv, hrest⟩ := Option.bind_eq_some_iff.mp h
          rw [List.cons_append, put, put, hv, Option.getD_some, ih hrest]
      | _ => cases h

/-- Whether some names are those of a missing entry of a directory that is there. -/
inductive IsFree (t : FileTree) : List String → Prop where
  | entry {names : List String} {entries : List (String × FileTree)} {part : String}
      (hdirectory : t.get? names = some (directory entries))
      (hmissing : entries.lookup part = none) : IsFree t (names ++ [part])

section Throughout

variable {R : Option FileTree → Option FileTree → Prop} (hR : Tolerant R)
include hR

/-- A directory may change in one entry. -/
theorem Tolerant.putEntry {name : String} {new : FileTree} {entries : List (String × FileTree)}
    (h : ∀ rest, R ((entries.lookup name).bind (get? rest)) (new.get? rest)) :
    Throughout R (directory entries) (directory (FileTree.putEntry name new entries)) := by
  intro names
  cases names with
  | nil => exact hR.directories _ _
  | cons first rest =>
      rw [get?_directory_cons, get?_directory_cons, lookup_putEntry]
      by_cases hfirst : first = name
      · rw [if_pos hfirst, hfirst]
        exact h rest
      · rw [if_neg hfirst]
        exact hR.refl _

/-- A tree may change at some names. -/
theorem Tolerant.put {t old new : FileTree} {names : List String} (h : t.get? names = some old)
    (hnew : Throughout R old new) : Throughout R t (t.put names new) := by
  induction names generalizing t with
  | nil =>
      obtain rfl := Option.some.inj h
      exact hnew
  | cons name rest ih =>
      cases t with
      | directory entries =>
          obtain ⟨u, hu, hrest⟩ := Option.bind_eq_some_iff.mp h
          rw [FileTree.put, hu, Option.getD_some]
          refine hR.putEntry fun others => ?_
          rw [hu]
          exact ih hrest others
      | _ => cases h

/-- A tree may get something where nothing is. -/
theorem Tolerant.put_new {t : FileTree} {names : List String} (h : t.IsFree names)
    {new : FileTree} (hnew : ∀ rest, R none (new.get? rest)) :
    Throughout R t (t.put names new) := by
  obtain ⟨hdirectory, hmissing⟩ := h
  rw [put_append_singleton hdirectory]
  refine hR.put hdirectory (hR.putEntry fun rest => ?_)
  rw [hmissing]
  exact hnew rest

end Throughout

/-- Nothing is lost when a file is put in the place of another one. -/
theorem Extends.put_file {t : FileTree} {names : List String} {c : Content}
    (h : t.get? names = some (file c)) (d : Content) : Extends t (t.put names (file d)) := by
  refine tolerant_stays.put h fun others v hv => ?_
  cases others with
  | nil =>
      obtain rfl := Option.some.inj hv
      exact ⟨_, rfl, .file c d⟩
  | cons => cases hv

/-- Nothing is lost when something is put where nothing is. -/
theorem Extends.put_new {t : FileTree} {names : List String} (h : t.IsFree names)
    (new : FileTree) : Extends t (t.put names new) :=
  tolerant_stays.put_new h fun _ _ h => by cases h

/-- No file comes or goes when a directory is put where nothing is. -/
theorem sameFile_put_directory {t : FileTree} {names : List String} (h : t.IsFree names) :
    Throughout SameFile t (t.put names (directory [])) := by
  refine tolerant_sameFile.put_new h fun rest c => ⟨fun hc => ?_, nofun⟩
  cases rest <;> cases hc

/-! ### Following paths -/

/-- Whether there is something at some names. -/
def Has (t : FileTree) (names : List String) : Prop := (t.get? names).isSome = true

/-- A tree is there itself. -/
theorem has_nil (t : FileTree) : t.Has [] := rfl

/-- A directory has what one of its entries leads to. -/
theorem get?_append_singleton {t : FileTree} {names : List String}
    {entries : List (String × FileTree)} (h : t.get? names = some (directory entries))
    (part : String) : t.get? (names ++ [part]) = entries.lookup part := by
  rw [get?_append, h, Option.bind_some, get?_directory_cons]
  cases entries.lookup part <;> rfl

/-- Above what is there is something, too. -/
theorem Has.dropLast {t : FileTree} {names : List String} (h : t.Has names) :
    t.Has names.dropLast := by
  rcases List.eq_nil_or_concat' names with rfl | ⟨before, last, rfl⟩
  · exact h
  · rw [Has, get?_append] at h
    rw [List.dropLast_concat, Has]
    cases hbefore : t.get? before with
    | none => rw [hbefore] at h; cases h
    | some u => rfl

/-- What is known of the names that a path means if its last part may be missing: they are free,
or something is there.  Then the path means something also where nothing may be missing. -/
def FreeOrThere (t : FileTree) (found : List String) (strict : Except OsError (List String)) :
    Prop :=
  t.IsFree found ∨ t.Has found ∧ ∃ other, strict = .ok other

/-- Following parts up to a link leads to what is known if going on from the link does. -/
theorem means_followUpTo {t : FileTree}
    {beyond strictly : List String → List String → Except OsError (List String)}
    (hbeyond : ∀ names parts found, t.Has names → beyond names parts = .ok found →
      t.FreeOrThere found (strictly names parts))
    {names parts found : List String} (hnames : t.Has names)
    (h : followUpTo t .missing beyond names parts = .ok found) :
    t.FreeOrThere found (followUpTo t .entry strictly names parts) := by
  -- Only the last part may be missing, so both ways part only there: at a free name, or at a link.
  induction parts generalizing names with
  | nil =>
      obtain rfl := Except.ok.inj h
      exact Or.inr ⟨hnames, names, rfl⟩
  | cons part rest ih =>
      rw [followUpTo] at h ⊢
      split at h
      next entries hentries =>
        by_cases hup : part = ".."
        · rw [if_pos hup] at h ⊢
          exact ih hnames.dropLast h
        · rw [if_neg hup] at h ⊢
          cases hlookup : entries.lookup part with
          | none =>
              simp only [hlookup] at h
              split at h
              · obtain rfl := Except.ok.inj h
                exact Or.inl (.entry hentries hlookup)
              · cases h
          | some u =>
              have hbelow : t.Has (names ++ [part]) := by
                rw [Has, get?_append_singleton hentries, hlookup]
                rfl
              cases u with
              | link target =>
                  have hbase : t.Has (if Path.isAbsolute target then [] else names) := by
                    split
                    · rfl
                    · exact hnames
                  have hmissing : (rest.isEmpty && Ending.missing == Ending.entry) = false :=
                    Bool.and_false _
                  simp only [hlookup, hmissing, Bool.false_eq_true, if_false] at h ⊢
                  obtain hfree | ⟨hfound, hstrict⟩ := hbeyond _ _ _ hbase h
                  · exact Or.inl hfree
                  · refine Or.inr ⟨hfound, ?_⟩
                    split
                    · exact ⟨_, rfl⟩
                    · exact hstrict
              | _ =>
                  simp only [hlookup] at h ⊢
                  exact ih hbelow h
      next => cases h

/-- Following parts leads to what is known, through links as well. -/
theorem means_follow (t : FileTree) (links : Nat) {names parts found : List String}
    (hnames : t.Has names) (h : follow t .missing links names parts = .ok found) :
    t.FreeOrThere found (follow t .entry links names parts) := by
  induction links generalizing names parts found with
  | zero => exact means_followUpTo (fun _ _ _ _ h => by cases h) hnames h
  | succ links ih => exact means_followUpTo (fun _ _ _ => ih) hnames h

/-- Parts that are all there lead to the same names in a larger tree, up to a link. -/
theorem Extends.followUpTo_existing {t u : FileTree} (h : Extends t u)
    {beyond beyond' : List String → List String → Except OsError (List String)}
    (hbeyond : ∀ names parts found, beyond names parts = .ok found →
      beyond' names parts = .ok found)
    {names parts found : List String}
    (hfound : followUpTo t .existing beyond names parts = .ok found) :
    followUpTo u .existing beyond' names parts = .ok found := by
  induction parts generalizing names with
  | nil => exact hfound
  | cons part rest ih =>
      rw [followUpTo] at hfound
      split at hfound
      next entries hentries =>
        obtain ⟨v, hv, halike⟩ := h names _ hentries
        obtain _ | ⟨_, others⟩ := halike
        rw [followUpTo, hv]
        by_cases hup : part = ".."
        · simp only [if_pos hup] at hfound ⊢
          exact ih hfound
        · simp only [if_neg hup] at hfound ⊢
          cases hlookup : entries.lookup part with
          | none =>
              have hmissing : (rest.isEmpty && Ending.existing == Ending.missing) = false :=
                Bool.and_false _
              simp only [hlookup, hmissing] at hfound
              cases hfound
          | some w =>
              obtain ⟨w', hw', halike⟩ := h (names ++ [part]) w
                ((get?_append_singleton hentries part).trans hlookup)
              rw [get?_append_singleton hv] at hw'
              have hentry : (rest.isEmpty && Ending.existing == Ending.entry) = false :=
                Bool.and_false _
              cases halike with
              | link target =>
                  simp only [hlookup, hw', hentry] at hfound ⊢
                  exact hbeyond _ _ _ hfound
              | _ =>
                  simp only [hlookup, hw'] at hfound ⊢
                  exact ih hfound
      next => cases hfound

/-- Parts that are all there lead to the same names in a larger tree, through links as well. -/
theorem Extends.follow_existing {t u : FileTree} (h : Extends t u) {links : Nat}
    {names parts found : List String} (hfound : follow t .existing links names parts = .ok found) :
    follow u .existing links names parts = .ok found := by
  induction links generalizing names parts found with
  | zero => exact h.followUpTo_existing (fun _ _ _ h => by cases h) hfound
  | succ links ih => exact h.followUpTo_existing (fun _ _ _ => ih) hfound

/-- A path means the names to which its parts lead.  One that ends with a slash, or with a dot
after one, means a directory, if anything. -/
theorem resolve_eq_ok_iff {t : FileTree} {ending : Ending} {path : String} {names : List String} :
    resolve t ending path = .ok names ↔
      path.isEmpty = false ∧ follow t ending mostLinks [] (Path.parts path) = .ok names ∧
        ∀ v, t.get? names = some v → (path.endsWith "/" || path.endsWith "/.") = true →
          v.isDirectory = true := by
  unfold resolve
  generalize (path.endsWith "/" || path.endsWith "/.") = asDirectory
  cases path.isEmpty with
  | true => exact ⟨nofun, fun h => Bool.noConfusion h.1⟩
  | false =>
      cases follow t ending mostLinks [] (Path.parts path) with
      | error e => exact ⟨nofun, fun h => nomatch h.2.1⟩
      | ok found =>
          have hmatch : (∀ v, t.get? found = some v → asDirectory = true → v.isDirectory = true) ↔
              ∀ v, t.get? found = some v → (asDirectory && !v.isDirectory) = false := by
            simp
          simp only [bind, Except.bind, Bool.false_eq_true, if_false]
          constructor
          · intro h
            split at h
            next u hu =>
              split at h
              · cases h
              · rename_i hproper
                obtain rfl := Except.ok.inj h
                refine ⟨trivial, rfl, hmatch.mpr fun v hv => ?_⟩
                obtain rfl := Option.some.inj (hu.symm.trans hv)
                exact Bool.eq_false_iff.mpr hproper
            next hu =>
              obtain rfl := Except.ok.inj h
              refine ⟨trivial, rfl, fun v hv => ?_⟩
              rw [hu] at hv
              cases hv
          · rintro ⟨-, hfound, hdirectory⟩
            obtain rfl := Except.ok.inj hfound
            split
            next u hu =>
              rw [hmatch.mp hdirectory u hu]
              rfl
            next => rfl

/-- What is at a path is what is at its names. -/
theorem at?_eq_ok_iff {t : FileTree} {path : String} {v : FileTree} :
    t.at? path = .ok v ↔ ∃ names, resolve t .existing path = .ok names ∧ t.get? names = some v := by
  unfold FileTree.at?
  cases resolve t .existing path with
  | error e => exact ⟨nofun, fun ⟨_, h, _⟩ => nomatch h⟩
  | ok names =>
      simp only [bind, Except.bind, Except.ok.injEq, exists_eq_left']
      cases hnames : t.get? names with
      | none => exact ⟨nofun, nofun⟩
      | some u =>
          exact ⟨fun h => congrArg some (Except.ok.inj h),
            fun h => congrArg Except.ok (Option.some.inj h)⟩

/-- **Paths in a larger tree.**  What a path means has its like there. -/
theorem Extends.at? {t u : FileTree} (h : Extends t u) {path : String} {v : FileTree}
    (hv : t.at? path = .ok v) : ∃ v', u.at? path = .ok v' ∧ Alike v v' := by
  obtain ⟨names, hnames, hfound⟩ := at?_eq_ok_iff.mp hv
  obtain ⟨hnonempty, hfollow, hdirectory⟩ := resolve_eq_ok_iff.mp hnames
  obtain ⟨v', hv', halike⟩ := h names v hfound
  refine ⟨v', at?_eq_ok_iff.mpr ⟨names, resolve_eq_ok_iff.mpr ⟨hnonempty,
    h.follow_existing hfollow, fun w hw hslash => ?_⟩, hv'⟩, halike⟩
  obtain rfl := Option.some.inj (hv'.symm.trans hw)
  have hkind := hdirectory v hfound hslash
  cases halike with
  | directory => rfl
  | _ => exact hkind

/-! ### Making directories and writing files -/

/-- Where something may be missing and nothing is, the names are free. -/
theorem isFree_of_follow_missing {t : FileTree} {parts names : List String}
    (h : follow t .missing mostLinks [] parts = .ok names) (hnone : t.get? names = none) :
    t.IsFree names := by
  obtain hfree | ⟨hfound, -⟩ := means_follow t mostLinks t.has_nil h
  · exact hfree
  · rw [Has, hnone] at hfound
    cases hfound

/-- A directory is made where nothing is. -/
theorem makeDirectory_eq_ok {t u : FileTree} {parts : List String}
    (h : t.makeDirectory parts = .ok u) :
    ∃ names, t.IsFree names ∧ u = t.put names (directory []) := by
  rw [makeDirectory] at h
  split at h
  next => cases h
  next e hentry =>
    cases hmissing : follow t .missing mostLinks [] parts with
    | error e => rw [hmissing] at h; cases h
    | ok names =>
        rw [hmissing] at h
        -- Had something been there, the first attempt to follow the path would have found it.
        obtain hfree | ⟨-, other, hother⟩ := means_follow t mostLinks t.has_nil hmissing
        · exact ⟨names, hfree, (Except.ok.inj h).symm⟩
        · rw [hentry] at hother
          cases hother

/-- Directories are made one after the other: whatever lasts when one is made lasts. -/
theorem makeDirectories_induction {P : FileTree → FileTree → Prop} (hrefl : ∀ t, P t t)
    (htrans : ∀ {t u v}, P t u → P u v → P t v)
    (hnew : ∀ t names, t.IsFree names → P t (t.put names (directory [])))
    {t u : FileTree} {parts : List String} (h : t.makeDirectories parts = .ok u) : P t u := by
  have hstep : ∀ {t u : FileTree} {parts}, t.makeDirectory parts = .ok u → P t u := by
    intro t u parts h
    obtain ⟨names, hfree, rfl⟩ := makeDirectory_eq_ok h
    exact hnew t names hfree
  induction parts generalizing u with
  | nil =>
      obtain rfl := Except.ok.inj h
      exact hrefl t
  | cons part above ih =>
      rw [makeDirectories] at h
      split at h
      next v hv =>
        obtain rfl := Except.ok.inj h
        exact hstep hv
      next =>
        split at h
        next => cases h
        next v hv =>
          split at h
          next w hw =>
            obtain rfl := Except.ok.inj h
            exact htrans (ih hv) (hstep hw)
          next =>
            split at h
            · obtain rfl := Except.ok.inj h
              exact ih hv
            · cases h
      next =>
        split at h
        · obtain rfl := Except.ok.inj h
          exact hrefl t
        · cases h

/-- **Making directories.**  Everything else stays. -/
theorem extends_makeDirectories {t u : FileTree} {parts : List String}
    (h : t.makeDirectories parts = .ok u) : Extends t u :=
  makeDirectories_induction Extends.refl (fun {_ _ _} => Extends.trans)
    (fun _ _ hfree => Extends.put_new hfree _) h

/-- Nor do files come or go when directories are made. -/
theorem sameFile_makeDirectories {t u : FileTree} {parts : List String}
    (h : t.makeDirectories parts = .ok u) : Throughout SameFile t u :=
  makeDirectories_induction (fun _ _ => tolerant_sameFile.refl _)
    (fun {_ _ _} hfirst hsecond names c => (hsecond names c).trans (hfirst names c))
    (fun _ _ => sameFile_put_directory) h

end WebBaseline.FileTree
