import WebBaseline.Proofs.Files.Extending

/-!
# Files next to a change

A file stays as it is when something is put at other names, where nothing is or
what is no directory: no file has anything below it.

* `get?_put_of_ne` — in place of what is no directory;
* `get?_put_new_of_file` — where nothing is;
* `writeFile_eq_ok` — what writing a file comes to, and `get?_writeFile_of_ne`.
-/

namespace WebBaseline.FileTree

/-- What is no directory has nothing below it. -/
theorem get?_cons_of_not_directory {t : FileTree} (h : t.isDirectory = false) (name : String)
    (rest : List String) : t.get? (name :: rest) = none := by
  cases t with
  | directory entries => cases h
  | _ => rfl

/-- A file stays when something is put elsewhere in place of what is no directory. -/
theorem get?_put_of_ne {t old : FileTree} {names other : List String} {c : Content}
    (hfile : t.get? names = some (file c)) (hold : t.get? other = some old)
    (hplain : old.isDirectory = false) (hne : names ≠ other) (new : FileTree) :
    (t.put other new).get? names = some (file c) := by
  -- Along both names at once: where they part, the change is in another entry.
  induction other generalizing t names with
  | nil =>
      obtain rfl := Option.some.inj hold
      cases names with
      | nil => exact absurd rfl hne
      | cons name rest =>
          rw [get?_cons_of_not_directory hplain] at hfile
          cases hfile
  | cons part below ih =>
      cases t with
      | directory entries =>
          obtain ⟨u, hu, hbelow⟩ := Option.bind_eq_some_iff.mp hold
          cases names with
          | nil => cases hfile
          | cons name rest =>
              rw [get?_directory_cons] at hfile
              rw [put, hu, Option.getD_some, get?_directory_cons, lookup_putEntry]
              by_cases hname : name = part
              · subst hname
                have hrest : rest ≠ below := fun heq => hne (congrArg (name :: ·) heq)
                rw [hu, Option.bind_some] at hfile
                rw [if_pos rfl, Option.bind_some]
                exact ih hfile hbelow hrest
              · rw [if_neg hname]
                exact hfile
      | _ => cases hold

/-- Whether files are the same in something else. -/
def FilesStay (a b : Option FileTree) : Prop := ∀ c, a = some (file c) → b = some (file c)

theorem tolerant_filesStay : Tolerant FilesStay where
  refl _ _ h := h
  directories _ _ _ h := by cases h

/-- A file stays when something is put where nothing is. -/
theorem get?_put_new_of_file {t : FileTree} {names other : List String} {c : Content}
    (hfile : t.get? names = some (file c)) (hother : t.IsFree other) (new : FileTree) :
    (t.put other new).get? names = some (file c) :=
  tolerant_filesStay.put_new hother (fun _ _ h => nomatch h) names c hfile

/-- **Writing a file.**  It is put at the names that its path means, where nothing is or what is no
directory. -/
theorem writeFile_eq_ok {t u : FileTree} {path : String} {c : Content}
    (h : t.writeFile path c = .ok u) :
    ∃ other, t.resolve .missing path = .ok other ∧ u = t.put other (file c) ∧
      (t.IsFree other ∨ ∃ old, t.get? other = some old ∧ old.isDirectory = false) := by
  unfold writeFile at h
  cases hresolve : t.resolve .missing path with
  | error e =>
      rw [hresolve] at h
      cases h
  | ok other =>
      rw [hresolve] at h
      simp only [bind, Except.bind] at h
      refine ⟨other, rfl, ?_⟩
      split at h
      next => cases h
      next hplain =>
        obtain rfl := Except.ok.inj h
        refine ⟨rfl, ?_⟩
        cases hthere : t.get? other with
        | none =>
            obtain ⟨-, hfollow, -⟩ := resolve_eq_ok_iff.mp hresolve
            exact Or.inl (isFree_of_follow_missing hfollow hthere)
        | some old =>
            refine Or.inr ⟨old, rfl, ?_⟩
            cases old with
            | directory entries => exact absurd hthere (hplain entries)
            | _ => rfl

/-- Another file stays when one is written. -/
theorem get?_writeFile_of_ne {t u : FileTree} {path : String} {c d : Content} {names : List String}
    (hwrite : t.writeFile path c = .ok u) (hfile : t.get? names = some (file d))
    (hne : t.resolve .missing path ≠ .ok names) : u.get? names = some (file d) := by
  obtain ⟨other, hresolve, rfl, hfree | ⟨old, hold, hplain⟩⟩ := writeFile_eq_ok hwrite
  · exact get?_put_new_of_file hfile hfree _
  · have hother : names ≠ other := by
      rintro rfl
      exact hne hresolve
    exact get?_put_of_ne hfile hold hplain hother _

end WebBaseline.FileTree
