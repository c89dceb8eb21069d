import WebBaseline.Proofs.Json.Members
import WebBaseline.Proofs.Json.Scalars

/-!
# Texts with blanks

A text for a value may have blanks between its tokens, and an object may list
its members in any order.  `Reads` says that characters are read as a value
whatever follows them.

* `reads_scalar` — texts, integers, truth values and nothing;
* `reads_array`, `reads_object` — collections, with the same blanks before each
  part and others before the closing bracket.
-/

namespace WebBaseline.Json

open Reader

/-- Whether characters are read as a value, in any context. -/
structure Reads (depth : Nat) (cs : List Char) (v : Json) : Prop where
  /-- The characters start like a value. -/
  head : ∃ c rest, cs = c :: rest ∧ isBlank c = false ∧ c ≠ ']' ∧ c ≠ '\x7d'
  /-- The value is read up to its end. -/
  read : ∀ fuel rest, 2 * cs.length ≤ fuel → Closes rest →
    value true fuel depth (cs ++ rest) = .ok (v, rest)

/-- Some fuel is left for a value, as it has some character. -/
theorem Reads.of_succ {depth : Nat} {c : Char} {cs : List Char} {v : Json}
    (hblank : isBlank c = false) (hc : c ≠ ']' ∧ c ≠ '\x7d')
    (read : ∀ fuel rest, 2 * cs.length < fuel → Closes rest →
      value true (fuel + 1) depth (c :: (cs ++ rest)) = .ok (v, rest)) :
    Reads depth (c :: cs) v where
  head := ⟨c, cs, rfl, hblank, hc⟩
  read := by
    intro fuel rest hfuel hrest
    rw [List.length_cons] at hfuel
    obtain ⟨fuel, rfl⟩ : ∃ n, fuel = n + 1 := ⟨fuel - 1, by omega⟩
    exact read fuel rest (by omega) hrest

/-- Whether characters are all blanks. -/
def Blanks (cs : List Char) : Prop := ∀ c ∈ cs, isBlank c = true

/-- Blanks are skipped. -/
theorem skipBlanks_append {gap : List Char} (hgap : Blanks gap) {c : Char}
    (hc : isBlank c = false) (cs : List Char) : skipBlanks (gap ++ c :: cs) = c :: cs := by
  rw [skipBlanks, List.dropWhile_append_of_pos hgap, List.dropWhile_cons_of_neg (by simp [hc])]

/-- What starts like a value has no blanks to skip. -/
theorem skipBlanks_cons {c : Char} (hc : isBlank c = false) (cs : List Char) :
    skipBlanks (c :: cs) = c :: cs :=
  skipBlanks_append (fun _ h => absurd h List.not_mem_nil) hc cs

/-- A value is read after blanks too. -/
theorem Reads.read_after {depth : Nat} {cs : List Char} {v : Json} (h : Reads depth cs v)
    {gap : List Char} (hgap : Blanks gap) {fuel : Nat} {rest : List Char}
    (hfuel : 2 * cs.length ≤ fuel) (hrest : Closes rest) :
    value true fuel depth (gap ++ (cs ++ rest)) = .ok (v, rest) := by
  have hvalue := h.read fuel rest hfuel hrest
  obtain ⟨c, cs, rfl, hc, -⟩ := h.head
  obtain ⟨fuel, rfl⟩ : ∃ n, fuel = n + 1 := ⟨fuel - 1, by rw [List.length_cons] at hfuel; omega⟩
  rw [value, List.cons_append, skipBlanks_cons hc] at hvalue
  rw [value, List.cons_append, skipBlanks_append hgap hc]
  exact hvalue

/-- Blanks and a closing bracket may follow a value. -/
theorem closes_append {gap : List Char} (hgap : Blanks gap) {c : Char} (hc : c ∈ closing)
    (rest : List Char) : Closes (gap ++ c :: rest) := by
  cases gap with
  | nil => exact closes_cons hc rest
  | cons d gap =>
      have hd : isBlank d = true := hgap d List.mem_cons_self
      refine closes_cons ?_ _
      simp only [isBlank, Bool.or_eq_true, decide_eq_true_eq] at hd
      rcases hd with ((rfl | rfl) | rfl) | rfl <;> decide

/-! ### Arrays -/

/-- Parts of a collection after the first, each with its comma and with blanks after that. -/
def moreParts (gap : List Char) (parts : List (List Char)) : List Char :=
  parts.flatMap fun part => ',' :: (gap ++ part)

/-- Parts of a collection with commas between them, and blanks before each. -/
def separated (gap : List Char) : List (List Char) → List Char
  | [] => []
  | part :: parts => gap ++ part ++ moreParts gap parts

theorem moreParts_cons (gap part : List Char) (parts : List (List Char)) :
    moreParts gap (part :: parts) = ',' :: (gap ++ (part ++ moreParts gap parts)) := by
  rw [moreParts, List.flatMap_cons, List.cons_append, List.append_assoc]
  rfl

/-- A single part. -/
theorem separated_singleton (gap part : List Char) : separated gap [part] = gap ++ part := by
  rw [separated, moreParts, List.flatMap_nil, List.append_nil]

/-- The first of several parts. -/
theorem separated_cons_cons (gap part next : List Char) (parts : List (List Char)) :
    separated gap (part :: next :: parts) =
      gap ++ (part ++ ',' :: separated gap (next :: parts)) := by
  rw [separated, moreParts_cons, separated, List.append_assoc, List.append_assoc]

/-- What follows a part of a collection may follow a value. -/
theorem closes_moreParts (gap : List Char) (parts : List (List Char)) {close : List Char}
    (hclose : Blanks close) {c : Char} (hc : c ∈ closing) (rest : List Char) :
    Closes (moreParts gap parts ++ (close ++ c :: rest)) := by
  cases parts with
  | nil => exact closes_append hclose hc rest
  | cons part parts =>
      rw [moreParts_cons]
      exact closes_cons (by decide) _

section Arrays

variable {depth : Nat} {gap close : List Char} (hgap : Blanks gap) (hclose : Blanks close)
include hclose

/-- A closing bracket ends an array. -/
theorem items_close (fuel : Nat) (read : List Json) (rest : List Char) :
    items true (fuel + 1) depth read (close ++ ']' :: rest) = .ok (.array read.reverse, rest) := by
  rw [items, skipBlanks_append hclose (by decide)]
  rfl

include hgap

omit hclose in
/-- The first item of an array. -/
theorem items_first {cs : List Char} {v : Json} (hv : Reads depth cs v) {fuel : Nat}
    (hfuel : 2 * cs.length ≤ fuel) {rest : List Char} (hrest : Closes rest) :
    items true (fuel + 1) depth [] (gap ++ (cs ++ rest)) = items true fuel depth [v] rest := by
  have hvalue := hv.read fuel rest hfuel hrest
  obtain ⟨c, cs, rfl, hblank, hc, -⟩ := hv.head
  rw [List.cons_append] at hvalue ⊢
  rw [items, skipBlanks_append hgap hblank]
  simp [hc, hvalue]

omit hclose in
/-- A further item of an array. -/
theorem items_comma {cs : List Char} {v : Json} (hv : Reads depth cs v) {read : List Json}
    (hread : read ≠ []) {fuel : Nat} (hfuel : 2 * cs.length ≤ fuel) {rest : List Char}
    (hrest : Closes rest) :
    items true (fuel + 1) depth read (',' :: (gap ++ (cs ++ rest))) =
      items true fuel depth (v :: read) rest := by
  have hvalue := hv.read fuel rest hfuel hrest
  obtain ⟨c, cs, rfl, hblank, hc, -⟩ := hv.head
  rw [List.cons_append] at hvalue ⊢
  rw [items, skipBlanks_cons (by decide)]
  simp [hc, hread, hvalue, skipBlanks_append hgap hblank]

variable {print : Json → List Char} {made : Json → Json}

/-- The items after the first are read up to the closing bracket. -/
theorem items_more {more : List Json} (hmore : ∀ v ∈ more, Reads depth (print v) (made v))
    {read : List Json} (hread : read ≠ []) (rest : List Char) {fuel : Nat}
    (hfuel : 2 * (moreParts gap (more.map print)).length < fuel) :
    items true fuel depth read (moreParts gap (more.map print) ++ (close ++ ']' :: rest)) =
      .ok (.array (read.reverse ++ more.map made), rest) := by
  obtain ⟨fuel, rfl⟩ : ∃ n, fuel = n + 1 := ⟨fuel - 1, by omega⟩
  induction more generalizing read fuel with
  | nil =>
      rw [List.map_nil, List.map_nil, List.append_nil]
      exact items_close hclose fuel read rest
  | cons v more ih =>
      have ⟨hv, hothers⟩ := List.forall_mem_cons.mp hmore
      rw [List.map_cons, moreParts_cons, List.length_cons, List.length_append,
        List.length_append] at hfuel
      obtain ⟨fuel, rfl⟩ : ∃ n, fuel = n + 1 := ⟨fuel - 1, by omega⟩
      have hrest : Closes (moreParts gap (more.map print) ++ (close ++ ']' :: rest)) :=
        closes_moreParts gap _ hclose (by decide) rest
      rw [List.map_cons, moreParts_cons, List.cons_append, List.append_assoc, List.append_assoc,
        items_comma hgap hv hread (by omega) hrest,
        ih hothers (List.cons_ne_nil _ read) fuel (by omega)]
      simp

/-- **Arrays.**  An array is read if its items are. -/
theorem reads_array {all : List Json} (hall : ∀ v ∈ all, Reads depth (print v) (made v))
    (hdepth : 0 < depth) :
    Reads (depth + 1) ('[' :: (separated gap (all.map print) ++ (close ++ [']'])))
      (.array (all.map made)) := by
  refine Reads.of_succ (by decide) (by decide) fun fuel rest hfuel _ => ?_
  have hitems : items true fuel depth []
      (separated gap (all.map print) ++ (close ++ ']' :: rest)) =
        .ok (.array (all.map made), rest) := by
    rw [List.length_append, List.length_append, List.length_singleton] at hfuel
    obtain ⟨fuel, rfl⟩ : ∃ n, fuel = n + 1 := ⟨fuel - 1, by omega⟩
    cases all with
    | nil => exact items_close hclose fuel [] rest
    | cons v more =>
        have ⟨hv, hmore⟩ := List.forall_mem_cons.mp hall
        rw [List.map_cons, separated, List.length_append, List.length_append] at hfuel
        have hrest : Closes (moreParts gap (more.map print) ++ (close ++ ']' :: rest)) :=
          closes_moreParts gap _ hclose (by decide) rest
        rw [List.map_cons, separated, List.append_assoc, List.append_assoc,
          items_first hgap hv (by omega) hrest,
          items_more hgap hclose hmore (List.cons_ne_nil _ []) rest (by omega)]
        rfl
  have hdeep : ¬ depth + 1 ≤ 1 := by omega
  rw [value, skipBlanks_cons (by decide)]
  simpa [hdeep] using hitems

end Arrays

/-! ### Objects -/

/-- The characters of a member, from its key and the characters of its value. -/
def memberChars (gap : List Char) (key : String) (cs : List Char) : List Char :=
  '\"' :: (escapedChars key.toList ++ '\"' :: ':' :: (gap ++ cs))

/-- A key is read up to its colon. -/
theorem memberKey_escapedChars (key : String) (rest : List Char) :
    memberKey true (escapedChars key.toList ++ '\"' :: ':' :: rest) = .ok (key, rest) := by
  have hlength := length_le_escapedChars key.toList
  have hfuel : key.toList.length <
      (escapedChars key.toList ++ '\"' :: ':' :: rest).length + 1 := by
    rw [List.length_append]
    omega
  rw [memberKey, quoted_escapedChars key.toList [] (':' :: rest) hfuel]
  simp [skipBlanks_cons (show isBlank ':' = false by decide)]

section Objects

variable {depth : Nat} {gap close inner : List Char} (hgap : Blanks gap) (hclose : Blanks close)
  (hinner : Blanks inner)

include hclose in
/-- A closing brace ends an object. -/
theorem members_close (fuel : Nat) (read : Members) (first : Bool) (rest : List Char) :
    members true (fuel + 1) depth read first (close ++ '\x7d' :: rest) =
      .ok (.object read, rest) := by
  rw [members, skipBlanks_append hclose (by decide)]
  rfl

include hgap hinner

/-- The first member of an object. -/
theorem members_first {key : String} {cs : List Char} {v : Json} (hv : Reads depth cs v)
    {fuel : Nat} (hfuel : 2 * cs.length ≤ fuel) {rest : List Char} (hrest : Closes rest) :
    members true (fuel + 1) depth [] true (gap ++ (memberChars inner key cs ++ rest)) =
      members true fuel depth (Members.insert key v []) false rest := by
  have hvalue := hv.read_after hinner hfuel hrest
  rw [memberChars, List.cons_append, List.append_assoc, List.cons_append, List.cons_append,
    List.append_assoc, members, skipBlanks_append hgap (by decide)]
  simp [memberKey_escapedChars, hvalue]

/-- A further member of an object. -/
theorem members_comma {key : String} {cs : List Char} {v : Json} (hv : Reads depth cs v)
    (read : Members) {fuel : Nat} (hfuel : 2 * cs.length ≤ fuel) {rest : List Char}
    (hrest : Closes rest) :
    members true (fuel + 1) depth read false (',' :: (gap ++ (memberChars inner key cs ++ rest))) =
      members true fuel depth (read.insert key v) false rest := by
  have hvalue := hv.read_after hinner hfuel hrest
  rw [memberChars, List.cons_append, List.append_assoc, List.cons_append, List.cons_append,
    List.append_assoc, members, skipBlanks_cons (by decide)]
  simp [memberKey_escapedChars, hvalue,
    skipBlanks_append hgap (show isBlank '\"' = false by decide)]

variable {print : Json → List Char} {made : Json → Json}

/-- The members of an object as they are written. -/
def memberTexts (inner : List Char) (print : Json → List Char) (all : List (String × Json)) :
    List (List Char) :=
  all.map fun m => memberChars inner m.1 (print m.2)

include hclose

/-- The members after the first are read up to the closing brace, each put among those before. -/
theorem members_more {more : List (String × Json)}
    (hmore : ∀ m ∈ more, Reads depth (print m.2) (made m.2)) (read : Members) (rest : List Char)
    {fuel : Nat} (hfuel : 2 * (moreParts gap (memberTexts inner print more)).length < fuel) :
    members true fuel depth read false
        (moreParts gap (memberTexts inner print more) ++ (close ++ '\x7d' :: rest)) =
      .ok (.object (more.foldl (fun read m => Members.insert m.1 (made m.2) read) read), rest) := by
  obtain ⟨fuel, rfl⟩ : ∃ n, fuel = n + 1 := ⟨fuel - 1, by omega⟩
  induction more generalizing read fuel with
  | nil => exact members_close hclose fuel read false rest
  | cons m more ih =>
      have ⟨hm, hothers⟩ := List.forall_mem_cons.mp hmore
      have hlength : (print m.2).length < (memberChars inner m.1 (print m.2)).length := by
        simp [memberChars]
        omega
      rw [memberTexts, List.map_cons, moreParts_cons, List.length_cons, List.length_append,
        List.length_append, ← memberTexts] at hfuel
      obtain ⟨fuel, rfl⟩ : ∃ n, fuel = n + 1 := ⟨fuel - 1, by omega⟩
      have hrest : Closes (moreParts gap (memberTexts inner print more) ++
          (close ++ '\x7d' :: rest)) := closes_moreParts gap _ hclose (by decide) rest
      rw [memberTexts, List.map_cons, moreParts_cons, List.cons_append, List.append_assoc,
        List.append_assoc, ← memberTexts,
        members_comma hgap hinner hm read (by omega) hrest,
        ih hothers _ fuel (by omega), List.foldl_cons]

/-- **Objects.**  An object is read if its members are, in whatever order they come. -/
theorem reads_object {all : List (String × Json)}
    (hall : ∀ m ∈ all, Reads depth (print m.2) (made m.2)) (hdepth : 0 < depth) :
    Reads (depth + 1)
      ('\x7b' :: (separated gap (memberTexts inner print all) ++ (close ++ ['\x7d'])))
      (.ofMembers (all.map fun m => (m.1, made m.2))) := by
  refine Reads.of_succ (by decide) (by decide) fun fuel rest hfuel _ => ?_
  have hmembers : members true fuel depth [] true
      (separated gap (memberTexts inner print all) ++ (close ++ '\x7d' :: rest)) =
        .ok (.ofMembers (all.map fun m => (m.1, made m.2)), rest) := by
    rw [ofMembers, Members.ofList, List.foldl_map]
    rw [List.length_append, List.length_append, List.length_singleton] at hfuel
    obtain ⟨fuel, rfl⟩ : ∃ n, fuel = n + 1 := ⟨fuel - 1, by omega⟩
    cases all with
    | nil => exact members_close hclose fuel [] true rest
    | cons m more =>
        have ⟨hm, hmore⟩ := List.forall_mem_cons.mp hall
        have hlength : (print m.2).length < (memberChars inner m.1 (print m.2)).length := by
          simp [memberChars]
          omega
        rw [memberTexts, List.map_cons, separated, List.length_append, List.length_append,
          ← memberTexts] at hfuel
        have hrest : Closes (moreParts gap (memberTexts inner print more) ++
            (close ++ '\x7d' :: rest)) := closes_moreParts gap _ hclose (by decide) rest
        rw [memberTexts, List.map_cons, separated, List.append_assoc, List.append_assoc,
          ← memberTexts, members_first hgap hinner hm (by omega) hrest,
          members_more hgap hclose hinner hmore _ rest (by omega), List.foldl_cons]
  have hdeep : ¬ depth + 1 ≤ 1 := by omega
  rw [value, skipBlanks_cons (by decide)]
  simpa [hdeep] using hmembers

end Objects

end WebBaseline.Json
