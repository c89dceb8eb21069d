import WebBaseline.Json.Printer
import WebBaseline.Proofs.Json.Spacing

/-!
# Reading back values

A value without floating-point numbers, whose integers are exact and which is
not nested too deeply, is read back from its text.  Members that were written
in another order are then in that of their keys.

* `Plain`, `Exact` — the values in question, with and without the order of members;
* `Spaced` — ways to write values that differ in their blanks only;
* `Exact.reads` — values in any context, in any such way;
* `parse_compact`, `parse_pretty` — whole texts.
-/

namespace WebBaseline.Json

open Reader

/-! ### Values that their texts determine -/

/-- Whether a value is determined by its text: it has no floating-point
numbers, its integers are exact, its members are in order, and arrays and
objects are nested so many levels at most. -/
inductive Plain : Nat → Json → Prop where
  | null {levels : Nat} : Plain levels .null
  | bool {levels : Nat} (b : Bool) : Plain levels (.bool b)
  | text {levels : Nat} (s : String) : Plain levels (.text s)
  | integer {levels : Nat} {i : Int} (hlow : -Bound.signed64 ≤ i) (hhigh : i < Bound.unsigned64) :
      Plain levels (.integer i)
  | array {levels : Nat} {items : List Json} (hitems : ∀ v ∈ items, Plain levels v) :
      Plain (levels + 1) (.array items)
  | object {levels : Nat} {members : Members} (hkeys : members.Ascending)
      (hmembers : ∀ m ∈ members, Plain levels m.2) : Plain (levels + 1) (.object members)

/-- An object that is built from a list of members is determined by its text if they are. -/
theorem Plain.ofMembers {levels : Nat} {pairs : List (String × Json)}
    (h : ∀ p ∈ pairs, Plain levels p.2) : Plain (levels + 1) (.ofMembers pairs) :=
  .object (Members.ascending_ofList pairs) fun p hp => h p (Members.mem_ofList hp)

/-- Whether a value is determined by its text up to the order of members. -/
inductive Exact : Nat → Json → Prop where
  | null {levels : Nat} : Exact levels .null
  | bool {levels : Nat} (b : Bool) : Exact levels (.bool b)
  | text {levels : Nat} (s : String) : Exact levels (.text s)
  | integer {levels : Nat} {i : Int} (hlow : -Bound.signed64 ≤ i) (hhigh : i < Bound.unsigned64) :
      Exact levels (.integer i)
  | array {levels : Nat} {items : List Json} (hitems : ∀ v ∈ items, Exact levels v) :
      Exact (levels + 1) (.array items)
  | object {levels : Nat} {members : List (String × Json)}
      (hmembers : ∀ m ∈ members, Exact levels m.2) : Exact (levels + 1) (.object members)

mutual

/-- A value whose objects list their members in order; the last value of a key counts. -/
def arranged : Json → Json
  | array all => .array (arrangedItems all)
  | object all => .ofMembers (arrangedMembers all)
  | null => .null
  | bool b => .bool b
  | integer i => .integer i
  | double d => .double d
  | text s => .text s

/-- The items of an array, each arranged. -/
def arrangedItems : List Json → List Json
  | [] => []
  | v :: rest => arranged v :: arrangedItems rest

/-- The members of an object, each with its value arranged. -/
def arrangedMembers : List (String × Json) → List (String × Json)
  | [] => []
  | (k, v) :: rest => (k, arranged v) :: arrangedMembers rest

end

@[simp] theorem arranged_array (all : List Json) :
    arranged (.array all) = .array (all.map arranged) := by
  have hitems : ∀ all, arrangedItems all = all.map arranged := by
    intro all
    induction all with
    | nil => rfl
    | cons v rest ih => rw [arrangedItems, ih, List.map_cons]
  rw [arranged, hitems]

@[simp] theorem arranged_object (all : List (String × Json)) :
    arranged (.object all) = .ofMembers (all.map fun m => (m.1, m.2.arranged)) := by
  have hmembers : ∀ all : List (String × Json),
      arrangedMembers all = all.map fun m => (m.1, m.2.arranged) := by
    intro all
    induction all with
    | nil => rfl
    | cons m rest ih => rw [arrangedMembers, ih, List.map_cons]
  rw [arranged, hmembers]

/-- A member with a greater key comes last. -/
theorem Members.insert_of_forall_lt {m : Members} {key : String} {v : Json}
    (h : ∀ k ∈ m.map (·.1), k < key) : m.insert key v = m ++ [(key, v)] := by
  induction m with
  | nil => rfl
  | cons p rest ih =>
      obtain ⟨k, w⟩ := p
      have hk : k < key := h k List.mem_cons_self
      have hne : key ≠ k := (String.ne_of_lt hk).symm
      rw [insert, if_neg (String.lt_asymm hk), if_neg hne,
        ih fun l hl => h l (List.mem_cons_of_mem k hl), List.cons_append]

/-- Members in the order of their keys stay as they are. -/
theorem Members.ofList_of_ascending {m : Members} (h : m.Ascending) : Members.ofList m = m := by
  have hall : ∀ read more : Members, (read ++ more).Ascending →
      more.foldl (fun m p => m.insert p.1 p.2) read = read ++ more := by
    intro read more
    induction more generalizing read with
    | nil => exact fun _ => (List.append_nil read).symm
    | cons p more ih =>
        intro hkeys
        have hlast : read.insert p.1 p.2 = read ++ [p] := by
          apply Members.insert_of_forall_lt
          intro k hk
          rw [Members.Ascending, List.map_append, List.pairwise_append] at hkeys
          exact hkeys.2.2 k hk p.1 List.mem_cons_self
        rw [List.foldl_cons, hlast, ih]
        · rw [List.append_assoc, List.singleton_append]
        · rwa [List.append_assoc, List.singleton_append]
  exact hall [] m h

/-- A value that is determined by its text is so up to the order of members, which it has. -/
theorem Plain.exact_and_arranged {levels : Nat} {v : Json} (h : Plain levels v) :
    Exact levels v ∧ v.arranged = v := by
  induction h with
  | null => exact ⟨.null, rfl⟩
  | bool b => exact ⟨.bool b, rfl⟩
  | text s => exact ⟨.text s, rfl⟩
  | integer hlow hhigh => exact ⟨.integer hlow hhigh, rfl⟩
  | array _ ih =>
      refine ⟨.array fun v hv => (ih v hv).1, ?_⟩
      rw [arranged_array, List.map_congr_left fun v hv => (ih v hv).2, List.map_id']
  | object hkeys _ ih =>
      rename_i members _
      have hmembers : members.map (fun m => (m.1, m.2.arranged)) = members.map id :=
        List.map_congr_left fun m hm => Prod.ext rfl (ih m hm).2
      refine ⟨.object fun m hm => (ih m hm).1, ?_⟩
      rw [arranged_object, hmembers, List.map_id]
      exact congrArg Json.object (Members.ofList_of_ascending hkeys)

/-! ### Scalars -/

/-- A digit is no other character. -/
theorem ne_of_isDigit {c d : Char} (hc : c.isDigit = true) (hd : d.isDigit = false) : c ≠ d := by
  rintro rfl
  exact Bool.false_ne_true (hd.symm.trans hc)

/-- A digit is no blank. -/
theorem isBlank_of_isDigit {c : Char} (hc : c.isDigit = true) : isBlank c = false := by
  simp [isBlank, ne_of_isDigit hc]

/-- A digit starts a number. -/
theorem value_digit {c : Char} (hc : c.isDigit = true) (fuel depth : Nat) (cs : List Char) :
    value true (fuel + 1) depth (c :: cs) = number true false (c :: cs) := by
  rw [value, skipBlanks_cons (isBlank_of_isDigit hc)]
  simp [hc, ne_of_isDigit hc]

/-- A digit is no blank and no bracket. -/
theorem head_toDigits (n : Nat) : ∃ c cs, Nat.toDigits 10 n = c :: cs ∧ c.isDigit = true := by
  cases hdigits : Nat.toDigits 10 n with
  | nil => exact absurd hdigits Nat.toDigits_ne_nil
  | cons c cs =>
      refine ⟨c, cs, rfl, ?_⟩
      apply Nat.isDigit_of_mem_toDigits (show 0 < 10 by decide) (by decide)
      rw [hdigits]
      exact List.mem_cons_self

/-- A natural number is read back. -/
theorem reads_natural {depth : Nat} {n : Nat} (hn : n < Bound.unsigned64) :
    Reads depth (scalarText (.integer n)).toList (.integer n) := by
  have hchars : (scalarText (.integer n)).toList = Nat.toDigits 10 n := Nat.toList_repr
  obtain ⟨c, cs, hdigits, hc⟩ := head_toDigits n
  rw [hchars, hdigits]
  refine .of_succ (isBlank_of_isDigit hc)
    ⟨ne_of_isDigit hc (by decide), ne_of_isDigit hc (by decide)⟩ fun fuel rest _ hrest => ?_
  have hexact : n ≤ greatestExact := Nat.le_sub_one_of_lt hn
  rw [value_digit hc, ← List.cons_append, ← hdigits, number_toDigits false hexact hrest,
    afterInteger_closes false n hrest]
  rfl

/-- A number below zero is read back. -/
theorem reads_negative {depth : Nat} {n : Nat} (hpos : 0 < n) (hn : (n : Int) ≤ Bound.signed64) :
    Reads depth (scalarText (.integer (-n))).toList (.integer (-n)) := by
  have hchars : (scalarText (.integer (-n))).toList = '-' :: Nat.toDigits 10 n := by
    obtain ⟨m, rfl⟩ : ∃ m, n = m + 1 := ⟨n - 1, by omega⟩
    rw [Int.neg_ofNat_succ]
    simp [scalarText, toString, Int.repr]
  rw [hchars]
  refine .of_succ (by decide) (by decide) fun fuel rest _ hrest => ?_
  have hexact : n ≤ greatestExact := by
    unfold Bound.signed64 at hn
    unfold greatestExact Bound.unsigned64
    omega
  have hzero : n ≠ 0 := Nat.ne_of_gt hpos
  have hlow : ¬ Bound.signed64 < (n : Int) := by omega
  change number true true (Nat.toDigits 10 n ++ rest) = _
  rw [number_toDigits true hexact hrest, afterInteger_closes true n hrest]
  simp [hzero, hlow]

/-- An exact integer is read back. -/
theorem reads_integer {depth : Nat} {i : Int} (hlow : -Bound.signed64 ≤ i)
    (hhigh : i < Bound.unsigned64) : Reads depth (scalarText (.integer i)).toList (.integer i) := by
  rcases Int.lt_or_le i 0 with hneg | hnonneg
  · have hi : i = -(i.natAbs : Int) := by omega
    rw [hi]
    exact reads_negative (by omega) (by omega)
  · have hi : i = (i.natAbs : Int) := by omega
    rw [hi]
    exact reads_natural (by omega)

/-- A text is read back. -/
theorem reads_text (depth : Nat) (s : String) :
    Reads depth (scalarText (.text s)).toList (.text s) := by
  have hchars : (scalarText (.text s)).toList = '\"' :: (escapedChars s.toList ++ ['\"']) :=
    toList_quote s
  rw [hchars]
  refine .of_succ (by decide) (by decide) fun fuel rest _ _ => ?_
  have hlength : s.toList.length < (escapedChars s.toList ++ '\"' :: rest).length + 1 := by
    have hle := length_le_escapedChars s.toList
    rw [List.length_append]
    omega
  have hquoted := quoted_escapedChars s.toList [] rest hlength
  rw [List.reverse_nil, List.nil_append, String.ofList_toList] at hquoted
  rw [List.append_assoc, List.singleton_append, value, skipBlanks_cons (by decide)]
  simp only [hquoted]

/-! ### Values -/

/-- Whether values are written alike but for the blanks between tokens.  The number is that of the
collections around a value. -/
structure Spaced (print : Nat → Json → List Char) : Prop where
  scalar : ∀ indent v, (∀ all, v ≠ .array all) → (∀ all, v ≠ .object all) →
    print indent v = (scalarText v).toList
  array : ∀ indent all, ∃ gap close, Blanks gap ∧ Blanks close ∧
    print indent (.array all) =
      '[' :: (separated gap (all.map (print (indent + 1))) ++ (close ++ [']']))
  object : ∀ indent all, ∃ gap close inner, Blanks gap ∧ Blanks close ∧ Blanks inner ∧
    print indent (.object all) =
      '\x7b' :: (separated gap (memberTexts inner (print (indent + 1)) all) ++ (close ++ ['\x7d']))

/-- **Values in any context.**  However a value is spaced, it is read with its members in order. -/
theorem Exact.reads {print : Nat → Json → List Char} (hprint : Spaced print) {levels : Nat}
    {v : Json} (h : Exact levels v) {depth : Nat} (hdepth : levels < depth) (indent : Nat) :
    Reads depth (print indent v) v.arranged := by
  induction h generalizing depth indent with
  | null =>
      rw [hprint.scalar _ _ (by simp) (by simp)]
      exact .of_succ (by decide) (by decide) fun fuel rest _ _ => rfl
  | bool b =>
      rw [hprint.scalar _ _ (by simp) (by simp)]
      cases b <;> exact .of_succ (by decide) (by decide) fun fuel rest _ _ => rfl
  | text s =>
      rw [hprint.scalar _ _ (by simp) (by simp)]
      exact reads_text depth s
  | integer hlow hhigh =>
      rw [hprint.scalar _ _ (by simp) (by simp)]
      exact reads_integer hlow hhigh
  | @array levels all _ ih =>
      obtain ⟨gap, close, hgap, hclose, htext⟩ := hprint.array indent all
      obtain ⟨depth, rfl⟩ : ∃ n, depth = n + 1 := ⟨depth - 1, by omega⟩
      rw [htext, arranged_array]
      exact reads_array hgap hclose (fun v hv => ih v hv (by omega) (indent + 1)) (by omega)
  | @object levels all _ ih =>
      obtain ⟨gap, close, inner, hgap, hclose, hinner, htext⟩ := hprint.object indent all
      obtain ⟨depth, rfl⟩ : ∃ n, depth = n + 1 := ⟨depth - 1, by omega⟩
      rw [htext, arranged_object]
      exact reads_object hgap hclose hinner (fun m hm => ih m hm (by omega) (indent + 1)) (by omega)

/-- Characters that are read as a value in any context are a whole text for it. -/
theorem parse_of_reads {text : String} {v : Json} (h : Reads maxDepth text.toList v) :
    parse text = .ok v := by
  have hvalue := h.read (2 * text.toList.length + 2) [] (by omega) closes_nil
  rw [List.append_nil] at hvalue
  simp [parse, hvalue, skipBlanks]

/-! ### Compact texts -/

/-- The items of an array without blanks. -/
theorem toList_compactItems (all : List Json) :
    (compactItems all).toList = separated [] (all.map fun v => v.compact.toList) := by
  induction all with
  | nil => rfl
  | cons v rest ih =>
      cases rest with
      | nil => simp [compactItems, separated_singleton]
      | cons w rest =>
          have hstep : compactItems (v :: w :: rest) =
              v.compact ++ "," ++ compactItems (w :: rest) := by simp [compactItems]
          rw [hstep, String.toList_append, ih]
          simp [separated_cons_cons]

/-- The members of an object without blanks. -/
theorem toList_compactMembers (all : List (String × Json)) :
    (compactMembers all).toList =
      separated [] (memberTexts [] (fun v => v.compact.toList) all) := by
  induction all with
  | nil => rfl
  | cons m rest ih =>
      obtain ⟨k, v⟩ := m
      cases rest with
      | nil => simp [compactMembers, memberTexts, separated_singleton, toList_quote, memberChars]
      | cons n rest =>
          have hstep : compactMembers ((k, v) :: n :: rest) =
              quote k ++ ":" ++ v.compact ++ "," ++ compactMembers (n :: rest) := by
            simp [compactMembers]
          rw [hstep, String.toList_append, ih]
          simp [memberTexts, separated_cons_cons, toList_quote, memberChars]

/-- Compact texts have no blanks. -/
theorem spaced_compact : Spaced fun _ v => v.compact.toList where
  scalar := by
    intro indent v harray hobject
    cases v with
    | array all => exact absurd rfl (harray all)
    | object all => exact absurd rfl (hobject all)
    | _ => rfl
  array := by
    intro indent all
    refine ⟨[], [], by simp [Blanks], by simp [Blanks], ?_⟩
    simp [compact, toList_compactItems]
  object := by
    intro indent all
    refine ⟨[], [], [], by simp [Blanks], by simp [Blanks], by simp [Blanks], ?_⟩
    simp [compact, toList_compactMembers]

/-- **Whole texts.**  A value that its text determines is read back, up to as
many levels as are read at all. -/
theorem parse_compact {v : Json} (h : Plain (maxDepth - 1) v) : parse v.compact = .ok v := by
  obtain ⟨hexact, harranged⟩ := h.exact_and_arranged
  have hreads := hexact.reads spaced_compact (show maxDepth - 1 < maxDepth by decide) 0
  rw [harranged] at hreads
  exact parse_of_reads hreads

/-! ### Texts over several lines -/

/-- A line break and an indentation are blanks. -/
theorem blanks_lineBreak (indent : Nat) : Blanks (lineBreak indent).toList := by
  intro c hc
  rw [lineBreak, String.toList_append, List.mem_append] at hc
  rcases hc with hc | hc
  · obtain rfl : c = '\n' := List.mem_singleton.mp hc
    rfl
  · rw [String.toList_ofList] at hc
    obtain rfl := (List.mem_replicate.mp hc).2
    rfl

/-- The items of an array, each on a line of its own. -/
theorem toList_prettyItems (indent : Nat) (all : List Json) :
    (prettyItems indent all).toList =
      separated (lineBreak indent).toList (all.map fun v => (prettyAt indent v).toList) := by
  induction all with
  | nil => rfl
  | cons v rest ih =>
      cases rest with
      | nil => simp [prettyItems, separated_singleton]
      | cons w rest =>
          have hstep : prettyItems indent (v :: w :: rest) =
              lineBreak indent ++ prettyAt indent v ++ "," ++ prettyItems indent (w :: rest) := by
            simp [prettyItems]
          rw [hstep, String.toList_append, ih]
          simp [separated_cons_cons]

/-- The members of an object, each on a line of its own, with a blank before its value. -/
theorem toList_prettyMembers (indent : Nat) (all : List (String × Json)) :
    (prettyMembers indent all).toList =
      separated (lineBreak indent).toList
        (memberTexts [' '] (fun v => (prettyAt indent v).toList) all) := by
  induction all with
  | nil => rfl
  | cons m rest ih =>
      obtain ⟨k, v⟩ := m
      cases rest with
      | nil => simp [prettyMembers, memberTexts, separated_singleton, toList_quote, memberChars]
      | cons n rest =>
          have hstep : prettyMembers indent ((k, v) :: n :: rest) =
              lineBreak indent ++ quote k ++ ": " ++ prettyAt indent v ++ "," ++
                prettyMembers indent (n :: rest) := by simp [prettyMembers]
          rw [hstep, String.toList_append, ih]
          simp [memberTexts, separated_cons_cons, toList_quote, memberChars]

/-- Texts over several lines have line breaks before the parts of collections and before closing
brackets. -/
theorem spaced_pretty : Spaced fun indent v => (prettyAt indent v).toList where
  scalar := by
    intro indent v harray hobject
    cases v with
    | array all => exact absurd rfl (harray all)
    | object all => exact absurd rfl (hobject all)
    | _ => rfl
  array := by
    intro indent all
    cases all with
    | nil => exact ⟨[], [], by simp [Blanks], by simp [Blanks], by simp [prettyAt, separated]⟩
    | cons v rest =>
        refine ⟨_, _, blanks_lineBreak (indent + 1), blanks_lineBreak indent, ?_⟩
        rw [prettyAt, String.toList_append, String.toList_append, String.toList_append,
          toList_prettyItems]
        simp
  object := by
    intro indent all
    cases all with
    | nil =>
        exact ⟨[], [], [], by simp [Blanks], by simp [Blanks], by simp [Blanks],
          by simp [prettyAt, memberTexts, separated]⟩
    | cons m rest =>
        refine ⟨_, _, [' '], blanks_lineBreak (indent + 1), blanks_lineBreak indent,
          by simp [Blanks, isBlank], ?_⟩
        rw [prettyAt, String.toList_append, String.toList_append, String.toList_append,
          toList_prettyMembers]
        simp

/-- **Whole texts over several lines.**  What is read has the members of every object in order. -/
theorem parse_pretty {v : Json} (h : Exact (maxDepth - 1) v) : parse v.pretty = .ok v.arranged :=
  parse_of_reads (h.reads spaced_pretty (show maxDepth - 1 < maxDepth by decide) 0)

end WebBaseline.Json
