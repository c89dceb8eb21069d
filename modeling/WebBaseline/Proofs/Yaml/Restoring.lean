import WebBaseline.Proofs.Decoding.Restoring
import WebBaseline.Proofs.Json.Scalars
import WebBaseline.Yaml.Decoding
import WebBaseline.Yaml.Printer

/-!
# Reading back nodes of YAML

What is written can be read in other styles, as long as every scalar still
stands for the same.  A number is then still plain, and a text is not taken for
anything else, since texts that look like something else are written in quotes.

* `Node.isReadAs`, `Document.holds` — a node, and a document, that says what was written;
* `Plain.integer?_toString` — the digits of a number stand for it;
* `standsFor_textStyle` — a text stands for itself in the style that is chosen for it;
* `restores` — the format gives back what is written to the target.
-/

namespace WebBaseline.Yaml

open Decoding

/-! ### Nodes that are read -/

/-- What a scalar without a tag stands for. -/
def standsFor (style : Style) (text : String) : Found :=
  if style == .plain then Plain.found text else .text text

mutual

/-- Whether a node that is read says what one that was written does: it has the same mappings and
sequences without tags, and scalars with the same texts that stand for the same. -/
def Node.isReadAs : Node → Node → Bool
  | .scalar _ _ style text, .scalar _ tag other read =>
    tag.isNone && text == read && standsFor style text == standsFor other read
  | .sequence _ _ items, .sequence _ tag read => tag.isNone && itemsAreReadAs items read
  | .mapping _ _ entries, .mapping _ tag read => tag.isNone && entriesAreReadAs entries read
  | _, _ => false

/-- Whether items that are read say what those that were written do. -/
def itemsAreReadAs : List Node → List Node → Bool
  | [], [] => true
  | item :: items, read :: others => item.isReadAs read && itemsAreReadAs items others
  | _, _ => false

/-- Whether entries that are read say what those that were written do. -/
def entriesAreReadAs : List (Node × Node) → List (Node × Node) → Bool
  | [], [] => true
  | (key, value) :: entries, (readKey, read) :: others =>
    key.isReadAs readKey && value.isReadAs read && entriesAreReadAs entries others
  | _, _ => false

end

/-- Whether a document is complete and says what a node that was written does. -/
def Document.holds (d : Document) (written : Node) : Bool :=
  d.failure.isNone && !d.continued && written.isReadAs d.root

/-- Items that are read are those that were written, one by one. -/
theorem forall_of_itemsAreReadAs {items read : List Node} (h : itemsAreReadAs items read = true) :
    List.Forall₂ (fun w n => w.isReadAs n = true) items read := by
  induction items generalizing read with
  | nil =>
      cases read with
      | nil => exact .nil
      | cons n others => cases h
  | cons item items ih =>
      cases read with
      | nil => cases h
      | cons n others =>
          rw [itemsAreReadAs, Bool.and_eq_true] at h
          exact .cons h.1 (ih h.2)

/-- Entries that are read are those that were written, one by one. -/
theorem forall_of_entriesAreReadAs {entries read : List (Node × Node)}
    (h : entriesAreReadAs entries read = true) :
    List.Forall₂ (fun w n => w.1.isReadAs n.1 = true ∧ w.2.isReadAs n.2 = true) entries read := by
  induction entries generalizing read with
  | nil =>
      cases read with
      | nil => exact .nil
      | cons n others => cases h
  | cons entry entries ih =>
      cases read with
      | nil => cases h
      | cons n others =>
          rw [entriesAreReadAs, Bool.and_eq_true, Bool.and_eq_true] at h
          exact .cons h.1 (ih h.2)

/-- What is read where a scalar was written is a scalar that stands for the same. -/
theorem exists_of_scalar_isReadAs {mark : Mark} {tag : Option String} {style : Style}
    {text : String} {n : Node} (h : (Node.scalar mark tag style text).isReadAs n = true) :
    ∃ place other, n = .scalar place none other text ∧
      standsFor other text = standsFor style text := by
  cases n with
  | scalar place tag other read =>
      simp only [Node.isReadAs, Bool.and_eq_true, Option.isNone_iff_eq_none, beq_iff_eq] at h
      obtain ⟨⟨rfl, rfl⟩, hsame⟩ := h
      exact ⟨place, other, rfl, hsame.symm⟩
  | _ => cases h

/-! ### What scalars stand for -/

/-- A scalar that does not stand for its text is plain. -/
theorem style_eq_plain {style : Style} {text : String} (h : standsFor style text ≠ .text text) :
    style = .plain := by
  cases style with
  | plain => rfl
  | _ => exact absurd rfl h

namespace Plain

/-- An integer is no text. -/
theorem foundInteger?_ne_text (i : Bool × Nat) (s : String) : foundInteger? i ≠ some (.text s) := by
  obtain ⟨negative, n⟩ := i
  cases negative <;> simp only [foundInteger?] <;> repeat' split
  all_goals simp

/-- What is found to be a text is the text itself. -/
theorem eq_of_found_text {text s : String} (h : found text = .text s) : s = text := by
  unfold found at h
  split at h
  · cases h
  · split at h
    · cases h
    · split at h
      · rename_i f hinteger
        obtain ⟨i, -, hi⟩ := Option.bind_eq_some_iff.mp hinteger
        exact absurd (h ▸ hi) (foundInteger?_ne_text i s)
      · split at h
        · cases h
        · exact (Found.text.inj h).symm

/-- The value of a digit to the base of ten. -/
theorem hexValue?_of_isDigit {c : Char} (hc : c.isDigit = true) :
    Text.hexValue? c = some (c.toNat - 48) ∧ c.toNat - 48 < 10 := by
  have hrange : '0' ≤ c ∧ c ≤ '9' := by
    rw [Char.isDigit, Bool.and_eq_true, decide_eq_true_eq, decide_eq_true_eq] at hc
    exact hc
  have hhigh : c.toNat ≤ 57 := hrange.2
  exact ⟨if_pos hrange, by omega⟩

/-- Digits to the base of ten have their value. -/
theorem digits?_of_isDigit {cs : List Char} (hnonempty : cs ≠ [])
    (hcs : ∀ c ∈ cs, c.isDigit = true) : digits? 10 cs = some (Nat.ofDigitChars 10 cs 0) := by
  rw [digits?, if_neg (by simpa using hnonempty)]
  generalize 0 = value
  clear hnonempty
  induction cs generalizing value with
  | nil => rfl
  | cons c cs ih =>
      have ⟨hfirst, hrest⟩ := List.forall_mem_cons.mp hcs
      obtain ⟨hvalue, hbound⟩ := hexValue?_of_isDigit hfirst
      rw [List.foldl_cons, Nat.ofDigitChars_cons]
      simp only [hvalue, hbound, if_true, bind, Option.bind]
      exact ih hrest _

/-- **Numbers.**  The digits of a natural number stand for it. -/
theorem integer?_toString (k : Nat) : integer? (toString k) = some (false, k) := by
  rcases Nat.eq_zero_or_pos k with rfl | hpos
  · decide +kernel
  · obtain ⟨c, digits, hdigits, hc⟩ := Json.toDigits_head_ne_zero hpos
    have hisDigit : ∀ d ∈ c :: digits, d.isDigit = true :=
      fun d hd => Nat.isDigit_of_mem_toDigits (by decide) (by decide) (hdigits ▸ hd)
    have htext : (toString k).toList = c :: digits := by
      rw [Nat.toString_eq_ofList_toDigits, String.toList_ofList, hdigits]
    have hsign : Decimal.takeSign (c :: digits) = (false, c :: digits) := by
      have hfirst := hisDigit c List.mem_cons_self
      unfold Decimal.takeSign
      split
      · rename_i h
        cases h
        cases hfirst
      · rename_i h
        cases h
        cases hfirst
      · rfl
    have hmagnitude : magnitude? (c :: digits) = some k := by
      have hvalue : digits? 10 (c :: digits) = some k := by
        rw [digits?_of_isDigit (List.cons_ne_nil c digits) hisDigit, ← hdigits,
          Nat.ofDigitChars_ten_toDigits]
      unfold magnitude?
      split
      all_goals first | exact hvalue | (rename_i h; cases h; exact absurd rfl hc)
    have hzeros : hasNeedlessZeros (toString k) = false := by
      simp only [hasNeedlessZeros, htext, hsign, List.head?_cons, Option.some_beq_some,
        beq_eq_false_iff_ne.mpr hc, Bool.and_false, Bool.false_and]
    simp only [integer?, hzeros, htext, hsign, hmagnitude, Bool.false_eq_true, if_false,
      Option.map_some]

/-- A text that is a natural number of 64 bits stands for nothing else. -/
theorem found_of_integer? {text : String} {k : Nat} (h : integer? text = some (false, k))
    (hk : k < Bound.unsigned64) : found text = .integer k := by
  have hne : ∀ word : String, integer? word = none → text ≠ word := by
    rintro word hword rfl
    rw [h] at hword
    cases hword
  have hsomething : (text.isEmpty || isNull text) = false := by
    simp [isNull, hne "" (by decide +kernel), hne "null" (by decide +kernel),
      hne "Null" (by decide +kernel), hne "NULL" (by decide +kernel), hne "~" (by decide +kernel)]
  have hboolean : boolean? text = none := by
    simp [boolean?, hne "true" (by decide +kernel), hne "True" (by decide +kernel),
      hne "TRUE" (by decide +kernel), hne "false" (by decide +kernel),
      hne "False" (by decide +kernel), hne "FALSE" (by decide +kernel)]
  simp [found, hsomething, hboolean, h, foundInteger?, hk]

end Plain

/-- **Texts.**  In the style that is chosen for it a text stands for itself. -/
theorem standsFor_textStyle (text : String) : standsFor (textStyle text) text = .text text := by
  unfold textStyle
  split
  · rfl
  · split
    · rename_i s hfound
      split
      · rfl
      · exact hfound.trans (congrArg Found.text (Plain.eq_of_found_text hfound))
    · rfl

/-- **Words for numbers.** -/
theorem standsFor_natural {k : Nat} (hk : k < Bound.unsigned64) :
    standsFor .plain (toString k) = .integer k :=
  (if_pos rfl).trans (Plain.found_of_integer? (Plain.integer?_toString k) hk)

/-! ### What is read -/

/-- What is read where a text was written. -/
theorem exists_of_text {s : String} {n : Node} (h : (target.text s).isReadAs n = true) :
    ∃ place style, n = .scalar place none style s ∧ standsFor style s = .text s := by
  obtain ⟨place, style, rfl, hsame⟩ := exists_of_scalar_isReadAs h
  exact ⟨place, style, rfl, hsame.trans (standsFor_textStyle s)⟩

/-- What is read where a number was written. -/
theorem exists_of_natural {k : Nat} (hk : k < Bound.unsigned64) {n : Node}
    (h : (target.natural k).isReadAs n = true) :
    ∃ place, n = .scalar place none .plain (toString k) := by
  obtain ⟨place, style, rfl, hsame⟩ := exists_of_scalar_isReadAs h
  have hplain : style = .plain := by
    apply style_eq_plain
    rw [hsame, standsFor_natural hk]
    exact fun h => by cases h
  exact ⟨place, by rw [hplain]⟩

/-- What is read where a truth value was written. -/
theorem exists_of_boolean {b : Bool} {n : Node} (h : (target.boolean b).isReadAs n = true) :
    ∃ place, n = .scalar place none .plain (if b then "true" else "false") := by
  obtain ⟨place, style, rfl, hsame⟩ := exists_of_scalar_isReadAs h
  have hplain : style = .plain := by
    apply style_eq_plain
    rw [hsame]
    cases b <;> decide +kernel
  exact ⟨place, by rw [hplain]⟩

/-- What is read where a list was written. -/
theorem exists_of_list {items : List Node} {n : Node} (h : (target.list items).isReadAs n = true) :
    ∃ place read, n = .sequence place none read ∧
      List.Forall₂ (fun w n => w.isReadAs n = true) items read := by
  cases n with
  | sequence place tag read =>
      simp only [target, Node.isReadAs, Bool.and_eq_true, Option.isNone_iff_eq_none] at h
      obtain ⟨rfl, hitems⟩ := h
      exact ⟨place, read, rfl, forall_of_itemsAreReadAs hitems⟩
  | _ => cases h

/-- What is read where a record was written. -/
theorem exists_of_record {parts : List (String × Node)} {n : Node}
    (h : (target.record parts).isReadAs n = true) :
    ∃ place read, n = .mapping place none read ∧
      List.Forall₂ (fun w n => (Node.ofText w.1).isReadAs n.1 = true ∧ w.2.isReadAs n.2 = true)
        parts read := by
  cases n with
  | mapping place tag read =>
      simp only [target, Node.isReadAs, Bool.and_eq_true, Option.isNone_iff_eq_none] at h
      obtain ⟨rfl, hentries⟩ := h
      exact ⟨place, read, rfl, List.forall₂_map_left_iff.mp (forall_of_entriesAreReadAs hentries)⟩
  | _ => cases h

/-- A scalar that does not stand for nothing is not read as nothing. -/
theorem readNothing_of_standsFor {style : Style} {text : String}
    (h : standsFor style text ≠ .nothing) (place : Mark) :
    (Node.scalar place none style text).readNothing = .ok false := by
  cases style with
  | plain =>
      have hsomething : (text.isEmpty || Plain.isNull text) = false := by
        refine Bool.eq_false_iff.mpr fun hnothing => h ?_
        change Plain.found text = .nothing
        rw [Plain.found, if_pos hnothing]
      exact congrArg Except.ok hsomething
  | _ => rfl

/-- **Reading YAML back.**  The format gives back what is written to the target. -/
theorem restores (references : List (Nat × Node)) :
    Restores target (format references) fun w n => w.isReadAs n = true where
  natural := by
    intro k n h bound hbound hle typeName
    obtain ⟨place, rfl⟩ := exists_of_natural (Nat.lt_of_lt_of_le hbound hle) h
    have hscalar : Node.isScalarOf "int" none .plain = true := rfl
    simp only [format, Node.target, Node.readNatural, hscalar, if_true, Plain.integer?_toString,
      hbound]
  text := by
    intro s n h expected
    obtain ⟨place, style, rfl, -⟩ := exists_of_text h
    rfl
  choice := by
    intro s n h names hs
    obtain ⟨place, style, rfl, -⟩ := exists_of_text h
    have hcontains : names.contains s = true := List.contains_iff_mem.mpr hs
    simp only [format, Node.target, Node.readName, Node.ownTag?, hcontains, if_true]
  boolean := by
    intro b n h
    obtain ⟨place, rfl⟩ := exists_of_boolean h
    cases b <;> rfl
  items := by
    intro items n h
    obtain ⟨place, read, rfl, hread⟩ := exists_of_list h
    exact ⟨read, rfl, hread⟩
  entries := by
    intro parts n h
    obtain ⟨place, read, rfl, hread⟩ := exists_of_record h
    refine ⟨read, fun _ => rfl, rfl, hread.imp ?_⟩
    rintro w ⟨key, value⟩ ⟨hkey, hvalue⟩
    obtain ⟨place, style, rfl, -⟩ := exists_of_text hkey
    exact ⟨fun _ => rfl, hvalue⟩
  natural_isNothing := by
    intro k n h hk
    obtain ⟨place, rfl⟩ := exists_of_natural hk h
    have hinteger : standsFor .plain (toString k) ≠ .nothing := by
      rw [standsFor_natural hk]
      exact fun h => by cases h
    exact readNothing_of_standsFor hinteger place
  text_isNothing := by
    intro s n h
    obtain ⟨place, style, rfl, hstands⟩ := exists_of_text h
    have htext : standsFor style s ≠ .nothing := by
      rw [hstands]
      exact fun h => by cases h
    exact readNothing_of_standsFor htext place
  record_isNothing := by
    intro parts n h
    obtain ⟨place, read, rfl, -⟩ := exists_of_record h
    rfl

/-! ### Documents -/

/-- The document of characters that are all allowed, the first of which is no mark of their order. -/
theorem Document.ofText_ofList {cs : List Char}
    (h : ((cs.head? == some byteOrderMark) || cs.any (!isAllowed ·)) = false) :
    ofText (String.ofList cs) = ofChars cs := by
  rw [Bool.or_eq_false_iff] at h
  have hallowed : cs.findIdx? (!isAllowed ·) = none := by
    rw [List.findIdx?_eq_none_iff]
    exact fun c hc => Bool.eq_false_iff.mpr (List.any_eq_false.mp h.2 c hc)
  simp only [ofText, String.toList_ofList, h.1, Bool.false_eq_true, if_false, hallowed]

end WebBaseline.Yaml
