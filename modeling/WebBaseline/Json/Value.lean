import WebBaseline.Decimal.Shortest

/-!
# JSON values

An object lists its members in ascending order of their keys, each key once;
`Json.Members.insert` keeps it so.  Integers from `-2 ^ 63` to below `2 ^ 64`
are exact, and all other numbers are binary floating-point numbers.
-/

namespace WebBaseline

/-- A JSON value. -/
inductive Json where
  | null
  | bool (value : Bool)
  | integer (value : Int)
  | double (value : Binary64)
  | text (value : String)
  | array (items : List Json)
  | object (members : List (String × Json))
deriving BEq, Inhabited

namespace Json

/-- The members of an object. -/
abbrev Members := List (String × Json)

namespace Members

/-- Put a value under a key, in place of an earlier one. -/
def insert (key : String) (value : Json) : Members → Members
  | [] => [(key, value)]
  | (k, v) :: rest =>
    if key < k then (key, value) :: (k, v) :: rest
    else if key = k then (key, value) :: rest
    else (k, v) :: insert key value rest

/-- The value under a key. -/
def get? (key : String) : Members → Option Json
  | [] => none
  | (k, v) :: rest => if k = key then some v else get? key rest

/-- The members of a list; the last value of a key counts. -/
def ofList (pairs : List (String × Json)) : Members :=
  pairs.foldl (fun m p => m.insert p.1 p.2) []

theorem get?_insert (m : Members) (k j : String) (v : Json) :
    (m.insert k v).get? j = if k = j then some v else m.get? j := by
  induction m with
  | nil => rfl
  | cons p rest ih =>
    obtain ⟨a, b⟩ := p
    rw [insert]
    split
    · rfl
    · split
      · rename_i h
        subst h
        by_cases hj : k = j <;> simp [get?, hj]
      · rename_i h
        rw [get?, get?, ih]
        by_cases hk : k = j
        · subst hk
          simp [Ne.symm h]
        · simp [hk]

end Members

/-- An object with the given members, in any order. -/
def ofMembers (pairs : List (String × Json)) : Json := object (Members.ofList pairs)

/-- The value under a key, if this is an object that has one. -/
def get? (key : String) : Json → Option Json
  | object m => Members.get? key m
  | _ => none

/-- The text, if this is one. -/
def text? : Json → Option String
  | text s => some s
  | _ => none

/-- The items, if this is an array. -/
def items? : Json → Option (List Json)
  | array items => some items
  | _ => none

/-- A text, or null. -/
def ofText? : Option String → Json
  | some s => text s
  | none => null

/-- Whether this is an object. -/
def isObject : Json → Bool
  | object _ => true
  | _ => false

end Json

end WebBaseline
