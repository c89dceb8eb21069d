/-!
# Writing records as structured data

`Target` is what a data format offers for values that are written: scalars,
lists and named parts.  Records are written alike to every format.
-/

namespace WebBaseline.Encoding

/-- The ways to build values `ν` of a format. -/
structure Target (ν : Type) where
  natural : Nat → ν
  text : String → ν
  boolean : Bool → ν
  list : List ν → ν
  /-- A record or a dictionary, from its names with their values. -/
  record : List (String × ν) → ν

variable {ν : Type} (t : Target ν)

/-- A part of a record that is left out if there is nothing to write. -/
def optional (name : String) : Option ν → List (String × ν)
  | some value => [(name, value)]
  | none => []

end WebBaseline.Encoding
