/-!
# Bounds of integers

Integers that are kept in a fixed number of bits stay below these bounds.  With
a sign, they reach down to the bound's opposite.
-/

namespace WebBaseline.Bound

/-- The bound of integers of 64 bits with a sign. -/
def signed64 : Int := 0x8000000000000000

/-- The bound of natural numbers of 64 bits. -/
def unsigned64 : Nat := 0x10000000000000000

/-- The bound of integers of 128 bits with a sign. -/
def signed128 : Int := 0x80000000000000000000000000000000

/-- The bound of natural numbers of 128 bits. -/
def unsigned128 : Nat := 0x100000000000000000000000000000000

end WebBaseline.Bound
