/-!
Binary64 numbers as bit patterns: comparison, and rounding of a nonnegative
quotient to the nearest one.

The finite numbers from zero upwards have consecutive bit patterns, so a
pattern is an index into that increasing sequence. Below `2 ^ 53` units of
`2 ^ -1074` the index of a number is the number of its units; from there on
every binade takes `2 ^ 52` further indices, each worth twice as many units as
in the binade before.
-/

namespace PascalFrontEnd

structure Binary64 where
  bits : UInt64
  deriving DecidableEq, Repr, Inhabited

namespace Binary64

def magnitude (x : Binary64) : Nat :=
  x.bits.toNat % Nat.pow 2 63

def infinityIndex : Nat := 0x7ff * Nat.pow 2 52

def infinity : Binary64 := ⟨0x7ff0000000000000⟩

def isNaN (x : Binary64) : Bool :=
  infinityIndex < x.magnitude

def same (x y : Binary64) : Bool :=
  !x.isNaN && !y.isNaN &&
    (x.bits == y.bits || (x.magnitude == 0 && y.magnitude == 0))

/-- `numerator / denominator` to the nearest integer, a half to the even one. -/
def roundHalfEven (numerator denominator : Nat) : Nat :=
  let quotient := numerator / denominator
  let remainder := numerator % denominator
  if 2 * remainder < denominator then quotient
  else if denominator < 2 * remainder then quotient + 1
  else quotient + quotient % 2

def nearestIndex (numerator denominator : Nat) : Nat :=
  let scaled := numerator * Nat.pow 2 1074
  let binade := (scaled / denominator).log2 - 52
  binade * Nat.pow 2 52 + roundHalfEven scaled (denominator * Nat.pow 2 binade)

/-- The binary64 number nearest to `numerator / denominator`, ties to the even
significand; what lies beyond the finite numbers rounds to infinity. -/
def nearest (numerator denominator : Nat) : Binary64 :=
  ⟨UInt64.ofNat (min (nearestIndex numerator denominator) infinityIndex)⟩

end Binary64

end PascalFrontEnd
