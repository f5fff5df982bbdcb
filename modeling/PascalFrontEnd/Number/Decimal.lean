import PascalFrontEnd.Number.Binary64

namespace PascalFrontEnd.Decimal

def digit (c : Char) : Nat :=
  c.toNat - '0'.toNat

def value (digits : List Char) : Nat :=
  digits.foldl (fun total c => 10 * total + digit c) 0

def toBinary64 (whole fraction : List Char) : Binary64 :=
  Binary64.nearest (value (whole ++ fraction)) (Nat.pow 10 fraction.length)

def maxInteger : Nat := Nat.pow 2 63 - 1

/-- The integer a run of digits denotes, if it is within the limit; the number
of digits does not matter. -/
def toInteger? (digits : List Char) : Option Int64 :=
  if value digits ≤ maxInteger then some (Int64.ofNat (value digits)) else none

end PascalFrontEnd.Decimal
