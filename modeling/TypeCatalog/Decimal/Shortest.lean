/-! The fewest decimal digits that name a double. A double stands for every real number that
rounds to it; `shortest` finds the coarsest decimal grid with a point among those numbers, and
on that grid the point nearest to the double itself. A `Tie` chooses where two are. -/
namespace TypeCatalog.Decimal

/-- What the bits of a double say: a finite one is `mantissa * 2 ^ exponent`. -/
inductive Double where
  | nan
  | infinite (negative : Bool)
  | finite (negative : Bool) (mantissa : Nat) (exponent : Int)
deriving DecidableEq, Repr

def leastMantissa : Nat := 0x10000000000000

def Double.ofFloat (f : Float) : Double :=
  let bits := f.toBits.toNat
  let negative := bits / leastMantissa / 2048 == 1
  let exponent : Nat := bits / leastMantissa % 2048
  let fraction : Nat := bits % leastMantissa
  if exponent = 2047 then (if fraction = 0 then .infinite negative else .nan)
  else if exponent = 0 then .finite negative fraction (-1074)
  else .finite negative (leastMantissa + fraction) ((exponent : Int) - 1075)

structure Scaled where
  digits : Nat
  exponent : Int
deriving DecidableEq, Repr

/-- Which of two neighbours on a grid is taken where both are equally near. -/
inductive Tie where
  | toEven
  | upward
deriving DecidableEq, Repr

namespace Tie

def takesLow (low : Nat) : Tie → Bool
  | .toEven => low % 2 == 0
  | .upward => false

end Tie

/-- The point of the grid of multiples of `10 ^ k` that names the double, if there is one.
All is measured in quarters of the double's last place: the neighbours' midpoints lie two
quarters away, only below a power of two one quarter, and belong to an even mantissa. -/
def gridPoint? (tie : Tie) (mantissa : Nat) (exponent k : Int) : Option Nat :=
  let unit := Nat.pow 2 (exponent - 2).toNat * Nat.pow 10 (-k).toNat
  let cell := Nat.pow 2 (2 - exponent).toNat * Nat.pow 10 k.toNat
  let value := 4 * mantissa * unit
  let below := if mantissa = leastMantissa ∧ exponent ≠ -1074 then unit else 2 * unit
  let inside (c : Nat) : Bool :=
    if mantissa % 2 = 0 then value - below ≤ c * cell ∧ c * cell ≤ value + 2 * unit
    else value - below < c * cell ∧ c * cell < value + 2 * unit
  let low := value / cell
  let toLow := value - low * cell
  let toHigh := (low + 1) * cell - value
  match inside low, inside (low + 1) with
  | true, true =>
    some (if toLow < toHigh ∨ (toLow = toHigh ∧ tie.takesLow low) then low else low + 1)
  | true, false => some low
  | false, true => some (low + 1)
  | false, false => none

/-- Grids from `10 ^ 309`, coarser than every double, down to `10 ^ (-1074)`, on which every
double is a point. -/
def shortest (tie : Tie) (mantissa : Nat) (exponent : Int) : Scaled :=
  let onGrid (i : Nat) : Option Scaled :=
    (gridPoint? tie mantissa exponent (309 - i)).map (⟨·, 309 - i⟩)
  ((List.range 1384).findSome? onGrid).getD ⟨0, 0⟩

end TypeCatalog.Decimal
