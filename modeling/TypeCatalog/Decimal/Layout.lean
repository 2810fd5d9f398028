import TypeCatalog.Decimal.Shortest

/-! The text of a double: its shortest digits, laid out with a decimal point or with an
exponent. At least one digit stands on each side of a decimal point that is written without
an exponent. -/
namespace TypeCatalog.Decimal

structure Layout where
  /-- The powers of ten of the leading digit for which no exponent is written; `none` for all. -/
  positional? : Option (Int × Int)
  tie : Tie
deriving DecidableEq, Repr

namespace Layout

/-- No exponent from `0.00001` up to sixteen digits before the point. A tie goes to
the even digit. -/
def compact : Layout := ⟨some (-5, 15), .toEven⟩

/-- Never an exponent. A tie goes to the larger magnitude. -/
def full : Layout := ⟨none, .upward⟩

def isPositional (l : Layout) (lead : Int) : Bool :=
  match l.positional? with
  | none => true
  | some (least, greatest) => least ≤ lead ∧ lead ≤ greatest

/-- A point among the digits, with zeros where it lies outside them. -/
def pointed (digits : List Char) (exponent : Int) : List Char :=
  let lead := (digits.length : Int) + exponent
  if 0 ≤ exponent then digits ++ List.replicate exponent.toNat '0' ++ ['.', '0']
  else if 0 < lead then digits.take lead.toNat ++ '.' :: digits.drop lead.toNat
  else '0' :: '.' :: List.replicate (-lead).toNat '0' ++ digits

/-- One digit before the point, if there are others after it, and the exponent with its sign. -/
def exponential (digits : List Char) (lead : Int) : List Char :=
  let fraction := match digits.drop 1 with
    | [] => []
    | rest => '.' :: rest
  digits.take 1 ++ fraction ++ 'e' :: (if lead < 0 then '-' else '+') :: Nat.toDigits 10 lead.natAbs

def unsigned (l : Layout) (d : Scaled) : List Char :=
  let digits := Nat.toDigits 10 d.digits
  let lead := (digits.length : Int) + d.exponent - 1
  if l.isPositional lead then pointed digits d.exponent else exponential digits lead

def sign (negative : Bool) : List Char := if negative then ['-'] else []

def text (l : Layout) (f : Float) : String :=
  match Double.ofFloat f with
  | .nan => "NaN"
  | .infinite negative => String.ofList (sign negative ++ ['i', 'n', 'f'])
  | .finite negative 0 _ => String.ofList (sign negative ++ ['0', '.', '0'])
  | .finite negative mantissa exponent =>
    String.ofList (sign negative ++ l.unsigned (shortest l.tie mantissa exponent))

end Layout

end TypeCatalog.Decimal
