import ReplicatedLog.Number.Binary64

/-!
# The shortest decimal of a floating-point number

Among the decimals that read back as a given magnitude, the one with the fewest
digits is printed, and of those the nearest.  Magnitudes from 1e-5 up to but not
including 1e16 are written out in positional form, always with a fractional
digit; the others get an exponent with a sign and at least two digits.
-/

namespace ReplicatedLog
namespace Binary64

/-- A decimal `digits * 10 ^ exponent`. -/
structure Decimal where
  digits : Nat
  exponent : Int
  deriving DecidableEq, Repr

/-- Four times the magnitude and the ends of the interval that rounds to it, in units of a
quarter of the last place. -/
def quarters (x : Binary64) : Nat × Nat × Nat :=
  let m := 4 * x.mantissa
  let gap := if x.mantissa = hiddenBit ∧ minExponent < x.exponent then 1 else 2
  (m - gap, m, m + 2)

/-- The exponent of the leading decimal digit of a quotient that is not zero. -/
def leadingExponent (num den : Nat) : Int :=
  if den ≤ num then ((Nat.toDigits 10 (num / den)).length : Int) - 1
  else -(((List.range 400).find? fun j => decide (den ≤ num * Nat.pow 10 j)).getD 0 : Nat)

/-- The decimal with `count` digits nearest to the magnitude, if one reads back as it. -/
def withDigits (x : Binary64) (count : Nat) : Option Decimal :=
  let (low, mid, high) := x.quarters
  let e := x.exponent - 2
  let up := if 0 ≤ e then Nat.pow 2 e.toNat else 1
  let down := if 0 ≤ e then 1 else Nat.pow 2 (-e).toNat
  let place := leadingExponent (mid * up) down - (count - 1)
  -- The value in units of the last decimal place is `mid * num / den`.
  let num := up * (if 0 ≤ place then 1 else Nat.pow 10 (-place).toNat)
  let den := down * (if 0 ≤ place then Nat.pow 10 place.toNat else 1)
  let inside := fun c : Nat =>
    if x.mantissa % 2 = 0 then
      decide (low * num ≤ c * den) && decide (c * den ≤ high * num)
    else decide (low * num < c * den) && decide (c * den < high * num)
  let below := mid * num / den
  let rest := mid * num % den
  let nearer := if 2 * rest < den then below
    else if den < 2 * rest then below + 1
    else if below % 2 = 0 then below else below + 1
  let farther := if nearer = below then below + 1 else below
  if inside nearer then some ⟨nearer, place⟩
  else if inside farther then some ⟨farther, place⟩
  else none

/-- Drops the trailing zeros of a decimal of at most `fuel` digits. -/
def Decimal.trimZeros : (fuel : Nat) → Decimal → Decimal
  | 0, d => d
  | fuel + 1, d =>
      if d.digits ≠ 0 ∧ d.digits % 10 = 0 then
        trimZeros fuel ⟨d.digits / 10, d.exponent + 1⟩
      else d

/-- The shortest decimal that reads back as a magnitude other than zero. -/
def shortest (x : Binary64) : Decimal :=
  let found := ((List.range 17).map (· + 1)).findSome? x.withDigits
  (found.getD ⟨0, 0⟩).trimZeros 20

/-- Digits with at least two places. -/
def twoPlaces (n : Nat) : String :=
  let digits := Nat.toDigits 10 n
  String.ofList (if digits.length < 2 then '0' :: digits else digits)

/-- The text of a decimal. -/
def Decimal.text (d : Decimal) : String :=
  let digits := Nat.toDigits 10 d.digits
  let lead : Int := d.exponent + digits.length - 1
  if d.digits = 0 then "0.0"
  else if -5 ≤ lead ∧ lead < 16 then
    if 0 ≤ d.exponent then
      String.ofList (digits ++ List.replicate d.exponent.toNat '0' ++ ['.', '0'])
    else if 0 ≤ lead then
      let whole := lead.toNat + 1
      String.ofList (digits.take whole ++ '.' :: digits.drop whole)
    else
      String.ofList ('0' :: '.' :: List.replicate ((-lead).toNat - 1) '0' ++ digits)
  else
    let fraction := match digits.tail with
      | [] => []
      | rest => '.' :: rest
    let sign := if 0 ≤ lead then "+" else "-"
    String.ofList (digits.take 1 ++ fraction) ++ "e" ++ sign ++ twoPlaces lead.natAbs

/-- The text of a magnitude. -/
def text (x : Binary64) : String :=
  if x.mantissa = 0 then "0.0" else x.shortest.text

end Binary64
end ReplicatedLog
