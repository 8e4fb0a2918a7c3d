/-!
# Binary floating-point numbers of 64 bits

The magnitudes that 53 significant bits can hold, in exact arithmetic on whole
numbers: a finite magnitude is `mantissa * 2 ^ exponent`.

* `Binary64.ofRatio` rounds a quotient to the nearest magnitude, a tie to the
  even mantissa, and answers `none` beyond the largest one;
* `Binary64.ofDecimal` reads a significand with a power of ten the way the
  number reader of this library does: one rounding for the significand and one
  for each scaling by a power of ten.
-/

namespace ReplicatedLog

/-- A finite magnitude `mantissa * 2 ^ exponent`, with the largest mantissa the format allows. -/
structure Binary64 where
  mantissa : Nat
  exponent : Int
  deriving DecidableEq, Repr

namespace Binary64

/-- The exponent of the smallest magnitudes. -/
def minExponent : Int := -1074

/-- The exponent of the largest magnitudes. -/
def maxExponent : Int := 971

/-- The smallest mantissa with 53 bits, of which the first one is not stored. -/
def hiddenBit : Nat := 4503599627370496

/-- The whole number nearest to a quotient; a tie goes to the even one. -/
def roundHalfEven (num den : Nat) : Nat :=
  let q := num / den
  let r := num % den
  if 2 * r < den then q
  else if den < 2 * r then q + 1
  else if q % 2 = 0 then q else q + 1

/-- The quotient `num / den / 2 ^ e` as a pair. -/
def scaleDown (num den : Nat) (e : Int) : Nat × Nat :=
  if 0 ≤ e then (num, den * Nat.pow 2 e.toNat) else (num * Nat.pow 2 (-e).toNat, den)

/-- Zero. -/
def zero : Binary64 := ⟨0, minExponent⟩

/-- The magnitude nearest to a quotient, if it is not too large. -/
def ofRatio (num den : Nat) : Option Binary64 :=
  if num = 0 then some zero
  else
    let guess : Int := max ((num.log2 : Int) - den.log2 - 52) minExponent
    let (n, d) := scaleDown num den guess
    let e := if n / d < hiddenBit then max (guess - 1) minExponent else guess
    let (n, d) := scaleDown num den e
    let m := roundHalfEven n d
    let (m, e) := if m = 2 * hiddenBit then (hiddenBit, e + 1) else (m, e)
    if maxExponent < e then none else some ⟨m, e⟩

/-- The magnitude as a quotient. -/
def toRatio (x : Binary64) : Nat × Nat :=
  if 0 ≤ x.exponent then (x.mantissa * Nat.pow 2 x.exponent.toNat, 1)
  else (x.mantissa, Nat.pow 2 (-x.exponent).toNat)

/-- The rounded product. -/
def mul (x y : Binary64) : Option Binary64 :=
  let (a, b) := x.toRatio
  let (c, d) := y.toRatio
  ofRatio (a * c) (b * d)

/-- The rounded quotient by a nonzero magnitude. -/
def div (x y : Binary64) : Option Binary64 :=
  let (a, b) := x.toRatio
  let (c, d) := y.toRatio
  ofRatio (a * d) (b * c)

/-- The largest power of ten that the format holds. -/
def maxPower : Nat := 308

/-- The power of ten, rounded. -/
def power10 (n : Nat) : Binary64 :=
  (ofRatio (Nat.pow 10 n) 1).getD zero

/-- Scales by a power of ten in steps of at most `maxPower`. -/
def scaleByPower10 : (fuel : Nat) → Binary64 → Int → Option Binary64
  | 0, x, _ => some x
  | fuel + 1, x, e =>
      if e.natAbs ≤ maxPower then
        if 0 ≤ e then x.mul (power10 e.natAbs) else x.div (power10 e.natAbs)
      else if x.mantissa = 0 then some x
      else if 0 ≤ e then none
      else do
        let y ← x.div (power10 maxPower)
        scaleByPower10 fuel y (e + maxPower)

/-- Reads `significand * 10 ^ exponent` for a significand of 64 bits, which is zero after at
most three scalings. -/
def ofDecimal (significand : Nat) (exponent : Int) : Option Binary64 := do
  let x ← ofRatio significand 1
  scaleByPower10 4 x exponent

end Binary64
end ReplicatedLog
