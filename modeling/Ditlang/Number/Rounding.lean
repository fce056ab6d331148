import Ditlang.Number.Basic

/-!
# Ditlang.Number.Rounding

The number nearest to an exact value. A quotient of naturals is scaled so that its whole part has
fifty-three bits (fewer below the normal range), rounded with halves to even, and packed. Sums,
products, quotients and decimal readings are exact first and rounded once, here.
-/

namespace Ditlang
namespace Number

/-- The whole number nearest to `n / d`; a half goes to the even neighbour. -/
def roundHalfEven (n d : Nat) : Nat :=
  let q := n / d
  let r := n % d
  if 2 * r < d then q
  else if d < 2 * r then q + 1
  else if q % 2 = 0 then q else q + 1

/-- `n / d` scaled down by `2 ^ e`, as a quotient of naturals. -/
def scaleDown (n d : Nat) (e : Int) : Nat × Nat :=
  if 0 ≤ e then (n, d * twoTo e.toNat) else (n * twoTo (-e).toNat, d)

/-- The weight of the last bit kept for the positive quotient `n / d`. -/
def lastBitWeight (n d : Nat) : Int :=
  let guess : Int := (n.log2 : Int) - d.log2 - 52
  let (sn, sd) := scaleDown n d guess
  max (-1074) (if sn < sd * twoTo 52 then guess - 1 else guess)

/-- The number nearest to `n / d` with the given sign; too large a value becomes infinite. -/
def nearest (neg : Bool) (n d : Nat) : Number :=
  if n = 0 then
    signedZero neg
  else
    let e := lastBitWeight n d
    let (sn, sd) := scaleDown n d e
    let m := roundHalfEven sn sd
    -- a subnormal has biased exponent 0; a carry out of the fraction raises the exponent by itself
    let packed := if m < twoTo 52 then m else (e + 1075).toNat * twoTo 52 + (m - twoTo 52)
    if packed < 2047 * twoTo 52 then ofParts neg packed else infinity neg

/-- The number nearest to `m · 2 ^ q`. -/
def nearestDyadic (neg : Bool) (m : Nat) (q : Int) : Number :=
  if 0 ≤ q then nearest neg (m * twoTo q.toNat) 1 else nearest neg m (twoTo (-q).toNat)

def ofNat (n : Nat) : Number :=
  nearest false n 1

def ofInt (n : Int) : Number :=
  nearest (n < 0) n.natAbs 1

/-- The number nearest to `digits · 10 ^ exponent`. Exponents far outside the range of numbers
are answered without raising ten to them. -/
def ofDecimal (neg : Bool) (digits : Nat) (exponent : Int) : Number :=
  let top : Int := (Nat.toDigits 10 digits).length + exponent
  if digits = 0 then signedZero neg
  else if 310 < top then infinity neg
  else if top < -330 then signedZero neg
  else if 0 ≤ exponent then nearest neg (digits * tenTo exponent.toNat) 1
  else nearest neg digits (tenTo (-exponent).toNat)

/-- The sum of two numbers. Opposite infinities have no sum, and an exact zero is positive unless
both terms are negative zeros. -/
def add (x y : Number) : Number :=
  match x.magnitude, y.magnitude with
  | .nan, _ => nan
  | _, .nan => nan
  | .infinite, .infinite => if x.negative = y.negative then x else nan
  | .infinite, .finite _ _ => x
  | .finite _ _, .infinite => y
  | .finite m q, .finite n r =>
    let low := min q r
    let term (neg : Bool) (k : Nat) (e : Int) : Int :=
      (if neg then -1 else 1) * ((k * twoTo (e - low).toNat : Nat) : Int)
    let sum := term x.negative m q + term y.negative n r
    if sum = 0 then signedZero (x.negative && y.negative)
    else nearestDyadic (sum < 0) sum.natAbs low

def mulFinite (x y : Number) : Number :=
  match x.magnitude, y.magnitude with
  | .finite m q, .finite n r => nearestDyadic (x.negative != y.negative) (m * n) (q + r)
  | _, _ => nan

/-- The quotient of two finite numbers, the second of them not zero. -/
def divFinite (x y : Number) : Number :=
  match x.magnitude, y.magnitude with
  | .finite m q, .finite n r =>
    let (sn, sd) := scaleDown m n (r - q)
    nearest (x.negative != y.negative) sn sd
  | _, _ => nan

end Number
end Ditlang
