import Ditlang.Number.Basic

/-!
# Ditlang.Number.Shortest

The shortest decimal that reads back as a given number. A positive finite number `m · 2 ^ q`
stands for the interval of reals that round to it, its ends included exactly when `m` is even.
For one digit, two digits and so on the two neighbours of the number on that decimal grid are
tested against the interval; the first grid with a hit wins, and of two hits the nearer.
-/

namespace Ditlang
namespace Number

/-- The decimal `digits · 10 ^ exponent`. -/
structure Decimal where
  digits : Nat
  exponent : Int
deriving DecidableEq, Repr, Inhabited

/-- The reals that round to one number: a centre and two ends, all over one denominator. -/
structure Interval where
  low : Nat
  centre : Nat
  high : Nat
  denominator : Nat
  closed : Bool
deriving Repr

/-- The interval of reals that round to `m · 2 ^ q`. Below a power of two the gap to the next
smaller number is half as wide. -/
def Interval.around (m : Nat) (q : Int) : Interval :=
  let unit := twoTo q.toNat
  let centre := 4 * (m * unit)
  let below := if m = twoTo 52 ∧ -1074 < q then unit else 2 * unit
  { low := centre - below
    centre := centre
    high := centre + 2 * unit
    denominator := 4 * twoTo (-q).toNat
    closed := m % 2 == 0 }

/-- The grid of multiples of `10 ^ k`, as a step over a denominator. -/
def gridStep (k : Int) : Nat × Nat :=
  (tenTo k.toNat, tenTo (-k).toNat)

/-- Whether `c · 10 ^ k` lies in the interval. -/
def Interval.contains (i : Interval) (c : Nat) (k : Int) : Bool :=
  let (num, den) := gridStep k
  let point := c * num * i.denominator
  if i.closed then i.low * den ≤ point && point ≤ i.high * den
  else i.low * den < point && point < i.high * den

/-- The multiple of `10 ^ k` at or below the centre of the interval. -/
def Interval.floorOn (i : Interval) (k : Int) : Nat :=
  let (num, den) := gridStep k
  i.centre * den / (i.denominator * num)

/-- Which of two neighbours is taken that are equally near. -/
inductive Tie where
  | up
  | toEven
deriving DecidableEq, Repr

/-- Whether of `c` and `c + 1` the lower one is taken when both are equally near. -/
def Tie.takesLower (tie : Tie) (c : Nat) : Bool :=
  match tie with
  | .up => false
  | .toEven => c % 2 == 0

/-- Whether the centre is nearer to `c · 10 ^ k` than to the next multiple. -/
def Interval.nearerBelow (tie : Tie) (i : Interval) (c : Nat) (k : Int) : Bool :=
  let (num, den) := gridStep k
  let centre := 2 * (i.centre * den)
  let middle := (2 * c + 1) * num * i.denominator
  centre < middle || (centre == middle && tie.takesLower c)

/-- The point of the grid `10 ^ k` inside the interval, the nearer one if there are two. -/
def Interval.pointOn? (tie : Tie) (i : Interval) (k : Int) : Option Nat :=
  let c := i.floorOn k
  match i.contains c k, i.contains (c + 1) k with
  | true, true => some (if i.nearerBelow tie c k then c else c + 1)
  | true, false => some c
  | false, true => some (c + 1)
  | false, false => none

/-- How many decimal digits a natural has; none for zero. -/
def digitCount (n : Nat) : Nat :=
  if n = 0 then 0 else (Nat.toDigits 10 n).length

/-- The decimal exponent of the leading digit of the positive quotient `n / d`. -/
def leadingExponent (n d : Nat) : Int :=
  if d ≤ n then (digitCount (n / d) : Int) - 1
  else -(digitCount ((d + n - 1) / n - 1) : Int)

/-- Drops the zeros a decimal ends with. -/
def Decimal.normalize : Nat → Decimal → Decimal
  | 0, d => d
  | fuel + 1, d =>
    if d.digits ≠ 0 ∧ d.digits % 10 = 0 then normalize fuel ⟨d.digits / 10, d.exponent + 1⟩ else d

/-- Tries the grids `10 ^ k`, `10 ^ (k - 1)`, … in turn, at most `n` of them. -/
def Interval.firstPoint (tie : Tie) (i : Interval) : Nat → Int → Decimal
  | 0, k => ⟨i.floorOn k, k⟩
  | n + 1, k =>
    match i.pointOn? tie k with
    | some c => ⟨c, k⟩
    | none => i.firstPoint tie n (k - 1)

/-- The shortest decimal that reads back as the positive number `m · 2 ^ q`, the nearest of
them to it. Seventeen digits always suffice. -/
def shortestOf (tie : Tie) (m : Nat) (q : Int) : Decimal :=
  let i := Interval.around m q
  (i.firstPoint tie 17 (leadingExponent i.centre i.denominator)).normalize 20

end Number
end Ditlang
