/-!
# Ditlang.Number

The numbers of the language are binary floating-point numbers of 64 bits. A number is kept as its
bits, and what it means is read off them with integers alone, so that comparisons, sums and texts
can be reasoned about without reference to a machine.
-/

namespace Ditlang

/-- A 64-bit binary floating-point number: one sign bit, eleven exponent bits and a fraction of
fifty-two bits. -/
structure Number where
  bits : UInt64
deriving DecidableEq, Repr, Inhabited

namespace Number

abbrev twoTo (n : Nat) : Nat := Nat.pow 2 n

abbrev tenTo (n : Nat) : Nat := Nat.pow 10 n

/-- The size of a number apart from its sign. -/
inductive Magnitude where
  | nan
  | infinite
  /-- The value `m · 2 ^ q`. -/
  | finite (m : Nat) (q : Int)
deriving DecidableEq, Repr

def negative (x : Number) : Bool :=
  twoTo 63 ≤ x.bits.toNat

def unsignedBits (x : Number) : Nat :=
  x.bits.toNat % twoTo 63

def exponentField (x : Number) : Nat :=
  x.unsignedBits / twoTo 52

def fractionField (x : Number) : Nat :=
  x.unsignedBits % twoTo 52

/-- What the bits other than the sign stand for. -/
def magnitude (x : Number) : Magnitude :=
  if x.exponentField = 2047 then
    if x.fractionField = 0 then .infinite else .nan
  else if x.exponentField = 0 then
    .finite x.fractionField (-1074)
  else
    .finite (twoTo 52 + x.fractionField) (x.exponentField - 1075)

def isNaN (x : Number) : Bool :=
  2047 * twoTo 52 < x.unsignedBits

/-- Whether this is neither infinite nor a NaN. -/
def isFinite (x : Number) : Bool :=
  x.unsignedBits < 2047 * twoTo 52

/-- The number with these bits apart from the sign. -/
def ofParts (neg : Bool) (unsigned : Nat) : Number :=
  ⟨UInt64.ofNat (unsigned + if neg then twoTo 63 else 0)⟩

def signedZero (neg : Bool) : Number :=
  ofParts neg 0

def infinity (neg : Bool) : Number :=
  ofParts neg (2047 * twoTo 52)

def nan : Number :=
  ofParts false (2047 * twoTo 52 + twoTo 51)

def zero : Number :=
  signedZero false

def negate (x : Number) : Number :=
  ofParts (!x.negative) x.unsignedBits

/-- A key by which numbers other than NaN are ordered: both zeros have the key `0`. -/
def orderKey (x : Number) : Int :=
  if x.negative then -(x.unsignedBits : Int) else x.unsignedBits

/-- Equality of numbers as the language compares them: both zeros are equal and a NaN equals
nothing. -/
def same (x y : Number) : Bool :=
  !x.isNaN && !y.isNaN && x.orderKey == y.orderKey

/-- Whether `x` is at most `y`; false when either is a NaN. -/
def le (x y : Number) : Bool :=
  !x.isNaN && !y.isNaN && x.orderKey ≤ y.orderKey

end Number
end Ditlang
