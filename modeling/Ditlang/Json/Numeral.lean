import Ditlang.Json.Basic
import Ditlang.Number.Literal

/-!
# Ditlang.Json.Numeral

Numbers in JSON texts. The digits are collected in a significand of 64 bits: a digit of the whole
part that no longer fits counts as a factor of ten, and fraction digits that no longer fit are
dropped. The significand is rounded to a number first and then scaled by a power of ten, so a
long or large decimal can differ in its last bit from the nearest number. A value too large for
a number is refused.
-/

namespace Ditlang
namespace Json

/-- Whether a significand can take one more digit. -/
def significandFits (sig digit : Nat) : Bool :=
  sig * 10 + digit < Number.twoTo 64

def digitValue (c : Char) : Nat :=
  c.toNat - '0'.toNat

/-- Collects the digits of the whole part; also how many no longer fit. -/
def collectWhole : Nat → List Char → Nat × Nat
  | sig, [] => (sig, 0)
  | sig, c :: cs =>
    if significandFits sig (digitValue c) then collectWhole (sig * 10 + digitValue c) cs
    else (sig, cs.length + 1)

/-- Collects the digits of the fraction; also how many were taken. -/
def collectFraction : Nat → List Char → Nat × Nat
  | sig, [] => (sig, 0)
  | sig, c :: cs =>
    if significandFits sig (digitValue c) then
      let (s, n) := collectFraction (sig * 10 + digitValue c) cs
      (s, n + 1)
    else
      (sig, 0)

/-- The number nearest to a power of ten. -/
def powerOfTen (k : Nat) : Number :=
  .ofDecimal false 1 k

/-- Divides by `10 ^ k` in steps of at most `10 ^ 308`; three steps bring every significand to
zero. -/
def divideByPower : Nat → Number → Nat → Number
  | 0, x, _ => x
  | fuel + 1, x, k =>
    if k ≤ 308 then x.divFinite (powerOfTen k)
    else if x.unsignedBits = 0 then x
    else divideByPower fuel (x.divFinite (powerOfTen 308)) (k - 308)

/-- A significand scaled by a power of ten; nothing when the value is too large. -/
def scaled? (sig : Nat) (exponent : Int) : Option Number :=
  let x := Number.ofNat sig
  if exponent < 0 then
    some (divideByPower 4 x (-exponent).toNat)
  else if exponent ≤ 308 then
    let y := x.mulFinite (powerOfTen exponent.toNat)
    if y.isFinite then some y else none
  else if sig = 0 then
    some x
  else
    none

/-- Reads the digits of an exponent, which must start with one. -/
def readExponentDigits? (cs : List Char) : Option (Int × List Char) :=
  let (neg, cs) := Number.spanSign cs
  match Number.spanDigits cs with
  | ([], _) => none
  | (ds, rest) => some (if neg then -(Number.digitsValue ds : Int) else Number.digitsValue ds, rest)

def withSign (neg : Bool) (x : Number) : Number :=
  if neg then x.negate else x

/-- Finishes a number after its significand: an exponent may follow. -/
def readScale? (neg : Bool) (sig : Nat) (exponent : Int) (cs : List Char) :
    Option (Json × List Char) :=
  match cs with
  | c :: more =>
    if c = 'e' || c = 'E' then do
      let (e, rest) ← readExponentDigits? more
      let x ← scaled? sig (exponent + e)
      pure (.real (withSign neg x), rest)
    else do
      let x ← scaled? sig exponent
      pure (.real (withSign neg x), cs)
  | [] => do
    let x ← scaled? sig exponent
    pure (.real (withSign neg x), [])

/-- A number without fraction and exponent: an integer if it fits into 64 bits. -/
def integerOf (neg : Bool) (sig : Nat) : Json :=
  if neg then
    if sig = 0 || Number.twoTo 63 < sig then .real (Number.ofNat sig).negate
    else .int (-(sig : Int))
  else
    .int sig

/-- Reads a number after its sign. -/
def readUnsignedNumeral? (neg : Bool) (cs : List Char) : Option (Json × List Char) :=
  match Number.spanDigits cs with
  | ([], _) => none
  | ('0' :: _ :: _, _) => none
  | (whole, rest) =>
    let (sig, dropped) := collectWhole 0 whole
    match rest with
    | '.' :: more =>
      match Number.spanDigits more with
      | ([], _) => none
      | (fraction, rest) =>
        let (sig, taken) := collectFraction sig fraction
        readScale? neg sig (dropped - taken) rest
    | c :: _ =>
      if c = 'e' || c = 'E' || dropped ≠ 0 then readScale? neg sig dropped rest
      else some (integerOf neg sig, rest)
    | [] =>
      if dropped ≠ 0 then readScale? neg sig dropped rest else some (integerOf neg sig, rest)

def readNumeral? : List Char → Option (Json × List Char)
  | '-' :: cs => readUnsignedNumeral? true cs
  | cs => readUnsignedNumeral? false cs

end Json
end Ditlang
