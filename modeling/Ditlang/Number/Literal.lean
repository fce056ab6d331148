import Ditlang.Number.Rounding

/-!
# Ditlang.Number.Literal

Reading a number from a text: an optional sign, then `inf`, `infinity` or `nan` in any case, or
digits with an optional point and an optional exponent. At least one digit stands before the
exponent and at least one in it. The value is the number nearest to the decimal.
-/

namespace Ditlang
namespace Number

def digitsValue (cs : List Char) : Nat :=
  cs.foldl (fun n c => n * 10 + (c.toNat - '0'.toNat)) 0

/-- Splits off the digits a text starts with. -/
def spanDigits (cs : List Char) : List Char × List Char :=
  (cs.takeWhile Char.isDigit, cs.dropWhile Char.isDigit)

/-- Splits off a sign; true stands for a minus. -/
def spanSign : List Char → Bool × List Char
  | '-' :: cs => (true, cs)
  | '+' :: cs => (false, cs)
  | cs => (false, cs)

/-- Reads an exponent, which must reach to the end of the text; nothing counts as zero. -/
def readExponent? : List Char → Option Int
  | [] => some 0
  | c :: cs =>
    if c = 'e' || c = 'E' then
      let (neg, rest) := spanSign cs
      if rest ≠ [] && rest.all Char.isDigit then
        some (if neg then -(digitsValue rest : Int) else digitsValue rest)
      else
        none
    else
      none

/-- Reads digits, a fraction and an exponent to the end of the text. -/
def readUnsigned? (neg : Bool) (cs : List Char) : Option Number :=
  let (whole, rest) := spanDigits cs
  let (fraction, rest) := match rest with
    | '.' :: more => spanDigits more
    | _ => ([], rest)
  if whole = [] ∧ fraction = [] then
    none
  else
    (readExponent? rest).map fun e =>
      ofDecimal neg (digitsValue (whole ++ fraction)) (e - fraction.length)

/-- Reads a whole text as a number. -/
def read? (s : String) : Option Number :=
  let (neg, cs) := spanSign s.toList
  let word := String.ofList (cs.map Char.toLower)
  if word = "inf" || word = "infinity" then some (infinity neg)
  else if word = "nan" then some nan
  else readUnsigned? neg cs

end Number
end Ditlang
