import Ditlang.Number.Shortest

/-!
# Ditlang.Number.Format

The texts of numbers. Both texts use the fewest digits that read back; they differ in where
positional notation ends, in whether a whole number keeps a fraction, in which of two equally near
decimals they take, and in the texts of the values that are not finite. `Number.display` is what programs see and `Number.jsonText` is what
JSON documents carry.
-/

namespace Ditlang
namespace Number

def digitChars (n : Nat) : List Char :=
  Nat.toDigits 10 n

/-- A decimal without an exponent; `fraction` asks for a fraction after a whole number. -/
def positional (fraction : Bool) (d : Decimal) : List Char :=
  let ds := digitChars d.digits
  if 0 ≤ d.exponent then
    ds ++ List.replicate d.exponent.toNat '0' ++ (if fraction then ['.', '0'] else [])
  else
    let places := (-d.exponent).toNat
    if ds.length ≤ places then
      '0' :: '.' :: List.replicate (places - ds.length) '0' ++ ds
    else
      ds.take (ds.length - places) ++ '.' :: ds.drop (ds.length - places)

/-- The decimal exponent of the leading digit. -/
def Decimal.scale (d : Decimal) : Int :=
  (digitChars d.digits).length - 1 + d.exponent

/-- A decimal with one digit before the point and a signed exponent. -/
def scientific (d : Decimal) : List Char :=
  let point := match digitChars d.digits with
    | [] => []
    | [c] => [c]
    | c :: cs => c :: '.' :: cs
  let e := d.scale
  point ++ 'e' :: (if e < 0 then '-' else '+') :: digitChars e.natAbs

/-- Where a text of numbers leaves positional notation, and how it spells what is not finite. -/
structure Layout where
  /-- Which of two shortest decimals is taken that are equally near. -/
  tie : Tie
  /-- Whether a decimal with this leading exponent is written positionally. -/
  isPositional : Int → Bool
  /-- Whether whole numbers are written with a fraction. -/
  fraction : Bool
  /-- The sign of a zero is written. -/
  signedZero : Bool
  nanText : String
  infinityText : Bool → String

def Layout.write (l : Layout) (x : Number) : String :=
  match x.magnitude with
  | .nan => l.nanText
  | .infinite => l.infinityText x.negative
  | .finite m q =>
    let d : Decimal := if m = 0 then ⟨0, 0⟩ else shortestOf l.tie m q
    let body := if l.isPositional d.scale then positional l.fraction d else scientific d
    let signed := x.negative && (m ≠ 0 || l.signedZero)
    String.ofList (if signed then '-' :: body else body)

/-- Texts shown by programs are always positional, and a whole number has no fraction. Of two
decimals that are equally near the greater one is shown. -/
def displayLayout : Layout where
  tie := .up
  isPositional _ := true
  fraction := false
  signedZero := false
  nanText := "NaN"
  infinityText neg := if neg then "-inf" else "inf"

/-- JSON texts keep a fraction, and leave positional notation below `10⁻⁵` and from `10¹⁶` on.
Of two decimals that are equally near the even one is written. JSON has no text for what is not
finite. -/
def jsonLayout : Layout where
  tie := .toEven
  isPositional e := -5 ≤ e && e < 16
  fraction := true
  signedZero := true
  nanText := "null"
  infinityText _ := "null"

def display (x : Number) : String :=
  displayLayout.write x

def jsonText (x : Number) : String :=
  jsonLayout.write x

end Number
end Ditlang
