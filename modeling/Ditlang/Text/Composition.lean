import Ditlang.Text.Composition.Table

/-!
# Ditlang.Text.Composition

The composed form of a text: characters that stand for a base and a mark are taken apart, marks are
brought into the order of their classes, and every base is put together with the marks that it can
take. Syllables of Hangul are taken apart and put together by calculation.
-/

namespace Ditlang
namespace Text
namespace Composition

/-- The combining class of a character; zero for all that are not marks. -/
def combiningClass (c : Char) : Nat :=
  match combiningClasses.row? c with
  | some { values := [n], .. } => n
  | _ => 0

/-- The two or three parts of a syllable of Hangul. -/
def syllableParts? (c : Char) : Option (List Char) :=
  let n := c.toNat
  if 0xAC00 ≤ n ∧ n ≤ 0xD7A3 then
    let i := n - 0xAC00
    let pair := [Char.ofNat (0x1100 + i / 588), Char.ofNat (0x1161 + i % 588 / 28)]
    some (if i % 28 = 0 then pair else pair ++ [Char.ofNat (0x11A7 + i % 28)])
  else
    none

/-- The syllable that a consonant and a vowel, or a syllable and a final consonant, make. -/
def syllable? (a b : Char) : Option Char :=
  let m := a.toNat
  let n := b.toNat
  if 0x1100 ≤ m ∧ m ≤ 0x1112 ∧ 0x1161 ≤ n ∧ n ≤ 0x1175 then
    some (Char.ofNat (0xAC00 + ((m - 0x1100) * 21 + (n - 0x1161)) * 28))
  else if 0xAC00 ≤ m ∧ m ≤ 0xD7A3 ∧ (m - 0xAC00) % 28 = 0 ∧ 0x11A8 ≤ n ∧ n ≤ 0x11C2 then
    some (Char.ofNat (m + (n - 0x11A7)))
  else
    none

/-- Takes a character apart, at most `n` times. -/
def decompose : Nat → Char → List Char
  | 0, c => [c]
  | n + 1, c =>
    match syllableParts? c with
    | some parts => parts
    | none =>
      match composites.row? c with
      | some { values := [a, b], .. } => decompose n (Char.ofNat a) ++ [Char.ofNat b]
      | _ => [c]

/-- Adds a character to a text in reverse order: a mark goes before the marks of higher class that
end the text. -/
def addOrdered : List Char → Char → List Char
  | [], c => [c]
  | d :: rest, c =>
    let k := combiningClass c
    if k ≠ 0 ∧ k < combiningClass d then d :: addOrdered rest c else c :: d :: rest

/-- The character that two characters compose to. -/
def compose? (a b : Char) : Option Char :=
  match syllable? a b with
  | some c => some c
  | none =>
    (composites.rows.find? fun r => r.values == [a.toNat, b.toNat]).map fun r => Char.ofNat r.first

/-- Puts a text together. `base` is the last character that is no mark, `between` holds what follows
it, last one first, and `done` what stands before it. A character meets the base unless something
of its own or a higher class stands between them. -/
def composeFrom (done : List Char) (base : Char) (between : List Char) : List Char → List Char
  | [] => done.reverse ++ base :: between.reverse
  | c :: rest =>
    let k := combiningClass c
    let meets := match between with
      | [] => true
      | d :: _ => combiningClass d < k
    match if meets then compose? base c else none with
    | some new => composeFrom done new between rest
    | none =>
      if k = 0 then composeFrom (between ++ base :: done) c [] rest
      else composeFrom done base (c :: between) rest

/-- Puts a text together whose marks are in order. -/
def compose : List Char → List Char
  | [] => []
  | c :: rest => composeFrom [] c [] rest

end Composition

/-- The composed form of a text. Composed characters are nested less than eight deep. -/
def composed (cs : List Char) : List Char :=
  let parts := cs.flatMap (Composition.decompose 8)
  Composition.compose (parts.foldl Composition.addOrdered []).reverse

end Text
end Ditlang
