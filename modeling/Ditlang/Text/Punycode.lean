/-!
# Ditlang.Text.Punycode

Texts in the letters, digits and hyphens that the names of hosts allow. The ASCII characters come
first; what is missing is inserted in the order of character numbers, and each insertion is written
as its distance from the one before, in digits of base 36 whose weights adapt to the distances seen.
-/

namespace Ditlang
namespace Text
namespace Punycode

def digit (n : Nat) : Char :=
  if n < 26 then Char.ofNat (97 + n) else Char.ofNat (22 + n)

def digitValue? (c : Char) : Option Nat :=
  if 'a' ≤ c ∧ c ≤ 'z' then some (c.toNat - 97)
  else if 'A' ≤ c ∧ c ≤ 'Z' then some (c.toNat - 65)
  else if '0' ≤ c ∧ c ≤ '9' then some (c.toNat - 22)
  else none

/-- The value below which the digit with weight index `k` ends a number. -/
def threshold (bias k : Nat) : Nat :=
  if k ≤ bias then 1 else if bias + 26 ≤ k then 26 else k - bias

theorem threshold_pos (bias k : Nat) : 1 ≤ threshold bias k := by
  unfold threshold
  split
  · exact Nat.le_refl 1
  · split <;> omega

/-- Scales a distance down, and counts the digits that took. -/
def scale (k delta : Nat) : Nat :=
  if 455 < delta then scale (k + 36) (delta / 35) else k + 36 * delta / (delta + 38)
termination_by delta
decreasing_by omega

/-- The bias after a distance was written for the `count`th character. -/
def adapt (first : Bool) (delta count : Nat) : Nat :=
  let delta := if first then delta / 700 else delta / 2
  scale 0 (delta + delta / count)

def writeNumber (bias k n : Nat) : List Char :=
  let t := threshold bias k
  if n < t then [digit n]
  else digit (t + (n - t) % (36 - t)) :: writeNumber bias (k + 36) ((n - t) / (36 - t))
termination_by n
decreasing_by
  have ht := threshold_pos bias k
  exact Nat.lt_of_le_of_lt (Nat.div_le_self _ _) (by omega)

/-- What has been written, and where the next distance is counted from. -/
structure Writing where
  out : List Char
  delta : Nat
  bias : Nat
  /-- How many characters of the text are written. -/
  count : Nat
deriving DecidableEq, Repr

/-- Passes one character of the text while those with number `m` are being inserted; `plain`
characters did not have to be. -/
def Writing.pass (plain m : Nat) (w : Writing) (c : Char) : Writing :=
  if c.toNat < m then { w with delta := w.delta + 1 }
  else if c.toNat = m then
    { out := w.out ++ writeNumber w.bias 36 w.delta
      delta := 0
      bias := adapt (w.count == plain) w.delta (w.count + 1)
      count := w.count + 1 }
  else w

/-- Inserts the characters with the given numbers, which are in increasing order and not below
`n`. -/
def insertAll (text : List Char) (plain n : Nat) (w : Writing) : List Nat → Writing
  | [] => w
  | m :: rest =>
    let w := { w with delta := w.delta + (m - n) * (w.count + 1) }
    let w := text.foldl (Writing.pass plain m) w
    insertAll text plain (m + 1) { w with delta := w.delta + 1 } rest

def encode (text : List Char) : List Char :=
  let plain := text.filter (·.toNat < 128)
  let others := ((text.filter (128 ≤ ·.toNat)).map Char.toNat).mergeSort.eraseDups
  let w := insertAll text plain.length 128 ⟨[], 0, 72, plain.length⟩ others
  (if plain.isEmpty then [] else plain ++ ['-']) ++ w.out

/-- Reads a distance and adds it to `i`; `weight` is that of the next digit. -/
def readNumber (bias : Nat) : List Char → Nat → Nat → Nat → Option (Nat × List Char)
  | [], _, _, _ => none
  | c :: rest, k, weight, i => do
    let d ← digitValue? c
    let t := threshold bias k
    if d < t then pure (i + d * weight, rest)
    else readNumber bias rest (k + 36) (weight * (36 - t)) (i + d * weight)

/-- Reads insertions into `text` while there are digits left; at most `fuel` of them. -/
def insertRead : Nat → List Char → List Char → Nat → Nat → Nat → Option (List Char)
  | _, [], text, _, _, _ => some text
  | 0, _ :: _, _, _, _, _ => none
  | fuel + 1, digits, text, n, i, bias => do
    let (j, rest) ← readNumber bias digits 36 1 i
    let count := text.length + 1
    let n := n + j / count
    if n < 0xD800 ∨ (0xDFFF < n ∧ n < 0x110000) then
      insertRead fuel rest (text.insertIdx (j % count) (Char.ofNat n)) n (j % count + 1)
        (adapt (i == 0) (j - i) count)
    else
      none

/-- Reads a text. The last hyphen ends the ASCII characters, so it does not come first. Each
insertion takes a digit, so there are no more of them than characters. -/
def decode? (cs : List Char) : Option (List Char) :=
  let digits := (cs.reverse.takeWhile (· ≠ '-')).reverse
  if digits.length + 1 = cs.length then none
  else insertRead cs.length digits (cs.take (cs.length - digits.length)).dropLast 128 0 72

end Punycode
end Text
end Ditlang
