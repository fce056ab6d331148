/-!
# Ditlang.Text.CharSet

Sets of characters, given by ranges of their numbers, and tables that note numbers for characters. A
set is written as rows of hexadecimal numbers and ranges of them with a blank between. A table is
written as rows of words: a range, a step after a slash unless every character of the range is meant,
and after a colon the numbers, with points between them.
-/

namespace Ditlang
namespace Text

/-- The value of a hexadecimal digit; zero for any other character. -/
def hexDigit (c : Char) : Nat :=
  if '0' ≤ c ∧ c ≤ '9' then c.toNat - 48
  else if 'A' ≤ c ∧ c ≤ 'F' then c.toNat - 55
  else if 'a' ≤ c ∧ c ≤ 'f' then c.toNat - 87
  else 0

/-- The value of a hexadecimal numeral. -/
def hexNumber (numeral : String) : Nat :=
  numeral.toList.foldl (fun n c => n * 16 + hexDigit c) 0

/-- A set of characters: the first and the last number of each range. -/
structure CharSet where
  ranges : List (Nat × Nat)
deriving DecidableEq, Repr

namespace CharSet

def hasNumber (s : CharSet) (n : Nat) : Bool :=
  s.ranges.any fun (first, last) => first ≤ n && n ≤ last

def contains (s : CharSet) (c : Char) : Bool :=
  s.hasNumber c.toNat

/-- The range that a word stands for. -/
def rangeOf (word : String) : Nat × Nat :=
  match word.splitOn "-" with
  | [first, last] => (hexNumber first, hexNumber last)
  | _ => (hexNumber word, hexNumber word)

def ofRows (rows : List String) : CharSet :=
  ⟨rows.flatMap fun row => (row.splitOn " ").map rangeOf⟩

end CharSet

/-- What a table notes for the characters of a range, or for every `step`th of them. -/
structure CharTable.Row where
  first : Nat
  last : Nat
  step : Nat
  values : List Nat
deriving DecidableEq, Repr

/-- A table that notes numbers for characters. -/
structure CharTable where
  rows : List CharTable.Row
deriving DecidableEq, Repr

namespace CharTable

def Row.covers (r : Row) (n : Nat) : Bool :=
  r.first ≤ n && n ≤ r.last && (n - r.first) % r.step == 0

def row? (t : CharTable) (c : Char) : Option Row :=
  t.rows.find? (·.covers c.toNat)

/-- The row that a word stands for. -/
def rowOf (word : String) : Row :=
  let (subject, values) := match word.splitOn ":" with
    | [subject, values] => (subject, (values.splitOn ".").map hexNumber)
    | _ => (word, [])
  let (range, step) := match subject.splitOn "/" with
    | [range, step] => (range, hexNumber step)
    | _ => (subject, 1)
  let (first, last) := CharSet.rangeOf range
  { first, last, step, values }

def ofRows (rows : List String) : CharTable :=
  ⟨rows.flatMap fun row => (row.splitOn " ").map rowOf⟩

end CharTable
end Text
end Ditlang
