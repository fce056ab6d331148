import Ditlang.Text.CharSet

/-!
# Ditlang.Host.Address

The addresses of machines: one number of 32 bits, or eight of 16 bits. They are read in all the
spellings that a URL may use and written in one: four decimal numbers, or hexadecimal numbers with
the longest run of zeros left out.
-/

namespace Ditlang
namespace Host

inductive Address where
  | four (n : Nat)
  | six (pieces : List Nat)
deriving DecidableEq, Repr

namespace Address

/-- The parts of a text between occurrences of a character. -/
def splitAt (sep : Char) : List Char → List (List Char)
  | [] => [[]]
  | c :: cs =>
    if c = sep then [] :: splitAt sep cs
    else
      match splitAt sep cs with
      | part :: rest => (c :: part) :: rest
      | [] => [[c]]

def isHexDigit (c : Char) : Bool :=
  c.isDigit || ('a' ≤ c && c ≤ 'f') || ('A' ≤ c && c ≤ 'F')

/-- The value of a numeral in a base up to sixteen, if all its characters are digits. -/
def numeral? (base : Nat) (cs : List Char) : Option Nat :=
  if cs.all fun c => isHexDigit c && Text.hexDigit c < base then
    some (cs.foldl (fun n c => n * base + Text.hexDigit c) 0)
  else
    none

/-- A number in an address of the first kind: hexadecimal after `0x`, octal after `0`, or
decimal. -/
def number? : List Char → Option Nat
  | [] => none
  | '0' :: x :: rest =>
    if x = 'x' ∨ x = 'X' then numeral? 16 rest else numeral? 8 (x :: rest)
  | cs => numeral? 10 cs

/-- The parts of a host between points; a point at the end does not count. -/
def dottedParts (host : List Char) : List (List Char) :=
  let parts := splitAt '.' host
  if parts.getLast? = some [] ∧ 1 < parts.length then parts.dropLast else parts

/-- Whether a host can only be an address: its last part is a number. -/
def endsInNumber (host : List Char) : Bool :=
  match (dottedParts host).getLast? with
  | none => false
  | some last => (last ≠ [] && last.all Char.isDigit) || (number? last).isSome

/-- How many numbers some bytes can hold. -/
def capacity : Nat → Nat
  | 0 => 1
  | bytes + 1 => 256 * capacity bytes

/-- Puts an address of 32 bits together from at most four numbers. All but the last fill one byte
each, and the last fills the rest. -/
def ofNumbers? (numbers : List Nat) : Option Nat :=
  let bytes := numbers.dropLast
  match numbers.getLast? with
  | none => none
  | some last =>
    let room := 4 - bytes.length
    if 3 < bytes.length ∨ bytes.any (255 < ·) ∨ capacity room ≤ last then none
    else some ((bytes ++ List.replicate room 0).foldl (fun n b => n * 256 + b) 0 + last)

def four? (host : List Char) : Option Address := do
  let numbers ← (dottedParts host).mapM number?
  let n ← ofNumbers? numbers
  pure (.four n)

/-- A decimal byte without leading zeros. -/
def byte? (cs : List Char) : Option Nat := do
  let n ← numeral? 10 cs
  if cs = [] ∨ 255 < n ∨ (1 < cs.length ∧ cs.head? = some '0') then none else pure n

/-- The two pieces that a dotted address of four bytes stands for. -/
def dottedPieces? (cs : List Char) : Option (List Nat) :=
  match (splitAt '.' cs).mapM byte? with
  | some [a, b, c, d] => some [a * 256 + b, c * 256 + d]
  | _ => none

/-- A piece of one to four hexadecimal digits. -/
def piece? (cs : List Char) : Option Nat :=
  if cs = [] ∨ 4 < cs.length then none else numeral? 16 cs

/-- The pieces that stand between colons. The last one may be a dotted address if `dotted`. -/
def pieces? (dotted : Bool) (cs : List Char) : Option (List Nat) :=
  if cs = [] then
    some []
  else do
    let parts := splitAt ':' cs
    let last := parts.getLast?.getD []
    if dotted && last.contains '.' then
      pure ((← parts.dropLast.mapM piece?) ++ (← dottedPieces? last))
    else
      parts.mapM piece?

/-- The texts before and after the first pair of colons. -/
def splitGap : List Char → Option (List Char × List Char)
  | ':' :: ':' :: rest => some ([], rest)
  | c :: rest => (splitGap rest).map fun (before, after) => (c :: before, after)
  | [] => none

/-- Reads an address of eight pieces. A pair of colons stands for as many zeros as are missing, one
at least. -/
def six? (cs : List Char) : Option Address := do
  match splitGap cs with
  | none =>
    let pieces ← pieces? true cs
    if pieces.length = 8 then pure (.six pieces) else none
  | some (before, after) =>
    let left ← pieces? false before
    let right ← pieces? true after
    let missing := 8 - (left.length + right.length)
    if missing = 0 then none else pure (.six (left ++ List.replicate missing 0 ++ right))

/-- The start and the length of the longest run of zeros, the first one of several; `i` is the place
of the first piece. -/
def zeroRun (i : Nat) : List Nat → Nat × Nat
  | [] => (i, 0)
  | p :: rest =>
    let here := ((p :: rest).takeWhile (· = 0)).length
    let (start, length) := zeroRun (i + 1) rest
    if length ≤ here then (i, here) else (start, length)

/-- Pieces in hexadecimal with colons between them. -/
def piecesText (pieces : List Nat) : List Char :=
  (List.intersperse [':'] (pieces.map (Nat.toDigits 16))).flatten

def text : Address → List Char
  | .four n =>
    let bytes := [n / 16777216, n / 65536 % 256, n / 256 % 256, n % 256]
    (List.intersperse ['.'] (bytes.map (Nat.toDigits 10))).flatten
  | .six pieces =>
    let (start, length) := zeroRun 0 pieces
    if length < 2 then '[' :: piecesText pieces ++ [']']
    else
      '[' :: piecesText (pieces.take start) ++ [':', ':']
        ++ piecesText (pieces.drop (start + length)) ++ [']']

end Address
end Host
end Ditlang
