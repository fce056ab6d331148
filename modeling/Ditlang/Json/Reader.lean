import Ditlang.Json.Numeral

/-!
# Ditlang.Json.Reader

Reading JSON texts. The reader accepts strict JSON only, and arrays and objects nested at most
127 levels deep. Fuel bounds the number of steps; twice the length of the text always suffices.
-/

namespace Ditlang
namespace Json

def isJsonBlank (c : Char) : Bool :=
  c = ' ' || c = '\t' || c = '\n' || c = '\r'

def skipBlank (cs : List Char) : List Char :=
  cs.dropWhile isJsonBlank

def hexValue? (c : Char) : Option Nat :=
  if '0' ≤ c ∧ c ≤ '9' then some (c.toNat - 48)
  else if 'a' ≤ c ∧ c ≤ 'f' then some (c.toNat - 87)
  else if 'A' ≤ c ∧ c ≤ 'F' then some (c.toNat - 55)
  else none

def readHex4? : List Char → Option (Nat × List Char)
  | a :: b :: c :: d :: rest => do
    let a ← hexValue? a
    let b ← hexValue? b
    let c ← hexValue? c
    let d ← hexValue? d
    pure (((a * 16 + b) * 16 + c) * 16 + d, rest)
  | _ => none

/-- Reads what follows `\u`: a code unit, or a surrogate pair with a second escape. A surrogate
alone is refused. -/
def readUnicodeEscape? (cs : List Char) : Option (Char × List Char) := do
  let (unit, rest) ← readHex4? cs
  if 0xDC00 ≤ unit ∧ unit < 0xE000 then
    none
  else if 0xD800 ≤ unit ∧ unit < 0xDC00 then
    match rest with
    | '\\' :: 'u' :: more =>
      let (low, rest) ← readHex4? more
      if 0xDC00 ≤ low ∧ low < 0xE000 then
        pure (Char.ofNat (0x10000 + (unit - 0xD800) * 0x400 + (low - 0xDC00)), rest)
      else
        none
    | _ => none
  else
    pure (Char.ofNat unit, rest)

/-- Reads what follows a backslash inside a string. -/
def readEscape? : List Char → Option (Char × List Char)
  | '"' :: rest => some ('"', rest)
  | '\\' :: rest => some ('\\', rest)
  | '/' :: rest => some ('/', rest)
  | 'b' :: rest => some (Char.ofNat 8, rest)
  | 'f' :: rest => some (Char.ofNat 12, rest)
  | 'n' :: rest => some ('\n', rest)
  | 'r' :: rest => some ('\r', rest)
  | 't' :: rest => some ('\t', rest)
  | 'u' :: rest => readUnicodeEscape? rest
  | _ => none

/-- Reads a string after its opening quote; `acc` holds the characters read, last one first. -/
def readString? : Nat → List Char → List Char → Option (String × List Char)
  | 0, _, _ => none
  | _ + 1, _, [] => none
  | fuel + 1, acc, c :: cs =>
    if c = '"' then some (String.ofList acc.reverse, cs)
    else if c = '\\' then
      match readEscape? cs with
      | some (d, rest) => readString? fuel (d :: acc) rest
      | none => none
    else if c.toNat < 32 then none
    else readString? fuel (c :: acc) cs

/-- Reads a fixed word. -/
def expect? (word : List Char) (value : Json) (cs : List Char) : Option (Json × List Char) :=
  if word.isPrefixOf cs then some (value, cs.drop word.length) else none

mutual

/-- Reads a document with at most `depth` levels of arrays and objects. -/
def readValue? : Nat → Nat → List Char → Option (Json × List Char)
  | 0, _, _ => none
  | fuel + 1, depth, cs =>
    match skipBlank cs with
    | 'n' :: rest => expect? "ull".toList .null rest
    | 't' :: rest => expect? "rue".toList (.bool true) rest
    | 'f' :: rest => expect? "alse".toList (.bool false) rest
    | '"' :: rest => (readString? (rest.length + 1) [] rest).map fun (s, rest) => (.str s, rest)
    | '[' :: rest =>
      match depth with
      | 0 => none
      | depth + 1 =>
        match skipBlank rest with
        | ']' :: rest => some (.arr [], rest)
        | _ => (readItems? fuel depth rest).map fun (items, rest) => (.arr items, rest)
    | '\x7b' :: rest =>
      match depth with
      | 0 => none
      | depth + 1 =>
        match skipBlank rest with
        | '\x7d' :: rest => some (.obj [], rest)
        | _ => (readFields? fuel depth rest).map fun (fields, rest) => (object fields, rest)
    | rest => readNumeral? rest

/-- Reads the items of an array up to its bracket, at least one. -/
def readItems? : Nat → Nat → List Char → Option (List Json × List Char)
  | 0, _, _ => none
  | fuel + 1, depth, cs => do
    let (item, rest) ← readValue? fuel depth cs
    match skipBlank rest with
    | ',' :: rest =>
      let (items, rest) ← readItems? fuel depth rest
      pure (item :: items, rest)
    | ']' :: rest => pure ([item], rest)
    | _ => none

/-- Reads the fields of an object up to its brace, at least one. -/
def readFields? : Nat → Nat → List Char → Option (List (String × Json) × List Char)
  | 0, _, _ => none
  | fuel + 1, depth, cs =>
    match skipBlank cs with
    | '"' :: rest => do
      let (key, rest) ← readString? (rest.length + 1) [] rest
      match skipBlank rest with
      | ':' :: rest =>
        let (value, rest) ← readValue? fuel depth rest
        match skipBlank rest with
        | ',' :: rest =>
          let (fields, rest) ← readFields? fuel depth rest
          pure ((key, value) :: fields, rest)
        | '\x7d' :: rest => pure ([(key, value)], rest)
        | _ => none
      | _ => none
    | _ => none

end

/-- How many levels of arrays and objects a text may have. -/
def maxDepth : Nat := 127

/-- Reads a whole text as one document. -/
def read? (text : String) : Option Json := do
  let cs := text.toList
  let (value, rest) ← readValue? (2 * cs.length + 2) maxDepth cs
  if skipBlank rest = [] then some value else none

/-- Reads a whole text as one object, and gives its fields as they stand there: in order, and each as
often as it is repeated. -/
def readObject? (text : String) : Option (List (String × Json)) :=
  let cs := text.toList
  let fields := match skipBlank cs with
    | '\x7b' :: inner =>
      match skipBlank inner with
      | '\x7d' :: rest => some ([], rest)
      | _ => readFields? (2 * cs.length + 1) (maxDepth - 1) inner
    | _ => none
  fields.bind fun (fields, rest) => if skipBlank rest = [] then some fields else none

end Json
end Ditlang
