import Ditlang.Number.Rounding

/-!
# Ditlang.Json

JSON documents. A number that was read without fraction and exponent stays an integer; the fields
of an object are in the order of their keys, each key once.
-/

namespace Ditlang

inductive Json where
  | null
  | bool (b : Bool)
  | int (n : Int)
  | real (x : Number)
  | str (s : String)
  | arr (items : List Json)
  | obj (fields : List (String × Json))
deriving Inhabited, Repr

namespace Json

/-- Puts a field where the order of keys wants it; a field with the same key is replaced. -/
def insertField (key : String) (value : Json) : List (String × Json) → List (String × Json)
  | [] => [(key, value)]
  | (k, v) :: rest =>
    if key < k then (key, value) :: (k, v) :: rest
    else if key = k then (key, value) :: rest
    else (k, v) :: insertField key value rest

/-- The object with these fields: sorted by key, and of two fields with one key the later. -/
def object (fields : List (String × Json)) : Json :=
  .obj (fields.foldl (fun acc (k, v) => insertField k v acc) [])

def field? (key : String) : Json → Option Json
  | .obj fields => fields.lookup key
  | _ => none

def text? : Json → Option String
  | .str s => some s
  | _ => none

end Json
end Ditlang
