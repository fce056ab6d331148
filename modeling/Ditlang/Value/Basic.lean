import Ditlang.Number.Basic
import Ditlang.Token.Kind
import Ditlang.Value.Ref

/-!
# Ditlang.Value

Values and types. Lists and JSON maps are shared, so a value refers to them; classes, instances,
functions, dits and Langs are containers. A declared type is an element type or a list of it.
-/

namespace Ditlang

inductive Value where
  | null
  | str (s : String)
  | bool (b : Bool)
  | num (x : Number)
  | listRef (l : ListId)
  | jsonRef (m : MapId)
  | classRef (c : ContainerId)
  | instanceRef (c : ContainerId)
  | funcRef (c : ContainerId)
  | ditRef (c : ContainerId)
  | langRef (c : ContainerId)
deriving DecidableEq, Repr, Inhabited

/-- The type of a scalar or of the elements of a list. -/
inductive TypeSpec where
  | thing | str | bool | num | json | cls | inst | func | dit | lang
  /-- The instances of a class and of its subclasses. -/
  | of (c : ContainerId)
deriving DecidableEq, Repr, Inhabited

/-- The type with which a slot, a parameter or a result is declared. -/
structure Declared where
  ty : TypeSpec
  list : Bool
deriving DecidableEq, Repr, Inhabited

namespace Value

def isNull : Value → Bool
  | .null => true
  | _ => false

def container? : Value → Option ContainerId
  | .classRef c | .instanceRef c | .funcRef c | .ditRef c | .langRef c => some c
  | _ => none

/-- The kind of a value; null has none. -/
def kind? : Value → Option ValueKind
  | .null => none
  | .str _ => some .str
  | .bool _ => some .bool
  | .num _ => some .num
  | .listRef _ => some .list
  | .jsonRef _ => some .json
  | .classRef _ => some .cls
  | .instanceRef _ => some .inst
  | .funcRef _ => some .func
  | .ditRef _ => some .dit
  | .langRef _ => some .lang

/-- The name of the variant of a value. -/
def typeName : Value → String
  | .null => "null"
  | .str _ => "Str"
  | .bool _ => "Bool"
  | .num _ => "Num"
  | .listRef _ => "List"
  | .jsonRef _ => "JSON"
  | .classRef _ => "Class"
  | .instanceRef _ => "Instance"
  | .funcRef _ => "Func"
  | .ditRef _ => "Dit"
  | .langRef _ => "Lang"

end Value

namespace TypeSpec

def ofPrimitive : Primitive → TypeSpec
  | .thing => .thing
  | .str => .str
  | .bool => .bool
  | .num => .num
  | .json => .json
  | .cls => .cls
  | .inst => .inst
  | .func => .func
  | .dit => .dit
  | .lang => .lang

def valueKind : TypeSpec → ValueKind
  | .thing => .thing
  | .str => .str
  | .bool => .bool
  | .num => .num
  | .json => .json
  | .cls => .cls
  | .inst | .of _ => .inst
  | .func => .func
  | .dit => .dit
  | .lang => .lang

end TypeSpec

namespace Declared

def scalar (ty : TypeSpec) : Declared := ⟨ty, false⟩

def listOf (ty : TypeSpec) : Declared := ⟨ty, true⟩

/-- A slot for a single `Thing` takes every value. -/
def isGeneric (d : Declared) : Bool :=
  d.ty == .thing && !d.list

end Declared

/-- Why a value does not fit a declared type. The types are named already. -/
inductive Mismatch where
  | value (expected actual : String)
  | element (expected actual : String)
deriving DecidableEq, Repr

namespace Mismatch

def expected : Mismatch → String
  | .value e _ | .element e _ => e

def actual : Mismatch → String
  | .value _ a | .element _ a => a

def message : Mismatch → String
  | .value e a => "Cannot assign " ++ a ++ " to " ++ e
  | .element e a => "List of type '" ++ e ++ "' contained '" ++ a ++ "'"

end Mismatch
end Ditlang
