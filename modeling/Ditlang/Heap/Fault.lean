import Ditlang.Diagnostic
import Ditlang.Value.Basic

/-!
# Ditlang.Heap.Fault

What can go wrong in the store, as causes. The wording of each and its kind are given here once.
-/

namespace Ditlang

inductive HeapFault where
  | alreadyDeclared (name : String)
  | mismatch (m : Mismatch)
  | selfContaining
  | cannotContain (elem actual : String)
  | noAttribute (name ownerType owner : String)
  | noClassAttribute (name cls : String)
  | noInstanceAttribute (name cls : String)
  | classless (inst : String)
  | memberOfNull (name : String)
  | memberless (typeName name : String)
  | ambiguous (name cls : String) (owners : List String)
  | extendsNonClass (cls : String)
  | recursiveExtension (cls : String)
  | alreadyExtends (cls parent : String)
  | missingProp (lang prop : String)
deriving DecidableEq, Repr

namespace HeapFault

def quoted (name : String) : String :=
  "'" ++ name ++ "'"

def message : HeapFault → String
  | .alreadyDeclared name => quoted name ++ " has already been declared"
  | .mismatch m => m.message
  | .selfContaining => "A list cannot contain itself"
  | .cannotContain elem actual =>
    "List of type " ++ quoted elem ++ " cannot contain " ++ quoted actual
  | .noAttribute name ownerType owner =>
    quoted name ++ " is not an attribute of " ++ ownerType ++ " " ++ quoted owner
  | .noClassAttribute name cls => quoted name ++ " is not an attribute of class " ++ quoted cls
  | .noInstanceAttribute name cls =>
    quoted name ++ " is not an attribute of " ++ quoted cls ++ " instance"
  | .classless inst => "Instance " ++ quoted inst ++ " has no class"
  | .memberOfNull name => "Cannot read " ++ quoted name ++ " of null"
  | .memberless typeName name =>
    quoted typeName ++ " values have no attributes, tried to read " ++ quoted name
  | .ambiguous name cls owners =>
    quoted name ++ " is ambiguous in class " ++ quoted cls ++ ", qualify it as "
      ++ " or ".intercalate (owners.map fun owner => owner ++ "." ++ name)
  | .extendsNonClass cls => "Class " ++ quoted cls ++ " can only extend classes"
  | .recursiveExtension cls => "Illegal recursive extension in class " ++ quoted cls
  | .alreadyExtends cls parent => "Class " ++ quoted cls ++ " already extends " ++ quoted parent
  | .missingProp lang prop =>
    "Lang " ++ quoted lang ++ " is missing required property " ++ quoted prop

def kind : HeapFault → FaultKind
  | .mismatch _ | .selfContaining | .cannotContain _ _ => .typeMismatch
  | .classless _ => .critical
  | .missingProp _ _ => .missingProp
  | _ => .malformed

def diagnostic (f : HeapFault) : Diagnostic :=
  { kind := f.kind, message := f.message }

end HeapFault
end Ditlang
