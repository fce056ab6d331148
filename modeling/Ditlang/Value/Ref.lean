/-!
# Ditlang.Value.Ref

References into the store: containers, slots, lists and JSON maps are numbered in the order in
which they were made.
-/

namespace Ditlang

/-- A container: a dit, class, instance, function, Lang, call frame or the prelude. -/
@[ext] structure ContainerId where
  index : Nat
deriving DecidableEq, Repr, Inhabited

/-- A slot, the home of one value. -/
@[ext] structure SlotId where
  index : Nat
deriving DecidableEq, Repr, Inhabited

@[ext] structure ListId where
  index : Nat
deriving DecidableEq, Repr, Inhabited

@[ext] structure MapId where
  index : Nat
deriving DecidableEq, Repr, Inhabited

end Ditlang
