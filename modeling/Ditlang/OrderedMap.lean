/-!
# Ditlang.OrderedMap

Maps from texts that remember the order in which their keys were first inserted. Inserting under
a key that is there replaces the value and keeps the place.
-/

namespace Ditlang

/-- A map from texts, in the order of first insertion. -/
structure OrderedMap (α : Type) where
  entries : List (String × α)
deriving Repr, Inhabited

namespace OrderedMap

variable {α : Type}

def empty : OrderedMap α := ⟨[]⟩

def get? (m : OrderedMap α) (key : String) : Option α :=
  m.entries.lookup key

def contains (m : OrderedMap α) (key : String) : Bool :=
  (m.get? key).isSome

def keys (m : OrderedMap α) : List String :=
  m.entries.map Prod.fst

def size (m : OrderedMap α) : Nat :=
  m.entries.length

/-- Replaces the value under a key in a list of entries, or adds the entry at the end. -/
def insertInto (key : String) (value : α) : List (String × α) → List (String × α)
  | [] => [(key, value)]
  | (k, v) :: rest =>
    if k = key then (k, value) :: rest else (k, v) :: insertInto key value rest

def insert (m : OrderedMap α) (key : String) (value : α) : OrderedMap α :=
  ⟨insertInto key value m.entries⟩

/-- The map with these entries, later ones winning. -/
def ofList (entries : List (String × α)) : OrderedMap α :=
  entries.foldl (fun m (k, v) => m.insert k v) empty

theorem lookup_insertInto (key key' : String) (value : α) (es : List (String × α)) :
    (insertInto key value es).lookup key' =
      if key' = key then some value else es.lookup key' := by
  induction es with
  | nil =>
    by_cases h : key' = key
    · simp [insertInto, h]
    · simp [insertInto, List.lookup_cons, h, beq_eq_false_iff_ne.2 h]
  | cons e es ih =>
    obtain ⟨k, v⟩ := e
    by_cases hk : k = key
    · subst hk
      by_cases h : key' = k
      · simp [insertInto, h]
      · simp [insertInto, List.lookup_cons, h, beq_eq_false_iff_ne.2 h]
    · by_cases h : key' = k
      · subst h
        simp [insertInto, hk]
      · simp [insertInto, List.lookup_cons, hk, beq_eq_false_iff_ne.2 h, ih]

@[simp] theorem get?_insert (m : OrderedMap α) (key key' : String) (value : α) :
    (m.insert key value).get? key' = if key' = key then some value else m.get? key' :=
  lookup_insertInto key key' value m.entries

theorem map_fst_insertInto (key : String) (value : α) (es : List (String × α)) :
    (insertInto key value es).map Prod.fst =
      if key ∈ es.map Prod.fst then es.map Prod.fst else es.map Prod.fst ++ [key] := by
  induction es with
  | nil => rfl
  | cons e es ih =>
    obtain ⟨k, v⟩ := e
    by_cases hk : k = key
    · simp [insertInto, hk]
    · have hne : ¬ key = k := fun h => hk h.symm
      simp only [insertInto, hk, if_false, List.map_cons, ih, List.mem_cons, hne, false_or]
      by_cases hmem : key ∈ es.map Prod.fst
      · rw [if_pos hmem, if_pos hmem]
      · rw [if_neg hmem, if_neg hmem, List.cons_append]

/-- A key that is there keeps its place, and a new one comes last. -/
theorem keys_insert (m : OrderedMap α) (key : String) (value : α) :
    (m.insert key value).keys = if key ∈ m.keys then m.keys else m.keys ++ [key] :=
  map_fst_insertInto key value m.entries

@[simp] theorem get?_empty (key : String) : (empty : OrderedMap α).get? key = none := rfl

end OrderedMap
end Ditlang
