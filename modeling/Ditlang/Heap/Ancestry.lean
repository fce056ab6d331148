import Ditlang.Heap.Basic

/-!
# Ditlang.Heap.Ancestry

Ancestries of classes. An ancestry is put together from those of the parents, from left to right:
the class itself comes first, each ancestor is listed once, and an attribute the class owns hides
every ancestor's attribute of that name. A walk with a list of the classes to look at computes the
ancestries of the parents first. Ancestries that were computed are kept until the class graph
changes. Only classes change it: what is kept of another container can be out of date.
-/

namespace Ditlang

/-- Appends what is not yet in a list. -/
def addNew {α : Type} [BEq α] (xs : List α) (x : α) : List α :=
  if xs.contains x then xs else xs ++ [x]

/-- Appends the elements of a second list that are new, in order. -/
def union {α : Type} [BEq α] (xs ys : List α) : List α :=
  ys.foldl addNew xs

theorem mem_addNew {α : Type} [BEq α] [LawfulBEq α] {xs : List α} {x y : α} :
    y ∈ addNew xs x ↔ y ∈ xs ∨ y = x := by
  unfold addNew
  split
  · rename_i h
    constructor
    · exact Or.inl
    · rintro (hy | rfl)
      · exact hy
      · exact List.contains_iff_mem.1 h
  · simp

theorem mem_union {α : Type} [BEq α] [LawfulBEq α] {xs ys : List α} {y : α} :
    y ∈ union xs ys ↔ y ∈ xs ∨ y ∈ ys := by
  unfold union
  induction ys generalizing xs with
  | nil => simp
  | cons z ys ih => rw [List.foldl_cons, ih, mem_addNew, List.mem_cons, or_assoc]

theorem nodup_addNew {α : Type} [BEq α] [LawfulBEq α] {xs : List α} (x : α) (h : xs.Nodup) :
    (addNew xs x).Nodup := by
  unfold addNew
  split
  · exact h
  · rename_i hx
    refine List.nodup_append.2 ⟨h, by simp, ?_⟩
    intro a ha b hb hab
    rw [List.mem_singleton] at hb
    subst hb hab
    exact hx (List.contains_iff_mem.2 ha)

/-- What is put together without repetition stays so. -/
theorem nodup_union {α : Type} [BEq α] [LawfulBEq α] {xs : List α} (ys : List α) (h : xs.Nodup) :
    (union xs ys).Nodup := by
  unfold union
  induction ys generalizing xs with
  | nil => exact h
  | cons z ys ih => exact ih (nodup_addNew z h)

namespace Ancestry

def addDefiners (table : OrderedMap (List ContainerId)) (name : String) (defs : List ContainerId) :
    OrderedMap (List ContainerId) :=
  table.insert name (union ((table.get? name).getD []) defs)

/-- The ancestry of a class with the given own names, before its parents are taken into account. -/
def own (c : ContainerId) (names : List String) : Ancestry :=
  { order := [c], definers := .ofList (names.map fun name => (name, [c])) }

/-- Adds the ancestry of one more parent; names in `hidden` stay as they are. -/
def inherit (hidden : String → Bool) (a parent : Ancestry) : Ancestry :=
  { order := union a.order parent.order
    definers := parent.definers.entries.foldl
      (fun table (name, defs) => if hidden name then table else addDefiners table name defs)
      a.definers }

end Ancestry

namespace Heap

/-- The ancestry of a class from those of its parents. -/
def combineAncestry (h : Heap) (c : ContainerId) (parents : List Ancestry) : Ancestry :=
  let attrs := (h.container c).attrs
  parents.foldl (Ancestry.inherit attrs.contains) (.own c attrs.keys)

/-- The walk with which ancestries are computed. -/
structure Walk where
  /-- The classes to look at, the next one first. A class is marked when its parents were put before
  it. -/
  stack : List (ContainerId × Bool)
  /-- The classes whose parents were put on the list. -/
  opened : List ContainerId := []
  /-- The ancestries that are known. -/
  memo : List (ContainerId × Ancestry)

namespace Walk

/-- Looks at the next class. The first time its unknown parents are put before it, so that they are
known when it is looked at again. -/
def step (h : Heap) (w : Walk) : Walk :=
  match w.stack with
  | [] => w
  | (c, marked) :: rest =>
    if (w.memo.lookup c).isSome then
      { w with stack := rest }
    else if marked then
      let a := h.combineAncestry c ((h.parents c).filterMap fun p => w.memo.lookup p)
      { w with stack := rest, memo := (c, a) :: w.memo }
    else if w.opened.contains c then
      -- only a cycle leads back to a class that waits for its parents
      { w with stack := rest }
    else
      let unknown := (h.parents c).filter fun p => (w.memo.lookup p).isNone
      { w with stack := unknown.map (·, false) ++ (c, true) :: rest, opened := c :: w.opened }

def run (h : Heap) : Nat → Walk → Walk
  | 0, w => w
  | n + 1, w => run h n (w.step h)

end Walk

/-- No walk takes more looks: every container puts itself and its parents on the list once. -/
def walkBound (h : Heap) : Nat :=
  ((List.range h.containers.size).map fun i => (h.parents ⟨i⟩).length + 1).foldr (· + ·) 0 + 2

/-- The ancestries that are known when that of a class is. -/
def walkMemo (h : Heap) (c : ContainerId) : List (ContainerId × Ancestry) :=
  (Walk.run h h.walkBound { stack := [(c, false)], memo := h.memo }).memo

def ancestry (h : Heap) (c : ContainerId) : Ancestry :=
  ((h.walkMemo c).lookup c).getD {}

/-- Computes the ancestry of a class and keeps it with those of its ancestors. -/
def warm (h : Heap) (c : ContainerId) : Heap :=
  { h with memo := h.walkMemo c }

/-- Keeps the ancestries of the classes that an operation asks about. -/
def warmAll (h : Heap) (asked : List ContainerId) : Heap :=
  asked.foldl warm h

/-- Whether `c` is `ancestor` or a subclass of it. -/
def isSubclass (h : Heap) (c ancestor : ContainerId) : Bool :=
  c == ancestor || (h.ancestry c).order.contains ancestor

end Heap
end Ditlang
