import Ditlang.Proofs.Heap.Definers
import Ditlang.Proofs.Heap.Steps

/-!
# Ditlang.Proofs.Heap.ClassSteps

What operations do to the classes of a store.

A `ClassOp` is any operation of the language, or one on classes of which nothing is asked: making a
container, declaring a name with whatever type, asking for the ancestry of a container. A store is
`Built` when such operations lead to it; every reachable store is.

Of an operation only three things can happen to classes (`ClassOp.classStep`): they stay as they are
and a class without anything is added, one class gets a name (`Declares`), or one class gets a parent
(`Extends`). In both latter cases the conflicts that the class records are said by the definers of the
name among its parents, so that what follows never opens the operations again.
-/

namespace Ditlang

/-- The conflicts of a class, and none of anything else. -/
def ContainerKind.conflicts : ContainerKind → List Conflict
  | .cls data => data.conflicts
  | _ => []

namespace Heap

variable {h h' : Heap} {c d p : ContainerId} {x y : String}

inductive ClassOp (h : Heap) : Heap → Prop where
  | step {h' : Heap} : h.Step h' → ClassOp h h'
  | alloc {c : Container} : c.Fresh → ClassOp h (h.alloc c).2
  | declare {owner : ContainerId} {name : String} {d : Declared} {s : SlotId} {h' : Heap} :
      h.declare owner name d = .ok (s, h') → ClassOp h h'
  | ask {c : ContainerId} : c.index < h.containers.size → ClassOp h (h.warm c)

/-- The stores that operations lead to, on classes of any kind. -/
def Built (h : Heap) : Prop :=
  Relation.ReflTransGen ClassOp .empty h

theorem Reachable.built (hr : h.Reachable) : h.Built :=
  Relation.ReflTransGen.mono (fun _ _ => .step) _ _ hr

theorem ClassOp.lineal (ho : h.ClassOp h') (hl : h.Lineal) : h'.Lineal := by
  cases ho with
  | step hs => exact hs.lineal hl
  | alloc hf => exact hl.alloc hf.cls
  | declare hok => exact hl.declare hok
  | ask hc => exact hl.warm hc

theorem Built.lineal (hb : h.Built) : h.Lineal := by
  induction hb with
  | refl => exact lineal_empty
  | tail _ ho ih => exact ho.lineal ih

/-! ## Classes that stay as they are -/

/-- The class graph and the conflicts are read off the same attributes and data of `c`. -/
structure SameClass (h h' : Heap) (c : ContainerId) : Prop where
  attrs : (h'.container c).attrs = (h.container c).attrs
  kind : (h'.container c).kind = (h.container c).kind

theorem conflicts_eq (c : ContainerId) : h.conflicts c = (h.container c).kind.conflicts := by
  unfold conflicts
  cases (h.container c).kind <;> rfl

namespace SameClass

theorem of_container (he : h'.container c = h.container c) : h.SameClass h' c :=
  ⟨by rw [he], by rw [he]⟩

theorem owns_iff (hs : h.SameClass h' c) : h'.Owns c x ↔ h.Owns c x := by
  unfold Owns
  rw [hs.attrs]

theorem parents_eq (hs : h.SameClass h' c) : h'.parents c = h.parents c :=
  parents_of_kind hs.kind

theorem conflicts_eq (hs : h.SameClass h' c) : h'.conflicts c = h.conflicts c := by
  rw [Heap.conflicts_eq, hs.kind, ← Heap.conflicts_eq]

theorem isClass_eq (hs : h.SameClass h' c) :
    (h'.container c).isClass = (h.container c).isClass :=
  Lineal.isClass_of_kind hs.kind

end SameClass

/-- Classes stay as they are, and new ones have nothing. -/
structure SameClasses (h h' : Heap) : Prop where
  old : ∀ c, (h.container c).isClass = true → h.SameClass h' c
  new : ∀ c, ¬ (h.container c).isClass = true → (h'.container c).isClass = true →
    (h'.container c).attrs = .empty ∧ (h'.container c).kind = .cls {}

namespace SameClasses

theorem of_all (hs : ∀ c, h.SameClass h' c) : h.SameClasses h' := by
  refine ⟨fun c _ => hs c, ?_⟩
  intro c hc hc'
  rw [(hs c).isClass_eq] at hc'
  exact absurd hc' hc

theorem of_containers (hc : h'.containers = h.containers) : h.SameClasses h' :=
  of_all fun c => .of_container (by rw [container, hc]; rfl)

theorem alloc {c : Container} (hf : c.Fresh) : h.SameClasses (h.alloc c).2 := by
  constructor
  · intro d hd
    refine .of_container ?_
    rw [container_alloc, if_neg (Nat.ne_of_lt (lt_size_of_isClass hd))]
  · intro d hd hd'
    rw [container_alloc] at hd' ⊢
    split at hd'
    · rename_i hnew
      rw [if_pos hnew]
      refine ⟨hf.attrs, ?_⟩
      cases hk : c.kind with
      | cls data => rw [hf.cls data hk]
      | _ => simp [Container.isClass, hk] at hd'
    · exact absurd hd' hd

/-- A container that is not a class may change into one that is none either. -/
theorem modifyContainer {f : Container → Container} (hc : ¬ (h.container c).isClass = true)
    (hf : ¬ (f (h.container c)).isClass = true) : h.SameClasses (h.modifyContainer c f) := by
  constructor
  · intro d hd
    refine .of_container ?_
    rw [container_modifyContainer, if_neg]
    rintro ⟨rfl, -⟩
    exact hc hd
  · intro d hd hd'
    rw [container_modifyContainer] at hd'
    split at hd'
    · rename_i hcd
      rw [hcd.1] at hf
      exact absurd hd' hf
    · exact absurd hd' hd

/-- A container that is not a class may get an attribute. -/
theorem attach (hc : ¬ (h.container c).isClass = true) (new : Slot) (name : String) (s : SlotId) :
    h.SameClasses ((h.newSlot new).2.attach c name s) := by
  have hs : (h.newSlot new).2.SameClasses ((h.newSlot new).2.attach c name s) :=
    modifyContainer hc hc
  exact ⟨fun d hd => ⟨(hs.old d hd).attrs, (hs.old d hd).kind⟩, hs.new⟩

theorem describe (c : ContainerId) {f : Container → Container}
    (hk : (f (h.container c)).kind = (h.container c).kind)
    (ha : (f (h.container c)).attrs = (h.container c).attrs) :
    h.SameClasses (h.modifyContainer c f) := by
  refine of_all fun d => ?_
  by_cases hcd : c = d ∧ c.index < h.containers.size
  · obtain ⟨rfl, hlt⟩ := hcd
    constructor
    · rw [container_modifyContainer, if_pos ⟨rfl, hlt⟩, ha]
    · rw [container_modifyContainer, if_pos ⟨rfl, hlt⟩, hk]
  · exact .of_container (by rw [container_modifyContainer, if_neg hcd])

theorem congr_right {g : Heap} (hs : h.SameClasses g) (hc : h'.containers = g.containers) :
    h.SameClasses h' := by
  have he : ∀ c, h'.container c = g.container c := fun c => by rw [container, hc]; rfl
  constructor
  · intro c hcls
    have hold := hs.old c hcls
    exact ⟨he c ▸ hold.attrs, he c ▸ hold.kind⟩
  · intro c hcls hcls'
    rw [he c] at hcls' ⊢
    exact hs.new c hcls hcls'

theorem mergeLangs (left right : ContainerId) : h.SameClasses (h.mergeLangs left right).2 := by
  have he : ∀ c, (h.copySlots (h.mergeSources left right)).2.container c = h.container c :=
    fun c => by rw [container, containers_copySlots]; rfl
  constructor
  · intro c hc
    refine .of_container ?_
    rw [← he c] at hc ⊢
    exact (container_alloc _ _ c).trans (if_neg (Nat.ne_of_lt (lt_size_of_isClass hc)))
  · intro c hc hc'
    rw [Heap.mergeLangs] at hc'
    rw [← he c] at hc
    dsimp only at hc'
    rw [container_alloc] at hc'
    split at hc'
    · cases hc'
    · exact absurd hc' hc

end SameClasses

/-! ## The conflicts of an operation -/

theorem mem_foldl_union {α β : Type} [BEq β] [LawfulBEq β] {f : α → List β} {y : β}
    (as : List α) (xs : List β) :
    y ∈ as.foldl (fun found a => union found (f a)) xs ↔ y ∈ xs ∨ ∃ a ∈ as, y ∈ f a := by
  induction as generalizing xs with
  | nil => simp
  | cons a as ih =>
    rw [List.foldl_cons, ih, mem_union]
    simp [or_assoc]

theorem one_lt_length_iff {α : Type} {xs : List α} (hn : xs.Nodup) :
    1 < xs.length ↔ ∃ a ∈ xs, ∃ b ∈ xs, a ≠ b := by
  match xs, hn with
  | [], _ => simp
  | [a], _ => simp
  | a :: b :: rest, hn =>
    have hab : a ≠ b := fun he => (List.nodup_cons.1 hn).1 (he ▸ List.mem_cons_self)
    simp only [List.length_cons]
    constructor
    · intro _
      exact ⟨a, List.mem_cons_self, b, List.mem_cons_of_mem _ List.mem_cons_self, hab⟩
    · intro _
      omega

namespace Lineal

variable (hl : h.Lineal)

include hl

theorem mem_definersOf_parent (hp : p ∈ h.parents c) :
    d ∈ (h.ancestry p).definers.definersOf x ↔ h.Definer x p d :=
  hl.mem_definers_iff (hl.parent_isClass c p hp)

/-- A name that a class declares conflicts with the same name of those it would inherit it from. -/
theorem mem_overrideConflicts :
    ⟨d, y⟩ ∈ h.overrideConflicts c x ↔ y = x ∧ h.DefinerVia x (h.parents c) d := by
  rw [overrideConflicts, mem_foldl_union]
  simp only [List.not_mem_nil, false_or, List.mem_map, Conflict.mk.injEq]
  constructor
  · rintro ⟨p, hp, e, he, rfl, rfl⟩
    exact ⟨rfl, p, hp, (hl.mem_definersOf_parent hp).1 he⟩
  · rintro ⟨rfl, p, hp, hd⟩
    exact ⟨p, hp, d, (hl.mem_definersOf_parent hp).2 hd, rfl, rfl⟩

theorem foldl_addAll_spec (ps : List ContainerId) (t : OrderedMap (List ContainerId))
    (hps : ps ⊆ h.parents c) (ht : t.Proper) :
    let all := ps.foldl (fun t p => OrderedMap.addAll (fun _ => false) t (h.ancestry p).definers) t
    all.Proper ∧ ∀ x d, d ∈ all.definersOf x ↔ d ∈ t.definersOf x ∨ h.DefinerVia x ps d := by
  induction ps generalizing t with
  | nil => exact ⟨ht, fun x d => by simp [DefinerVia]⟩
  | cons p ps ih =>
    obtain ⟨hp, hps⟩ := List.cons_subset.1 hps
    have hproper := hl.proper_definers (hl.parent_isClass c p hp)
    have ht' : (OrderedMap.addAll (fun _ => false) t (h.ancestry p).definers).Proper :=
      ht.addAll hproper
    obtain ⟨hall, hmem⟩ := ih _ hps ht'
    refine ⟨hall, fun x d => ?_⟩
    rw [List.foldl_cons, hmem, OrderedMap.definersOf_addAll hproper.keys,
      if_neg Bool.false_ne_true, mem_union, hl.mem_definersOf_parent hp]
    simp [DefinerVia, or_assoc]

theorem parentDefiners_spec (c : ContainerId) :
    (h.parentDefiners c).Proper ∧
      ∀ x d, d ∈ (h.parentDefiners c).definersOf x ↔ h.DefinerVia x (h.parents c) d := by
  have heq : h.parentDefiners c = (h.parents c).foldl
      (fun t p => OrderedMap.addAll (fun _ => false) t (h.ancestry p).definers) .empty := by
    simp [parentDefiners, OrderedMap.addAll]
  obtain ⟨hproper, hmem⟩ := hl.foldl_addAll_spec (h.parents c) .empty (List.Subset.refl _)
    OrderedMap.proper_empty
  rw [heq]
  refine ⟨hproper, fun x d => (hmem x d).trans ?_⟩
  simp [OrderedMap.definersOf]

end Lineal

/-- A name of a new parent `p` conflicts with what `c` has: `c` owns it, or inherits it already, and
then more than one class defines it. -/
def Clashes (h : Heap) (c p : ContainerId) (x : String) : Prop :=
  (∃ d, h.Definer x p d) ∧ (h.Owns c x ∨ (∃ d, h.DefinerVia x (h.parents c) d) ∧
    ∃ d e, d ≠ e ∧ h.DefinerVia x (h.parents c ++ [p]) d ∧ h.DefinerVia x (h.parents c ++ [p]) e)

theorem definerVia_concat {ps : List ContainerId} :
    h.DefinerVia x (ps ++ [p]) d ↔ h.DefinerVia x ps d ∨ h.Definer x p d := by
  simp [DefinerVia, or_and_right, exists_or]

theorem conflictsOfName_eq (existing : OrderedMap (List ContainerId)) (name : String)
    (defs : List ContainerId) :
    h.conflictsOfName c existing name defs =
      if (h.container c).attrs.contains name ||
        (existing.contains name && 1 < (union (existing.definersOf name) defs).length) then
        (union (existing.definersOf name) defs).map fun loser => ⟨loser, name⟩
      else [] := rfl

section NewParent

variable {defs : List ContainerId}

theorem Lineal.mem_union_definers (hl : h.Lineal) (hp : (h.container p).isClass = true)
    (hdefs : (h.ancestry p).definers.get? y = some defs) :
    d ∈ union ((h.parentDefiners c).definersOf y) defs ↔ h.DefinerVia y (h.parents c ++ [p]) d := by
  have hdef : defs = (h.ancestry p).definers.definersOf y := by
    rw [OrderedMap.definersOf, hdefs]
    rfl
  rw [mem_union, (hl.parentDefiners_spec c).2, definerVia_concat, hdef, hl.mem_definers_iff hp]

theorem Lineal.clashes_iff (hl : h.Lineal) (hp : (h.container p).isClass = true)
    (hdefs : (h.ancestry p).definers.get? y = some defs) :
    ((h.container c).attrs.contains y || ((h.parentDefiners c).contains y &&
      1 < (union ((h.parentDefiners c).definersOf y) defs).length)) = true ↔ h.Clashes c p y := by
  obtain ⟨hexisting, hmem⟩ := hl.parentDefiners_spec c
  have hnew : ∃ e, h.Definer y p e := by
    obtain ⟨e, he⟩ := List.exists_mem_of_ne_nil defs ((hl.proper_definers hp).ne_nil y defs hdefs)
    refine ⟨e, (hl.mem_definers_iff hp).1 ?_⟩
    rw [OrderedMap.definersOf, hdefs]
    exact he
  have hold : (h.parentDefiners c).definersOf y ≠ [] ↔ ∃ e, h.DefinerVia y (h.parents c) e := by
    rw [← exists_congr (hmem y)]
    exact ⟨List.exists_mem_of_ne_nil _, fun ⟨e, he⟩ => List.ne_nil_of_mem he⟩
  have hnodup := nodup_union defs (hexisting.nodup_definersOf (x := y))
  rw [Bool.or_eq_true, Bool.and_eq_true, hexisting.contains_iff, hold, decide_eq_true_iff,
    one_lt_length_iff hnodup]
  simp only [hl.mem_union_definers hp hdefs]
  unfold Clashes Owns
  grind

/-- The conflicts that a new parent brings are about the names that clash, with all who define
them. -/
theorem Lineal.mem_conflictsOfName (hl : h.Lineal) (hp : (h.container p).isClass = true) :
    ⟨d, y⟩ ∈ ((h.ancestry p).definers.entries.flatMap fun (name, defs) =>
        h.conflictsOfName c (h.parentDefiners c) name defs) ↔
      h.Clashes c p y ∧ h.DefinerVia y (h.parents c ++ [p]) d := by
  have hkeys := (hl.proper_definers hp).keys
  constructor
  · intro hd
    obtain ⟨⟨name, defs⟩, he, hd⟩ := List.mem_flatMap.1 hd
    have hdefs := (OrderedMap.mem_entries_iff hkeys).1 he
    dsimp only at hd
    rw [conflictsOfName_eq] at hd
    split at hd
    · rename_i hif
      obtain ⟨loser, hloser, heq⟩ := List.mem_map.1 hd
      cases heq
      exact ⟨(hl.clashes_iff hp hdefs).1 hif, (hl.mem_union_definers hp hdefs).1 hloser⟩
    · cases hd
  · rintro ⟨hclash, hd⟩
    obtain ⟨e, he⟩ := hclash.1
    have hmem := (hl.mem_definers_iff hp).2 he
    unfold OrderedMap.definersOf at hmem
    cases hdefs : (h.ancestry p).definers.get? y with
    | none =>
      rw [hdefs] at hmem
      cases hmem
    | some defs =>
      refine List.mem_flatMap.2 ⟨(y, defs), (OrderedMap.mem_entries_iff hkeys).2 hdefs, ?_⟩
      dsimp only
      rw [conflictsOfName_eq, if_pos ((hl.clashes_iff hp hdefs).2 hclash)]
      exact List.mem_map.2 ⟨d, (hl.mem_union_definers hp hdefs).2 hd, rfl⟩

end NewParent

/-! ## What an operation does to the classes -/

/-- Class `c` gets a name of its own. -/
structure Declares (h h' : Heap) (c : ContainerId) (x : String) : Prop where
  isClass : (h.container c).isClass = true
  isClass' : (h'.container c).isClass = true
  fresh : ¬ h.Owns c x
  others : ∀ e, e ≠ c → h.SameClass h' e
  owns : ∀ y, h'.Owns c y ↔ y = x ∨ h.Owns c y
  parents : h'.parents c = h.parents c
  nodup : (h.conflicts c).Nodup → (h'.conflicts c).Nodup
  conflicts : ∀ d y, ⟨d, y⟩ ∈ h'.conflicts c ↔
    ⟨d, y⟩ ∈ h.conflicts c ∨ y = x ∧ h.DefinerVia x (h.parents c) d

/-- Class `c` gets one more parent. -/
structure Extends (h h' : Heap) (c p : ContainerId) : Prop where
  isClass : (h.container c).isClass = true
  isClass' : (h'.container c).isClass = true
  parent_isClass : (h.container p).isClass = true
  apart : ¬ h.Subclass p c
  fresh : p ∉ h.parents c
  others : ∀ e, e ≠ c → h.SameClass h' e
  attrs : (h'.container c).attrs = (h.container c).attrs
  parents : h'.parents c = h.parents c ++ [p]
  nodup : (h.conflicts c).Nodup → (h'.conflicts c).Nodup
  conflicts : ∀ d y, ⟨d, y⟩ ∈ h'.conflicts c ↔ ⟨d, y⟩ ∈ h.conflicts c ∨
    h.Clashes c p y ∧ h.DefinerVia y (h.parents c ++ [p]) d ∨
    ⟨d, y⟩ ∈ h.conflicts p ∧ ¬ h.Owns p y ∧ ¬ h.Owns c y

inductive ClassStep (h h' : Heap) : Prop where
  | same : h.SameClasses h' → ClassStep h h'
  | name {c : ContainerId} {x : String} : h.Declares h' c x → ClassStep h h'
  | parent {c p : ContainerId} : h.Extends h' c p → ClassStep h h'

theorem exists_kind_of_isClass {x : Container} (hc : x.isClass = true) :
    ∃ data, x.kind = .cls data := by
  unfold Container.isClass at hc
  split at hc
  · rename_i data hk
    exact ⟨data, hk⟩
  · cases hc

theorem container_addConflicts_of_ne {e : ContainerId} (he : e ≠ c) (found : List Conflict) :
    (h.addConflicts c found).container e = h.container e := by
  rw [addConflicts, container_modifyContainer, if_neg fun hc => he hc.1.symm]

theorem container_addConflicts_self {data : ClassData} (hk : (h.container c).kind = .cls data)
    (found : List Conflict) :
    (h.addConflicts c found).container c =
      { h.container c with kind := .cls { data with conflicts := union data.conflicts found } } := by
  have hlt : c.index < h.containers.size := lt_size_of_isClass (by simp [Container.isClass, hk])
  rw [addConflicts, container_modifyContainer, if_pos ⟨rfl, hlt⟩, hk]

theorem container_declare_of_ne {name : String} {ty : Declared} {s : SlotId} {e : ContainerId}
    (hok : h.declare c name ty = .ok (s, h')) (he : e ≠ c) : h'.container e = h.container e := by
  obtain ⟨-, -, ⟨-, rfl⟩ | ⟨-, found, -, rfl⟩⟩ := declare_inv hok
  · rw [Heap.attach, container_modifyContainer, if_neg fun hce => he hce.1.symm]
    rfl
  · change ((Heap.addConflicts _ c found).attach c name s).container e = _
    rw [Heap.attach, container_modifyContainer, if_neg fun hce => he hce.1.symm,
      container_addConflicts_of_ne he]
    rfl

theorem container_addParent_of_ne {e : ContainerId} (hok : h.addParent c p = .ok h') (he : e ≠ c) :
    h'.container e = h.container e := by
  obtain ⟨-, -, -, found, -, rfl⟩ := addParent_inv hok
  change ((h.addConflicts c found).modifyContainer c (withParent p)).container e = _
  rw [container_modifyContainer, if_neg fun hce => he hce.1.symm, container_addConflicts_of_ne he]

theorem Lineal.classStep_declare (hl : h.Lineal) {name : String} {ty : Declared} {s : SlotId}
    (hok : h.declare c name ty = .ok (s, h')) : ClassStep h h' := by
  obtain ⟨hfree, -, ⟨hc, rfl⟩ | ⟨hc, found, hfound, rfl⟩⟩ := declare_inv hok
  · have hc' : ¬ (h.container c).isClass = true := by simp [hc]
    exact .same (.attach hc' _ name _)
  · obtain ⟨data, hk⟩ := exists_kind_of_isClass hc
    set g := (h.newSlot (.declare name ty)).2
    have hlg : g.Lineal := hl.of_containers rfl rfl
    have hdef : ∀ d, g.DefinerVia name (g.parents c) d ↔ h.DefinerVia name (h.parents c) d := by
      intro d
      refine exists_congr fun p => and_congr_right fun _ => Definer.congr fun e _ => ?_
      exact ⟨Iff.rfl, rfl⟩
    have hcont : ((((g.addConflicts c found).attach c name s).forgetAncestries).container c) =
        { h.container c with
          kind := .cls { data with conflicts := union data.conflicts found }
          attrs := (h.container c).attrs.insert name s } := by
      change ((g.addConflicts c found).attach c name s).container c = _
      have hlt : c.index < (g.addConflicts c found).containers.size := by
        simpa [addConflicts] using lt_size_of_isClass (h := g) hc
      rw [Heap.attach, container_modifyContainer, if_pos ⟨rfl, hlt⟩,
        container_addConflicts_self (h := g) hk]
      rfl
    have hconf : h.conflicts c = data.conflicts := by
      rw [Heap.conflicts_eq, hk]
      rfl
    have hfresh : ¬ h.Owns c name := by
      have hnone := (Container.find?_eq_none.1 hfree).1
      simp [Owns, OrderedMap.contains, hnone]
    refine .name (c := c) (x := name) ⟨hc, ?_, hfresh, ?_, ?_, ?_, ?_, ?_⟩
    · rw [hcont]
      rfl
    · exact fun e he => .of_container (container_declare_of_ne hok he)
    · intro y
      unfold Owns OrderedMap.contains
      rw [hcont]
      dsimp only
      rw [OrderedMap.get?_insert]
      by_cases hy : y = name
      · simp [hy]
      · simp [hy]
    · rw [parents_eq, hcont, parents_eq, hk]
      rfl
    · intro hn
      rw [conflicts_eq, hcont]
      exact nodup_union found (hconf ▸ hn)
    · intro d y
      rw [conflicts_eq, hcont, hconf, ← hdef, ← hlg.mem_overrideConflicts, ← hfound]
      exact mem_union

/-- Nothing is written into a container that is not a class. -/
theorem sameClasses_of_not_isClass (hc : ¬ (h.container c).isClass = true)
    (found : List Conflict) :
    h.SameClasses
      ((h.addConflicts c found).modifyContainer c (withParent p)).forgetAncestries := by
  have hconf : h.SameClasses (h.addConflicts c found) := by
    refine .modifyContainer hc ?_
    split
    · rename_i data hk
      simp [Container.isClass, hk] at hc
    · exact hc
  have hcont : ∀ e, ((h.addConflicts c found).modifyContainer c (withParent p)).container e =
      (h.addConflicts c found).container e := by
    intro e
    rw [container_modifyContainer]
    split
    · rename_i hce
      obtain ⟨rfl, -⟩ := hce
      have hc' : ¬ ((h.addConflicts c found).container c).isClass = true := by
        rw [isClass_addConflicts]
        exact hc
      unfold withParent
      split
      · rename_i data hk
        simp [Container.isClass, hk] at hc'
      · rfl
    · rfl
  constructor
  · intro e he
    have hold := hconf.old e he
    exact ⟨(congrArg _ (hcont e)).trans hold.attrs, (congrArg _ (hcont e)).trans hold.kind⟩
  · intro e he he'
    have he'' : ((h.addConflicts c found).container e).isClass = true := hcont e ▸ he'
    rw [isClass_addConflicts] at he''
    exact absurd he'' he

theorem Lineal.classStep_addParent (hl : h.Lineal) (hok : h.addParent c p = .ok h') :
    ClassStep h h' := by
  obtain ⟨hp, hsub, hfresh, found, hfound, rfl⟩ := addParent_inv hok
  by_cases hc : (h.container c).isClass = true
  · obtain ⟨data, hk⟩ := exists_kind_of_isClass hc
    have hcont : (((h.addConflicts c found).modifyContainer c
        (withParent p)).forgetAncestries.container c) =
        { h.container c with
          kind := .cls ⟨data.parents ++ [p], union data.conflicts found⟩ } := by
      change ((h.addConflicts c found).modifyContainer c (withParent p)).container c = _
      have hlt : c.index < (h.addConflicts c found).containers.size := by
        simpa [addConflicts] using lt_size_of_isClass hc
      rw [container_modifyContainer, if_pos ⟨rfl, hlt⟩, container_addConflicts_self hk]
      rfl
    have hconf : h.conflicts c = data.conflicts := by
      rw [Heap.conflicts_eq, hk]
      rfl
    refine .parent (c := c) (p := p) ⟨hc, ?_, hp, ?_, hfresh, ?_, ?_, ?_, ?_, ?_⟩
    · rw [hcont]
      rfl
    · rw [← hl.isSubclass_iff, hsub]
      exact Bool.false_ne_true
    · exact fun e he => .of_container (container_addParent_of_ne hok he)
    · rw [hcont]
    · rw [parents_eq, hcont, parents_eq, hk]
      rfl
    · intro hn
      rw [conflicts_eq, hcont]
      exact nodup_union found (hconf ▸ hn)
    · intro d y
      rw [conflicts_eq, hcont, hconf, ← hl.mem_conflictsOfName hp]
      refine mem_union.trans (or_congr_right ?_)
      rw [hfound, List.mem_append, inheritedConflicts, List.mem_filter]
      simp [Owns]
  · exact .same (sameClasses_of_not_isClass hc found)

theorem ClassOp.classStep (ho : h.ClassOp h') (hl : h.Lineal) : ClassStep h h' := by
  cases ho with
  | alloc hf => exact .same (.alloc hf)
  | declare hok => exact hl.classStep_declare hok
  | ask => exact .same (.of_containers rfl)
  | step hs =>
    cases hs with
    | alloc hf => exact .same (.alloc hf)
    | declare _ hok => exact hl.classStep_declare hok
    | insertAlias _ hok =>
      obtain ⟨-, rfl⟩ := insertAlias_inv hok
      exact .same (.describe _ rfl rfl)
    | assign _ _ hok =>
      obtain ⟨-, rfl⟩ | ⟨-, -, rfl⟩ := assign_inv hok
      · exact .same (.of_containers rfl)
      · rename_i s v _ _
        rcases settle_cases (h := h) (h.slot s).declared (h.slot s).value v with
          hs | ⟨a, b, -, -, hs, -⟩ | ⟨l, -, -, -, -, hs⟩
        · rw [hs]
          exact .same (.of_containers rfl)
        · rw [hs]
          exact .same ((SameClasses.mergeLangs a b).congr_right rfl)
        · rw [hs]
          exact .same (.of_containers rfl)
    | append _ hok =>
      obtain ⟨-, -, rfl⟩ := append_inv hok
      exact .same (.of_containers rfl)
    | @materialize inst key template hi =>
      have hc : ¬ (h.container inst).isClass = true := by
        rw [← isKind_cls_iff]
        intro hcls
        exact nomatch hi.symm.trans hcls
      rcases materialize_cases (h := h) inst key template with ⟨s, -, hm⟩ | ⟨-, hm⟩
      · rw [hm]
        exact .same (.of_containers rfl)
      · rw [hm]
        exact .same (.attach hc _ key _)
    | mergeLangs left right => exact .same (.mergeLangs left right)
    | addParent hok => exact hl.classStep_addParent hok
    | newList => exact .same (.of_containers rfl)
    | newMap => exact .same (.of_containers rfl)
    | putEntry => exact .same (.of_containers rfl)
    | warm => exact .same (.of_containers rfl)
    | describe c hf =>
      refine .same (.describe c ?_ ?_)
      · rw [hf]
      · rw [hf]
    | @keepFile c data hb =>
      refine .same (.modifyContainer ?_ ?_)
      · cases hk : (h.container c).kind <;> rw [hk] at hb <;> simp [Container.isClass, hk]
        cases hb
      · exact Bool.false_ne_true

/-! ## The parents of a class -/

theorem ClassStep.nodup_parents (hs : ClassStep h h') (hn : ∀ c, (h.parents c).Nodup)
    (c : ContainerId) : (h'.parents c).Nodup := by
  cases hs with
  | same hs =>
    by_cases hold : (h.container c).isClass = true
    · rw [(hs.old c hold).parents_eq]
      exact hn c
    · by_cases hnew : (h'.container c).isClass = true
      · rw [parents_eq, (hs.new c hold hnew).2]
        exact List.nodup_nil
      · rw [parents_of_not_isClass hnew]
        exact List.nodup_nil
  | @name e x hd =>
    by_cases he : c = e
    · rw [he, hd.parents]
      exact hn e
    · rw [(hd.others c he).parents_eq]
      exact hn c
  | @parent e p hx =>
    by_cases he : c = e
    · rw [he, hx.parents]
      refine List.nodup_append.2 ⟨hn e, List.nodup_singleton p, ?_⟩
      rintro q hq _ hp rfl
      exact hx.fresh (List.mem_singleton.1 hp ▸ hq)
    · rw [(hx.others c he).parents_eq]
      exact hn c

theorem Built.nodup_parents (hb : h.Built) : ∀ c, (h.parents c).Nodup := by
  induction hb with
  | refl => exact fun c => List.nodup_nil
  | tail hb ho ih => exact (ho.classStep (Built.lineal hb)).nodup_parents ih

/-- A class can be extended by a class that is no subclass of it and not yet a parent. -/
theorem Lineal.addParent_eq_ok_iff (hl : h.Lineal) :
    (∃ h', h.addParent c p = .ok h') ↔
      (h.container p).isClass = true ∧ ¬ h.Subclass p c ∧ p ∉ h.parents c := by
  rw [← hl.isSubclass_iff]
  constructor
  · rintro ⟨h', hok⟩
    obtain ⟨hp, hsub, hfresh, -⟩ := addParent_inv hok
    exact ⟨hp, by simp [hsub], hfresh⟩
  · rintro ⟨hp, hsub, hfresh⟩
    simp [Heap.addParent, hp, hsub, hfresh]

theorem parents_addParent_self (hok : h.addParent c p = .ok h')
    (hc : (h.container c).isClass = true) : h'.parents c = h.parents c ++ [p] := by
  obtain ⟨-, -, -, found, -, rfl⟩ := addParent_inv hok
  obtain ⟨data, hk⟩ := exists_kind_of_isClass hc
  have hlt : c.index < (h.addConflicts c found).containers.size := by
    simpa [addConflicts] using lt_size_of_isClass hc
  rw [parents_eq, parents_eq, hk]
  change (((h.addConflicts c found).modifyContainer c (withParent p)).container c).kind.parents = _
  rw [container_modifyContainer, if_pos ⟨rfl, hlt⟩, container_addConflicts_self hk]
  rfl

end Heap
end Ditlang
