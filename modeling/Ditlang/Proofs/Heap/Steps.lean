import Ditlang.Eval.Operand
import Ditlang.Proofs.Heap.Validity
import Ditlang.Proofs.Heap.Walk

/-!
# Ditlang.Proofs.Heap.Steps

The stores a program can reach. A `Step` is one operation of the language on a store: making a
container, a list or a JSON map, declaring, assigning, appending, copying an inherited attribute into
an instance, merging Langs, extending a class, and a few more that no type depends on. What an
operation is given must be there; nothing else is asked of it. A store is `Reachable` when steps
lead to it from the store without anything in it.

Every step lets the store grow, keeps it closed and keeps its class graph lineal, and so does a whole
run: `Reachable.closed` and `Reachable.lineal`.
-/

namespace Ditlang

/-- A container as it is made: without attributes, and a class without parents. -/
structure Container.Fresh (c : Container) : Prop where
  attrs : c.attrs = .empty
  aliases : c.aliases = .empty
  cls : ∀ data, c.kind = .cls data → data = {}

/-- The parents of a class, and none of anything else. -/
def ContainerKind.parents : ContainerKind → List ContainerId
  | .cls data => data.parents
  | _ => []

namespace Heap

/-- One operation of the language on a store. -/
inductive Step (h : Heap) : Heap → Prop where
  | alloc {c : Container} : c.Fresh → c.kind.Valid h →
      (∀ o, c.scope = some o → o.index < h.containers.size) → Step h (h.alloc c).2
  | declare {owner : ContainerId} {name : String} {d : Declared} {s : SlotId} {h' : Heap} :
      d.Valid h → h.declare owner name d = .ok (s, h') → Step h h'
  | insertAlias {c : ContainerId} {name : String} {s : SlotId} {h' : Heap} :
      h.HasSlot s → h.insertAlias c name s = .ok h' → Step h h'
  | assign {s : SlotId} {v : Value} {h' : Heap} :
      h.HasSlot s → v.Valid h → h.assign s v = .ok h' → Step h h'
  | append {l : ListId} {v : Value} {h' : Heap} :
      v.Valid h → h.append l v = .ok h' → Step h h'
  | materialize {inst : ContainerId} (key : String) (template : SlotId) :
      h.IsKind .inst inst → Step h (h.materialize inst key template).2
  | mergeLangs (left right : ContainerId) : Step h (h.mergeLangs left right).2
  | addParent {c parent : ContainerId} {h' : Heap} : h.addParent c parent = .ok h' → Step h h'
  /-- A list as a literal or a JSON document makes it. -/
  | newList {items : List Value} : (∀ v ∈ items, v.Valid h) → Step h (h.newList .thing items).2
  | newMap {m : OrderedMap Value} : m.All (Value.Valid h) → Step h (h.newMap m).2
  | putEntry (m : MapId) (key : String) {v : Value} : v.Valid h → Step h (h.putEntry m key v)
  | warm {c : ContainerId} : h.IsKind .cls c → Step h (h.warm c)
  /-- A container gets another name or another body. -/
  | describe (c : ContainerId) {f : Container → Container} :
      (∀ x, f x = { x with name := (f x).name, body := (f x).body }) →
      Step h (h.modifyContainer c f)
  /-- The file of a guest function is kept. -/
  | keepFile {c : ContainerId} {data : FuncData} : (h.container c).kind.Becomes (.func data) →
      Step h (h.modifyContainer c fun x => { x with kind := .func data })

def Steps : Heap → Heap → Prop :=
  Relation.ReflTransGen Step

/-- The stores that operations lead to. -/
def Reachable (h : Heap) : Prop :=
  Steps .empty h

variable {h h' : Heap}

theorem Steps.trans {h'' : Heap} (hs : h.Steps h') (hs' : h'.Steps h'') : h.Steps h'' :=
  Relation.ReflTransGen.trans hs hs'

theorem Reachable.step (hr : h.Reachable) (hs : h.Step h') : h'.Reachable :=
  Relation.ReflTransGen.tail hr hs

theorem Reachable.steps (hr : h.Reachable) (hs : h.Steps h') : h'.Reachable :=
  Relation.ReflTransGen.trans hr hs

/-- What holds of the empty store and is kept by every step holds of every reachable store. -/
theorem Reachable.induction {P : Heap → Prop} (start : P .empty)
    (step : ∀ h h', h.Reachable → P h → h.Step h' → P h') (hr : h.Reachable) : P h := by
  induction hr with
  | refl => exact start
  | tail hr hs ih => exact step _ _ hr ih hs

/-! ## A step lets the store grow -/

theorem becomes_of_described {x y : Container} (he : y = { x with name := y.name, body := y.body }) :
    x.Becomes y := by
  rw [he]
  exact ⟨.same _, rfl, fun _ _ hg => hg, fun _ _ hg => hg⟩

theorem Step.grows (hs : h.Step h') : h.Grows h' := by
  cases hs with
  | alloc => exact grows_alloc h _
  | declare _ hok => exact grows_declare hok
  | insertAlias _ hok => exact grows_insertAlias hok
  | assign _ _ hok => exact grows_assign hok
  | append _ hok => exact grows_append hok
  | materialize key template => exact grows_materialize _ key template
  | mergeLangs left right => exact grows_mergeLangs left right
  | addParent hok => exact grows_addParent hok
  | newList => exact grows_newList h _ _
  | newMap => exact grows_newMap h _
  | putEntry m key => exact grows_setMap h m _
  | warm => exact grows_setMemo h _
  | describe c hf => exact grows_modifyContainer h c (becomes_of_described (hf _))
  | keepFile hb =>
    exact grows_modifyContainer h _ ⟨hb, rfl, fun _ _ hg => hg, fun _ _ hg => hg⟩

theorem Steps.grows (hs : h.Steps h') : h.Grows h' := by
  induction hs with
  | refl => exact .refl h
  | tail _ hs ih => exact ih.trans hs.grows

/-! ## A step keeps the store closed -/

theorem FuncData.Valid.of_becomes {k : ContainerKind} {data : FuncData} (hk : k.Valid h)
    (hb : k.Becomes (.func data)) : data.Valid h := by
  cases hb with
  | same => exact hk
  | func hp hr hl _ => exact ⟨hp ▸ hk.params, hr ▸ hk.ret, hl ▸ hk.lang⟩

theorem Step.closed (hs : h.Step h') (hc : h.Closed) : h'.Closed := by
  cases hs with
  | alloc hf hk ho => exact hc.alloc ⟨hk, hf.attrs ▸ .empty _, hf.aliases ▸ .empty _⟩ ho
  | declare hd hok => exact hc.declare hd hok
  | insertAlias hs hok => exact hc.insertAlias hs hok
  | assign _ hv hok => exact hc.assign hv hok
  | append hv hok => exact hc.append hv hok
  | materialize key template => exact hc.materialize _ key template
  | mergeLangs left right => exact hc.mergeLangs left right
  | addParent hok => exact hc.addParent hok
  | newList hi => exact hc.newList trivial hi
  | newMap hm => exact hc.newMap hm
  | putEntry m key hv => exact hc.setMap m ((hc.map m).insert key hv)
  | warm => exact hc.setMemo _
  | describe c hf =>
    refine hc.modifyContainer (becomes_of_described (hf _)) ?_
    have hv := hc.container c
    rw [hf]
    exact ⟨hv.kind, hv.attrs, hv.aliases⟩
  | @keepFile c data hb =>
    have hv := hc.container c
    exact hc.modifyContainer ⟨hb, rfl, fun _ _ hg => hg, fun _ _ hg => hg⟩
      { hv with kind := FuncData.Valid.of_becomes hv.kind hb }

theorem Reachable.closed (hr : h.Reachable) : h.Closed :=
  hr.induction closed_empty fun _ _ _ hc hs => hs.closed hc

/-! ## A step keeps the class graph lineal -/

theorem parents_of_kind {c : ContainerId} (hk : (h'.container c).kind = (h.container c).kind) :
    h'.parents c = h.parents c := by
  rw [parents, hk]
  rfl

theorem parents_alloc {c : Container} (hc : ∀ data, c.kind = .cls data → data = {})
    (d : ContainerId) : (h.alloc c).2.parents d = h.parents d := by
  by_cases hd : d.index = h.containers.size
  · have hold : h.parents d = [] := by
      rw [parents, container_of_size_le (Nat.le_of_eq hd.symm)]
      rfl
    rw [hold, parents, container_alloc, if_pos hd]
    split
    · rename_i data hk
      rw [hc data hk]
    · rfl
  · refine parents_of_kind ?_
    rw [container_alloc, if_neg hd]

namespace Lineal

theorem of_containers (hl : h.Lineal) (hc : h'.containers = h.containers) (hm : h'.memo = h.memo) :
    h'.Lineal := by
  have hcon : ∀ c, h'.container c = h.container c := fun c => by rw [container, hc]; rfl
  refine hl.congr (hc ▸ Nat.le_refl _) ?_ ?_ (fun c _ hcls => hcon c ▸ hcls) hm
  · intro c
    rw [parents, hcon c]
    rfl
  · intro c hcls
    rw [hcon c]
    exact ⟨hcls, rfl⟩

theorem isClass_of_kind {x y : Container} (hk : x.kind = y.kind) : x.isClass = y.isClass := by
  rw [Container.isClass, hk]
  rfl

/-- A container may change in all but what the class graph is read off. -/
theorem modifyContainer (hl : h.Lineal) (c : ContainerId) {f : Container → Container}
    (hk : (f (h.container c)).kind = (h.container c).kind ∨
      (h.container c).isClass = false ∧ (f (h.container c)).isClass = false)
    (ha : (h.container c).isClass = true →
      (f (h.container c)).attrs = (h.container c).attrs) : (h.modifyContainer c f).Lineal := by
  refine hl.congr (by simp) ?_ ?_ ?_ rfl
  · intro d
    rcases hk with hk | ⟨hold, hnew⟩
    · refine parents_of_kind ?_
      rw [container_modifyContainer]
      split
      · rename_i hcd
        rw [← hcd.1, hk]
      · rfl
    · by_cases hcd : c = d ∧ c.index < h.containers.size
      · obtain ⟨rfl, hlt⟩ := hcd
        have hnew' : ¬ ((h.modifyContainer c f).container c).isClass = true := by
          rw [container_modifyContainer, if_pos ⟨rfl, hlt⟩, hnew]
          exact Bool.false_ne_true
        rw [parents_of_not_isClass hnew', parents_of_not_isClass (by simp [hold])]
      · refine parents_of_kind ?_
        rw [container_modifyContainer, if_neg hcd]
  · intro d hd
    rw [container_modifyContainer]
    split
    · rename_i hcd
      obtain ⟨rfl, -⟩ := hcd
      rcases hk with hk | ⟨hold, -⟩
      · exact ⟨isClass_of_kind hk ▸ hd, ha hd⟩
      · rw [hold] at hd
        cases hd
    · exact ⟨hd, rfl⟩
  · intro d _ hd
    rw [container_modifyContainer] at hd
    split at hd
    · rename_i hcd
      obtain ⟨rfl, -⟩ := hcd
      rcases hk with hk | ⟨-, hnew⟩
      · exact isClass_of_kind hk ▸ hd
      · rw [hnew] at hd
        cases hd
    · exact hd

theorem alloc (hl : h.Lineal) {c : Container} (hc : ∀ data, c.kind = .cls data → data = {}) :
    (h.alloc c).2.Lineal := by
  refine hl.congr (grows_alloc h c).containers (parents_alloc hc) ?_ ?_ rfl
  · intro d hd
    rw [container_alloc, if_neg (Nat.ne_of_lt (lt_size_of_isClass hd))]
    exact ⟨hd, rfl⟩
  · intro d hlt hd
    rw [container_alloc, if_neg (Nat.ne_of_lt hlt)] at hd
    exact hd

/-- A container that is not a class may get an attribute. -/
theorem attach (hl : h.Lineal) {c : ContainerId} (hc : (h.container c).isClass = false)
    (name : String) (s : SlotId) : (h.attach c name s).Lineal := by
  refine hl.modifyContainer c (.inl rfl) ?_
  intro hcls
  rw [hc] at hcls
  cases hcls

end Lineal

theorem parents_eq (c : ContainerId) : h.parents c = (h.container c).kind.parents := by
  unfold parents
  cases (h.container c).kind <;> rfl

theorem parents_addConflicts (c d : ContainerId) (found : List Conflict) :
    (h.addConflicts c found).parents d = h.parents d := by
  rw [parents_eq, parents_eq, addConflicts, container_modifyContainer]
  split
  · split
    · rename_i data hk
      rw [hk]
      rfl
    · rfl
  · rfl

theorem isClass_addConflicts (c d : ContainerId) (found : List Conflict) :
    ((h.addConflicts c found).container d).isClass = (h.container d).isClass := by
  rw [addConflicts, container_modifyContainer]
  split
  · cases hk : (h.container d).kind <;> simp [Container.isClass, hk]
  · rfl

namespace Lineal

theorem declare (hl : h.Lineal) {owner : ContainerId} {name : String} {d : Declared} {s : SlotId}
    (hok : h.declare owner name d = .ok (s, h')) : h'.Lineal := by
  obtain ⟨-, rfl, hplain | hclass⟩ := declare_inv hok
  · obtain ⟨hcls, rfl⟩ := hplain
    have hnew : (h.newSlot (.declare name d)).2.Lineal := hl.of_containers rfl rfl
    exact hnew.attach hcls name _
  · obtain ⟨-, found, -, rfl⟩ := hclass
    -- The memo is dropped, and a new attribute leaves the graph alone.
    have hpar : ∀ x, ((((h.newSlot (.declare name d)).2.addConflicts owner found).attach owner name
        ⟨h.slots.size⟩).forgetAncestries).parents x = h.parents x := by
      intro x
      refine Eq.trans (parents_of_kind ?_) (parents_addConflicts owner x found)
      show ((Heap.attach _ owner name _).container x).kind = _
      rw [Heap.attach, container_modifyContainer]
      split <;> rfl
    have hcls : ∀ x, (h.container x).isClass = true → ((((h.newSlot
        (.declare name d)).2.addConflicts owner found).attach owner name
        ⟨h.slots.size⟩).forgetAncestries.container x).isClass = true := by
      intro x hx
      show ((Heap.attach _ owner name _).container x).isClass = true
      rw [Heap.attach, container_modifyContainer]
      split
      · exact (isClass_addConflicts owner x found).trans hx
      · exact (isClass_addConflicts owner x found).trans hx
    refine of_graph rfl (hl.acyclic.congr hpar) ?_
    intro x p hp
    exact hcls p (hl.parent_isClass x p (hpar x ▸ hp))

theorem mem_parents_withParent {c parent x p : ContainerId}
    (hp : p ∈ (h.modifyContainer c (withParent parent)).parents x) :
    p ∈ h.parents x ∨ (x = c ∧ p = parent) := by
  rw [parents_eq, container_modifyContainer] at hp
  rw [parents_eq]
  split at hp
  · rename_i hcx
    unfold withParent at hp
    split at hp
    · rename_i data hk
      rw [hk]
      rcases List.mem_append.1 hp with hp | hp
      · exact .inl hp
      · exact .inr ⟨hcx.1.symm, List.mem_singleton.1 hp⟩
    · exact .inl hp
  · exact .inl hp

theorem isClass_withParent (parent : ContainerId) (c : Container) :
    (withParent parent c).isClass = c.isClass := by
  unfold withParent
  split
  · rename_i data hk
    rw [Container.isClass, Container.isClass, hk]
  · rfl

theorem addParent (hl : h.Lineal) {c parent : ContainerId} (hok : h.addParent c parent = .ok h') :
    h'.Lineal := by
  obtain ⟨hparent, hnew, -, found, -, rfl⟩ := addParent_inv hok
  have hpar : ∀ x p, p ∈ (((h.addConflicts c found).modifyContainer c
      (withParent parent)).forgetAncestries).parents x →
      p ∈ h.parents x ∨ (x = c ∧ p = parent) := by
    intro x p hp
    rw [← parents_addConflicts c x found]
    exact mem_parents_withParent hp
  have hcls : ∀ x, (h.container x).isClass = true → (((h.addConflicts c found).modifyContainer c
      (withParent parent)).forgetAncestries.container x).isClass = true := by
    intro x hx
    show (((h.addConflicts c found).modifyContainer c (withParent parent)).container x).isClass = _
    rw [container_modifyContainer]
    split
    · rw [isClass_withParent]
      exact (isClass_addConflicts c x found).trans hx
    · exact (isClass_addConflicts c x found).trans hx
  refine of_graph rfl (hl.acyclic.addEdge ?_ hpar) ?_
  · show ¬ h.Subclass parent c
    rw [← hl.isSubclass_iff, hnew]
    simp
  · intro x p hp
    rcases hpar x p hp with hold | ⟨-, rfl⟩
    · exact hcls p (hl.parent_isClass x p hold)
    · exact hcls p hparent

theorem mergeLangs (hl : h.Lineal) (left right : ContainerId) :
    (h.mergeLangs left right).2.Lineal := by
  have hcopy : (h.copySlots (h.mergeSources left right)).2.Lineal :=
    copySlots_induction (P := fun _ g => g.Lineal) _ hl
      fun _ _ _ _ _ hg => hg.of_containers rfl rfl
  exact hcopy.alloc fun _ hk => nomatch hk

theorem assign (hl : h.Lineal) {s : SlotId} {v : Value} (hok : h.assign s v = .ok h') :
    h'.Lineal := by
  obtain ⟨-, rfl⟩ | ⟨-, -, rfl⟩ := assign_inv hok
  · exact hl.of_containers rfl rfl
  · rcases settle_cases (h := h) (h.slot s).declared (h.slot s).value v with
      hs | ⟨a, b, -, -, hs, -⟩ | ⟨l, -, -, -, -, hs⟩
    · rw [hs]
      exact hl.of_containers rfl rfl
    · rw [hs]
      exact (hl.mergeLangs a b).of_containers rfl rfl
    · rw [hs]
      exact hl.of_containers rfl rfl

theorem materialize (hl : h.Lineal) {inst : ContainerId} (hi : h.IsKind .inst inst) (key : String)
    (template : SlotId) : (h.materialize inst key template).2.Lineal := by
  rcases materialize_cases (h := h) inst key template with ⟨s, -, hm⟩ | ⟨-, hm⟩
  · rw [hm]
    exact hl
  · rw [hm]
    have hnew : (h.newSlot { h.slot template with name := key }).2.Lineal :=
      hl.of_containers rfl rfl
    refine hnew.attach ?_ key _
    rw [← Bool.not_eq_true, ← isKind_cls_iff]
    intro hcls
    exact nomatch hi.symm.trans hcls

end Lineal

theorem lineal_empty : Heap.empty.Lineal :=
  .of_graph rfl (fun _ _ hp => nomatch hp) (fun _ _ hp => nomatch hp)

theorem Step.lineal (hs : h.Step h') (hl : h.Lineal) : h'.Lineal := by
  cases hs with
  | alloc hf => exact hl.alloc hf.cls
  | declare _ hok => exact hl.declare hok
  | insertAlias _ hok =>
    obtain ⟨-, rfl⟩ := insertAlias_inv hok
    exact hl.modifyContainer _ (.inl rfl) fun _ => rfl
  | assign _ _ hok => exact hl.assign hok
  | append _ hok =>
    obtain ⟨-, -, rfl⟩ := append_inv hok
    exact hl.of_containers rfl rfl
  | materialize key template hi => exact hl.materialize hi key template
  | mergeLangs left right => exact hl.mergeLangs left right
  | addParent hok => exact hl.addParent hok
  | newList => exact hl.of_containers rfl rfl
  | newMap => exact hl.of_containers rfl rfl
  | putEntry => exact hl.of_containers rfl rfl
  | warm hc => exact hl.warm hc.lt_size
  | describe c hf =>
    refine hl.modifyContainer c (.inl ?_) fun _ => ?_
    · rw [hf]
    · rw [hf]
  | @keepFile c data hb =>
    refine hl.modifyContainer c (.inr ⟨?_, rfl⟩) fun _ => rfl
    cases hk : (h.container c).kind <;> rw [hk] at hb <;> simp [Container.isClass, hk]
    cases hb

theorem Steps.lineal (hs : h.Steps h') (hl : h.Lineal) : h'.Lineal := by
  induction hs with
  | refl => exact hl
  | tail _ hs ih => exact hs.lineal ih

theorem Reachable.lineal (hr : h.Reachable) : h.Lineal :=
  hr.induction lineal_empty fun _ _ _ hl hs => hs.lineal hl

end Heap
end Ditlang
