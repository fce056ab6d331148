import Ditlang.Eval.Deeper
import Ditlang.Proofs.Heap.Validity

/-!
# Ditlang.Proofs.Heap.Unplaced

Stores without source coordinates. `Heap.unplaced` forgets where in a source the bodies of
containers stand and keeps their texts; of the body of the main dit, which is the last source that
was run, it forgets the text too. Nothing that a program does to the store looks at what is
forgotten: every operation does the same without it, and that is said once for each of them. So
two stores that are the same without source coordinates (`Heap.Alike`) stay so under all
operations.
-/

namespace Ditlang

open Source (Location View)

/-- The view as a text of its own. The offsets of every view that is made start at zero; any other
view is left as it is. -/
def Source.View.unplaced (v : View) : View :=
  if v.startLoc.pos = 0 then .ofBytes v.bytes else v

/-- The body as if it were defined in a text of its own. -/
def Body.unplaced (b : Body) : Body :=
  { b with view := b.view.unplaced, defLoc := .start }

/-- The container with its body as a text of its own; what the main dit records is left out. -/
def Container.unplaced (main : Bool) (c : Container) : Container :=
  { c with body :=
      if main ∧ c.kind.valueKind? = some .dit then none else c.body.map Body.unplaced }

def Heap.unplaced (h : Heap) (main : ContainerId) : Heap :=
  { h with containers := h.containers.mapIdx fun i c => c.unplaced (i == main.index) }

def Heap.Alike (main : ContainerId) (h k : Heap) : Prop :=
  h.unplaced main = k.unplaced main

namespace Container

variable (main : Bool) (c : Container)

@[simp] theorem name_unplaced : (c.unplaced main).name = c.name := rfl

@[simp] theorem kind_unplaced : (c.unplaced main).kind = c.kind := rfl

@[simp] theorem attrs_unplaced : (c.unplaced main).attrs = c.attrs := rfl

@[simp] theorem aliases_unplaced : (c.unplaced main).aliases = c.aliases := rfl

@[simp] theorem scope_unplaced : (c.unplaced main).scope = c.scope := rfl

@[simp] theorem displayName_unplaced : (c.unplaced main).displayName = c.displayName := rfl

@[simp] theorem find?_unplaced (name : String) : (c.unplaced main).find? name = c.find? name := rfl

@[simp] theorem isClass_unplaced : (c.unplaced main).isClass = c.isClass := rfl

end Container

namespace Heap

variable (h : Heap) (m : ContainerId)

/-! ## Parts of the store -/

@[simp] theorem slots_unplaced : (h.unplaced m).slots = h.slots := rfl

@[simp] theorem lists_unplaced : (h.unplaced m).lists = h.lists := rfl

@[simp] theorem maps_unplaced : (h.unplaced m).maps = h.maps := rfl

@[simp] theorem memo_unplaced : (h.unplaced m).memo = h.memo := rfl

@[simp] theorem size_unplaced : (h.unplaced m).containers.size = h.containers.size := by
  simp [unplaced]

@[simp] theorem slot_unplaced (s : SlotId) : (h.unplaced m).slot s = h.slot s := rfl

@[simp] theorem value_unplaced : (h.unplaced m).value = h.value := rfl

@[simp] theorem list_unplaced (l : ListId) : (h.unplaced m).list l = h.list l := rfl

@[simp] theorem map_unplaced (k : MapId) : (h.unplaced m).map k = h.map k := rfl

@[simp] theorem container_unplaced (c : ContainerId) :
    (h.unplaced m).container c = (h.container c).unplaced (c.index == m.index) := by
  simp only [container, unplaced, Array.getD_eq_getD_getElem?, Array.getElem?_mapIdx]
  cases h.containers[c.index]? with
  | none => simp [Container.unplaced, default, ContainerKind.valueKind?]
  | some x => rfl

/-! ## Making and changing things -/

theorem alloc_unplaced (c : Container) :
    (h.unplaced m).alloc (c.unplaced (h.containers.size == m.index)) =
      ((h.alloc c).1, (h.alloc c).2.unplaced m) := by
  simp [alloc, unplaced, Array.mapIdx_push]

theorem alloc_unplaced_bodiless {c : Container} (hc : c.body = none) :
    (h.unplaced m).alloc c = ((h.alloc c).1, (h.alloc c).2.unplaced m) := by
  have hsame : c.unplaced (h.containers.size == m.index) = c := by
    cases c
    cases hc
    simp [Container.unplaced]
  rw [← alloc_unplaced, hsame]

theorem setContainer_container (c : ContainerId) : h.setContainer c (h.container c) = h := by
  have hsame : h.containers.setIfInBounds c.index (h.container c) = h.containers := by
    ext i hi hi'
    · simp
    · by_cases hc : c.index = i
      · subst hc
        simp [container, Array.getD_eq_getD_getElem?, hi']
      · rw [Array.getElem_setIfInBounds_ne hi' hc]
  rw [setContainer, hsame]

theorem setContainer_unplaced (c : ContainerId) (new : Container) :
    (h.setContainer c new).unplaced m =
      (h.unplaced m).setContainer c (new.unplaced (c.index == m.index)) := by
  simp [setContainer, unplaced, Array.mapIdx_setIfInBounds]

/-- A change of a container that treats its body as the change without source coordinates does. -/
theorem modifyContainer_unplaced (c : ContainerId) {f : Container → Container}
    (hf : ∀ b x, (f x).unplaced b = f (x.unplaced b)) :
    (h.unplaced m).modifyContainer c f = (h.modifyContainer c f).unplaced m := by
  rw [modifyContainer, modifyContainer, setContainer_unplaced, hf, container_unplaced]

/-! ## Names -/

@[simp] theorem nameOf_unplaced (c : ContainerId) : (h.unplaced m).nameOf c = h.nameOf c := by
  simp [nameOf]

@[simp] theorem findLocal?_unplaced (c : ContainerId) (name : String) :
    (h.unplaced m).findLocal? c name = h.findLocal? c name := by
  simp [findLocal?]

theorem findWithin?_unplaced (n : Nat) (c : ContainerId) (name : String) :
    (h.unplaced m).findWithin? n c name = h.findWithin? n c name := by
  induction n generalizing c with
  | zero => rfl
  | succ n ih => simp [findWithin?, ih]

@[simp] theorem findInScope?_unplaced (c : ContainerId) (name : String) :
    (h.unplaced m).findInScope? c name = h.findInScope? c name :=
  findWithin?_unplaced h m _ c name

theorem resolver_unplaced (c : ContainerId) : (h.unplaced m).resolver c = h.resolver c := by
  funext name
  simp [resolver]

/-! ## Classes -/

@[simp] theorem parents_unplaced (c : ContainerId) : (h.unplaced m).parents c = h.parents c := by
  simp [parents]

@[simp] theorem conflicts_unplaced (c : ContainerId) :
    (h.unplaced m).conflicts c = h.conflicts c := by
  simp [conflicts]

@[simp] theorem classOf?_unplaced (c : ContainerId) : (h.unplaced m).classOf? c = h.classOf? c := by
  simp [classOf?]

@[simp] theorem classOfValue?_unplaced (v : Value) :
    (h.unplaced m).classOfValue? v = h.classOfValue? v := by
  cases v <;> simp [classOfValue?]

theorem walk_step_unplaced (w : Walk) : w.step (h.unplaced m) = w.step h := by
  simp [Walk.step, combineAncestry]

theorem walk_run_unplaced (n : Nat) (w : Walk) : w.run (h.unplaced m) n = w.run h n := by
  induction n generalizing w with
  | zero => rfl
  | succ n ih => rw [Walk.run, Walk.run, walk_step_unplaced, ih]

@[simp] theorem walkMemo_unplaced (c : ContainerId) :
    (h.unplaced m).walkMemo c = h.walkMemo c := by
  simp [walkMemo, walkBound, walk_run_unplaced]

@[simp] theorem ancestry_unplaced (c : ContainerId) :
    (h.unplaced m).ancestry c = h.ancestry c := by
  simp [ancestry]

@[simp] theorem isSubclass_unplaced (c d : ContainerId) :
    (h.unplaced m).isSubclass c d = h.isSubclass c d := by
  simp [isSubclass]

theorem classMember_unplaced (c : ContainerId) (name : String) :
    (h.unplaced m).classMember c name = h.classMember c name := by
  simp [classMember]

@[simp] theorem looksFurther_unplaced (c : ContainerId) (name : String) :
    (h.unplaced m).looksFurther c name = h.looksFurther c name := by
  simp [looksFurther]

/-! ## Members -/

@[simp] theorem memberKey_unplaced (qualifier : Option ContainerId) (name : String) :
    (h.unplaced m).memberKey qualifier name = h.memberKey qualifier name := by
  cases qualifier <;> simp [memberKey]

@[simp] theorem lookupClass?_unplaced (base : Value) (qualifier : Option ContainerId)
    (name : String) :
    (h.unplaced m).lookupClass? base qualifier name = h.lookupClass? base qualifier name := by
  cases base <;> simp [lookupClass?]

theorem member_unplaced (base : Value) (qualifier : Option ContainerId) (name : String) :
    (h.unplaced m).member base qualifier name = h.member base qualifier name := by
  cases base <;>
    simp [member, plainMember, memberOfClass, instanceMember, classMember_unplaced]

/-! ## Types -/

@[simp] theorem typeLabel_unplaced (ty : TypeSpec) :
    (h.unplaced m).typeLabel ty = h.typeLabel ty := by
  cases ty <;> simp [typeLabel]

@[simp] theorem declaredLabel_unplaced (d : Declared) :
    (h.unplaced m).declaredLabel d = h.declaredLabel d := by
  simp [declaredLabel]

@[simp] theorem valueLabel_unplaced (v : Value) : (h.unplaced m).valueLabel v = h.valueLabel v := by
  cases v <;> simp [valueLabel]

@[simp] theorem scalarFits_unplaced (v : Value) (ty : TypeSpec) :
    (h.unplaced m).scalarFits v ty = h.scalarFits v ty := by
  cases ty <;> cases v <;> simp [scalarFits]

@[simp] theorem elemFits_unplaced (have_ want : TypeSpec) :
    (h.unplaced m).elemFits have_ want = h.elemFits have_ want := by
  cases have_ <;> cases want <;> simp [elemFits]

theorem listMismatch?_unplaced (elem : TypeSpec) (n : Nat) (l : ListId) :
    (h.unplaced m).listMismatch? elem n l = h.listMismatch? elem n l := by
  induction n generalizing l with
  | zero => rfl
  | succ n ih => simp [listMismatch?, ih]

@[simp] theorem checkList_unplaced (l : ListId) (elem : TypeSpec) :
    (h.unplaced m).checkList l elem = h.checkList l elem := by
  simp [checkList, listMismatch?_unplaced]

@[simp] theorem checkValue_unplaced (v : Value) (d : Declared) :
    (h.unplaced m).checkValue v d = h.checkValue v d := by
  simp [checkValue]

@[simp] theorem elementFits_unplaced (v : Value) (elem : TypeSpec) :
    (h.unplaced m).elementFits v elem = h.elementFits v elem := by
  cases v <;> simp [elementFits]

theorem reachesWithin_unplaced (needle : ListId) (n : Nat) (l : ListId) :
    (h.unplaced m).reachesWithin needle n l = h.reachesWithin needle n l := by
  induction n generalizing l with
  | zero => rfl
  | succ n ih => simp [reachesWithin, ih]

@[simp] theorem closesCycle_unplaced (l : ListId) (v : Value) :
    (h.unplaced m).closesCycle l v = h.closesCycle l v := by
  cases v <;> simp [closesCycle, listContains, reachesWithin_unplaced]

/-! ## Asking for ancestries -/

theorem warmAll_unplaced (asked : List ContainerId) :
    (h.unplaced m).warmAll asked = (h.warmAll asked).unplaced m := by
  have hwarm (h : Heap) (c : ContainerId) : (h.unplaced m).warm c = (h.warm c).unplaced m := by
    rw [warm, walkMemo_unplaced]
    rfl
  induction asked generalizing h with
  | nil => rfl
  | cons c cs ih =>
    change ((h.unplaced m).warm c).warmAll cs = _
    rw [hwarm, ih]
    rfl

@[simp] theorem scalarAsks_unplaced (v : Value) (ty : TypeSpec) :
    (h.unplaced m).scalarAsks v ty = h.scalarAsks v ty := by
  simp [scalarAsks]

@[simp] theorem listAsks_unplaced (elem : TypeSpec) (n : Nat) (l : ListId) :
    (h.unplaced m).listAsks elem n l = h.listAsks elem n l := by
  induction n generalizing l with
  | zero => rfl
  | succ n ih =>
    simp only [listAsks, list_unplaced, elemFits_unplaced, listMismatch?_unplaced, scalarFits_unplaced,
      scalarAsks_unplaced, ih]
    rfl

@[simp] theorem checkAsks_unplaced (v : Value) (d : Declared) :
    (h.unplaced m).checkAsks v d = h.checkAsks v d := by
  simp [checkAsks]

theorem warmAssign_unplaced (s : SlotId) (v : Value) :
    (h.unplaced m).warmAssign s v = (h.warmAssign s v).unplaced m := by
  have hasks : (h.unplaced m).assignAsks s v = h.assignAsks s v := by
    simp [assignAsks]
  rw [warmAssign, warmAll_unplaced, hasks]
  rfl

theorem warmAppend_unplaced (l : ListId) (v : Value) :
    (h.unplaced m).warmAppend l v = (h.warmAppend l v).unplaced m := by
  have hasks : (h.unplaced m).appendAsks l v = h.appendAsks l v := by
    simp [appendAsks]
  rw [warmAppend, warmAll_unplaced, hasks]
  rfl

theorem warmMember_unplaced (base : Value) (qualifier : Option ContainerId) (name : String) :
    (h.unplaced m).warmMember base qualifier name =
      (h.warmMember base qualifier name).unplaced m := by
  have hwarm (c : ContainerId) : (h.unplaced m).warmLookup c name = (h.warmLookup c name).unplaced m := by
    rw [warmLookup, warmAll_unplaced, lookupAsks, looksFurther_unplaced]
    rfl
  unfold warmMember
  rw [lookupClass?_unplaced]
  cases h.lookupClass? base qualifier name with
  | none => rfl
  | some c => exact hwarm c

/-! ## Texts -/

theorem unfold_unplaced (n : Nat) (v : Value) : (h.unplaced m).unfold n v = h.unfold n v := by
  induction n generalizing v with
  | zero => rfl
  | succ n ih => cases v <;> simp [unfold, ih]

@[simp] theorem tree_unplaced (v : Value) : (h.unplaced m).tree v = h.tree v := by
  simp [tree, unfold_unplaced]

@[simp] theorem refText_unplaced (v : Value) : (h.unplaced m).refText v = h.refText v := by
  cases v <;> simp [refText]

end Heap

namespace Tree

variable (h : Heap) (m : ContainerId)

mutual

theorem renderNested_unplaced : ∀ t : Tree, t.renderNested (h.unplaced m) = t.renderNested h
  | .null | .str _ | .bool _ | .num _ | .cut => by simp [renderNested]
  | .list _ items => by simp [renderNested, renderItems_unplaced items]
  | .json entries => by simp [renderNested, renderEntries_unplaced entries]
  | .ref v => by simp [renderNested]

theorem renderItems_unplaced : ∀ ts : List Tree, renderItems (h.unplaced m) ts = renderItems h ts
  | [] => by simp [renderItems]
  | t :: rest => by simp [renderItems, renderNested_unplaced t, renderItems_unplaced rest]

theorem renderEntries_unplaced :
    ∀ es : List (String × Tree), renderEntries (h.unplaced m) es = renderEntries h es
  | [] => by simp [renderEntries]
  | (_, t) :: rest => by simp [renderEntries, renderNested_unplaced t, renderEntries_unplaced rest]

end

mutual

theorem toJson_unplaced : ∀ t : Tree, t.toJson (h.unplaced m) = t.toJson h
  | .null | .str _ | .bool _ | .num _ | .cut => by simp [toJson]
  | .list _ items => by simp [toJson, itemsToJson_unplaced items]
  | .json entries => by simp [toJson, entriesToJson_unplaced entries]
  | .ref v => by simp [toJson]

theorem itemsToJson_unplaced : ∀ ts : List Tree, itemsToJson (h.unplaced m) ts = itemsToJson h ts
  | [] => by simp [itemsToJson]
  | t :: rest => by simp [itemsToJson, toJson_unplaced t, itemsToJson_unplaced rest]

theorem entriesToJson_unplaced :
    ∀ es : List (String × Tree), entriesToJson (h.unplaced m) es = entriesToJson h es
  | [] => by simp [entriesToJson]
  | (_, t) :: rest => by simp [entriesToJson, toJson_unplaced t, entriesToJson_unplaced rest]

end

theorem render_unplaced (t : Tree) : t.render (h.unplaced m) = t.render h := by
  cases t <;> simp [render, renderNested_unplaced]

end Tree

namespace Heap

variable (h : Heap) (m : ContainerId)

theorem render?_unplaced (v : Value) : (h.unplaced m).render? v = h.render? v := by
  simp [render?, Tree.render_unplaced]

theorem toJson?_unplaced (v : Value) : (h.unplaced m).toJson? v = h.toJson? v := by
  simp [toJson?, Tree.toJson_unplaced]

/-! ## Writes -/

@[simp] theorem setValue_unplaced (s : SlotId) (v : Value) :
    (h.unplaced m).setValue s v = (h.setValue s v).unplaced m := rfl

theorem attach_unplaced (owner : ContainerId) (name : String) (s : SlotId) :
    (h.unplaced m).attach owner name s = (h.attach owner name s).unplaced m :=
  modifyContainer_unplaced h m owner fun _ _ => rfl

theorem addConflicts_unplaced (c : ContainerId) (found : List Conflict) :
    (h.unplaced m).addConflicts c found = (h.addConflicts c found).unplaced m := by
  refine modifyContainer_unplaced h m c fun b x => ?_
  rw [Container.kind_unplaced]
  cases hk : x.kind <;> simp [Container.unplaced, ContainerKind.valueKind?, hk]

theorem declare_unplaced (owner : ContainerId) (name : String) (d : Declared) :
    (h.unplaced m).declare owner name d =
      (h.declare owner name d).map (Prod.map id (·.unplaced m)) := by
  unfold declare
  rw [findLocal?_unplaced]
  split
  · rfl
  · have hslot : (h.unplaced m).newSlot (.declare name d) =
        ((h.newSlot (.declare name d)).1, (h.newSlot (.declare name d)).2.unplaced m) := rfl
    generalize h.newSlot (.declare name d) = made at hslot
    rw [hslot]
    dsimp only
    rw [container_unplaced, Container.isClass_unplaced]
    split
    · have hfound : (made.2.unplaced m).overrideConflicts owner name =
          made.2.overrideConflicts owner name := by simp [overrideConflicts]
      rw [hfound, addConflicts_unplaced, attach_unplaced]
      rfl
    · rw [attach_unplaced]
      rfl

theorem insertAlias_unplaced (c : ContainerId) (name : String) (s : SlotId) :
    (h.unplaced m).insertAlias c name s = (h.insertAlias c name s).map (·.unplaced m) := by
  unfold insertAlias
  rw [findLocal?_unplaced]
  split
  · rfl
  · exact congrArg _ (modifyContainer_unplaced h m c fun _ _ => rfl)

theorem addParent_unplaced (c parent : ContainerId) :
    (h.unplaced m).addParent c parent = (h.addParent c parent).map (·.unplaced m) := by
  have hdefiners : (h.unplaced m).parentDefiners c = h.parentDefiners c := by
    simp [parentDefiners]
  have hname : (h.unplaced m).conflictsOfName c = h.conflictsOfName c := by
    funext existing name defs
    simp [conflictsOfName]
  have hinherited : (h.unplaced m).inheritedConflicts c parent = h.inheritedConflicts c parent := by
    simp [inheritedConflicts]
  unfold addParent
  simp only [container_unplaced, Container.isClass_unplaced, nameOf_unplaced, isSubclass_unplaced,
    parents_unplaced, ancestry_unplaced, hdefiners, hname, hinherited, addConflicts_unplaced]
  split
  · rfl
  · split
    · rfl
    · split
      · rfl
      · rw [modifyContainer_unplaced]
        · rfl
        · intro b x
          rw [Container.kind_unplaced]
          cases hk : x.kind <;> simp [Container.unplaced, ContainerKind.valueKind?, hk]

theorem newInstance_unplaced (cls : ContainerId) :
    (h.unplaced m).newInstance cls = ((h.newInstance cls).1, (h.newInstance cls).2.unplaced m) := by
  unfold newInstance
  rw [container_unplaced, Container.name_unplaced]
  exact alloc_unplaced_bodiless h m rfl

theorem materialize_unplaced (inst : ContainerId) (key : String) (template : SlotId) :
    (h.unplaced m).materialize inst key template =
      ((h.materialize inst key template).1, (h.materialize inst key template).2.unplaced m) := by
  unfold materialize
  rw [container_unplaced, Container.attrs_unplaced]
  split
  · rfl
  · have hattach := attach_unplaced (h.newSlot { h.slot template with name := key }).2 m inst key
    exact Prod.ext rfl (hattach _)

theorem copySlots_unplaced (chosen : List (String × SlotId)) :
    (h.unplaced m).copySlots chosen =
      ((h.copySlots chosen).1, (h.copySlots chosen).2.unplaced m) := by
  unfold copySlots
  generalize OrderedMap.empty = attrs
  induction chosen generalizing h attrs with
  | nil => rfl
  | cons entry chosen ih =>
    obtain ⟨name, s⟩ := entry
    exact ih (h.newSlot (h.slot s)).2 (attrs.insert name (h.newSlot (h.slot s)).1)

theorem mergeLangs_unplaced (left right : ContainerId) :
    (h.unplaced m).mergeLangs left right =
      ((h.mergeLangs left right).1, (h.mergeLangs left right).2.unplaced m) := by
  have hsources : (h.unplaced m).mergeSources left right = h.mergeSources left right := by
    simp [mergeSources, priority]
  unfold mergeLangs
  rw [hsources, copySlots_unplaced]
  dsimp only
  rw [container_unplaced, Container.name_unplaced, Container.scope_unplaced]
  exact alloc_unplaced_bodiless _ m rfl

theorem settle_unplaced (d : Declared) (old new : Value) :
    (h.unplaced m).settle d old new =
      ((h.settle d old new).1, (h.settle d old new).2.unplaced m) := by
  unfold settle
  split
  · split
    · rfl
    · rw [mergeLangs_unplaced]
  · rw [list_unplaced]
    split
    · rfl
    · rfl
  · rfl

theorem assign_unplaced (s : SlotId) (v : Value) :
    (h.unplaced m).assign s v = (h.assign s v).map (·.unplaced m) := by
  unfold assign
  dsimp only
  rw [slot_unplaced, checkValue_unplaced, settle_unplaced]
  split
  · rfl
  · split
    · rfl
    · rfl

theorem append_unplaced (l : ListId) (v : Value) :
    (h.unplaced m).append l v = (h.append l v).map (·.unplaced m) := by
  unfold append
  dsimp only
  rw [list_unplaced, closesCycle_unplaced, elementFits_unplaced, typeLabel_unplaced,
    valueLabel_unplaced]
  split
  · rfl
  · split
    · rfl
    · rfl

theorem storeKeys_unplaced (k : MapId) (last : String) (v : Value) (keys : List String) :
    (h.unplaced m).storeKeys k last v keys = (h.storeKeys k last v keys).map (·.unplaced m) := by
  induction keys generalizing h k with
  | nil => rfl
  | cons key keys ih =>
    unfold storeKeys
    rw [map_unplaced]
    split
    · exact ih h _
    · exact ih ((h.newMap .empty).2.putEntry k key (.jsonRef (h.newMap .empty).1)) _
    · rfl

mutual

theorem ofJson_unplaced (h : Heap) (m : ContainerId) : ∀ j : Json,
    (h.unplaced m).ofJson j = ((h.ofJson j).1, (h.ofJson j).2.unplaced m)
  | .null | .bool _ | .int _ | .real _ | .str _ => by
    unfold ofJson
    rfl
  | .arr items => by
    unfold ofJson
    rw [ofJsonItems_unplaced h m items]
    rfl
  | .obj fields => by
    unfold ofJson
    rw [ofJsonFields_unplaced h m fields]
    rfl

theorem ofJsonItems_unplaced (h : Heap) (m : ContainerId) : ∀ items : List Json,
    (h.unplaced m).ofJsonItems items =
      ((h.ofJsonItems items).1, (h.ofJsonItems items).2.unplaced m)
  | [] => by
    unfold ofJsonItems
    rfl
  | item :: rest => by
    unfold ofJsonItems
    rw [ofJson_unplaced h m item]
    dsimp only
    rw [ofJsonItems_unplaced _ m rest]

theorem ofJsonFields_unplaced (h : Heap) (m : ContainerId) : ∀ fields : List (String × Json),
    (h.unplaced m).ofJsonFields fields =
      ((h.ofJsonFields fields).1, (h.ofJsonFields fields).2.unplaced m)
  | [] => by
    unfold ofJsonFields
    rfl
  | (key, field) :: rest => by
    unfold ofJsonFields
    rw [ofJson_unplaced h m field]
    dsimp only
    rw [ofJsonFields_unplaced _ m rest]

end

/-! ## Reading paths -/

theorem readKeys_unplaced (v : Value) (keys : List String) :
    (h.unplaced m).readKeys v keys = h.readKeys v keys := by
  induction keys generalizing v with
  | nil => simp [readKeys]
  | cons key keys ih => cases v <;> simp [readKeys, ih]

theorem readOperand_unplaced (o : Operand) : (h.unplaced m).readOperand o = h.readOperand o := by
  cases o with
  | json root keys => cases root <;> exact readKeys_unplaced h m _ keys
  | member k => cases k <;> rfl
  | _ => rfl

/-! ## Bodies -/

theorem bodyTag_unplaced (c : ContainerId) :
    Eval.bodyTag (h.unplaced m) c = Eval.bodyTag h c := by
  simp [Eval.bodyTag]

end Heap

/-! ## Stores that are the same without source coordinates -/

@[simp] theorem Source.View.bytes_unplaced (v : View) : v.unplaced.bytes = v.bytes := by
  unfold unplaced
  split
  · rw [ofBytes, bytes, List.drop_zero, Nat.sub_zero, List.take_length]
  · rfl

theorem Source.View.bytes_eq {v w : View} (he : v.unplaced = w.unplaced) : v.bytes = w.bytes := by
  rw [← bytes_unplaced v, he, bytes_unplaced]

theorem Heap.IsKind.not_isKind {h : Heap} {c : ContainerId} {k l : ValueKind} (hc : h.IsKind k c)
    (hkl : k ≠ l) : ¬ h.IsKind l c :=
  fun hl => hkl (Option.some.inj (hc.symm.trans hl))

/-- `c` is there and is not a dit. -/
structure Heap.NoDit (h : Heap) (c : ContainerId) : Prop where
  lt_size : c.index < h.containers.size
  kind : ¬ h.IsKind .dit c

theorem Heap.NoDit.mono {h h' : Heap} {c : ContainerId} (g : h.Grows h') (hc : h.NoDit c) :
    h'.NoDit c := by
  refine ⟨Nat.lt_of_lt_of_le hc.lt_size g.containers, ?_⟩
  rw [IsKind, (g.container c hc.lt_size).kind.valueKind?_eq]
  exact hc.kind

theorem Heap.noDit_alloc {h : Heap} {c : Container} (hc : c.kind.valueKind? ≠ some .dit) :
    (h.alloc c).2.NoDit (h.alloc c).1 := by
  refine ⟨by simp [alloc], ?_⟩
  rw [IsKind, container_alloc, if_pos (by simp [alloc])]
  exact hc

theorem Body.unplaced_inj {b c : Body} (hbc : b.unplaced = c.unplaced) :
    b.path = c.path ∧ b.view.unplaced = c.view.unplaced ∧ b.interpreted = c.interpreted := by
  obtain ⟨hpath, hview, -, hinterpreted⟩ := Body.mk.inj hbc
  exact ⟨hpath, hview, hinterpreted⟩

theorem Container.unplaced_congr (c : Container) {x y : Option Body}
    (hxy : x.map Body.unplaced = y.map Body.unplaced) (main : Bool) :
    ({ c with body := x } : Container).unplaced main =
      ({ c with body := y } : Container).unplaced main := by
  rw [unplaced, unplaced, hxy]

theorem Container.unplaced_of_not_dit {c : Container} (hc : c.kind.valueKind? ≠ some .dit)
    (main : Bool) : c.unplaced main = { c with body := c.body.map Body.unplaced } := by
  simp [unplaced, hc]

namespace Heap.Alike

variable {m : ContainerId} {h k : Heap}

theorem refl (h : Heap) : h.Alike m h := rfl

/-- An operation that commutes with forgetting source coordinates does the same to both stores. -/
theorem map (he : h.Alike m k) {α : Type} {f : Heap → α} {g : α → α}
    (hf : ∀ h, f (h.unplaced m) = g (f h)) : g (f h) = g (f k) := by
  rw [← hf, he, hf]

/-- What is read without looking at source coordinates is the same in both stores. -/
theorem eq (he : h.Alike m k) {α : Type} {f : Heap → α} (hf : ∀ h, f (h.unplaced m) = f h) :
    f h = f k :=
  he.map (g := id) hf

theorem both (he : h.Alike m k) {α : Type} {f : Heap → α × Heap}
    (hf : ∀ h, f (h.unplaced m) = ((f h).1, (f h).2.unplaced m)) :
    (f h).1 = (f k).1 ∧ (f h).2.Alike m (f k).2 :=
  Prod.mk.inj (he.map (f := f) (g := fun r : α × Heap => (r.1, r.2.unplaced m)) hf)

theorem size (he : h.Alike m k) : h.containers.size = k.containers.size :=
  he.eq (f := (·.containers.size)) fun h => size_unplaced h m

theorem kind (he : h.Alike m k) (c : ContainerId) : (h.container c).kind = (k.container c).kind :=
  he.eq (f := fun h => (h.container c).kind) fun h => by simp

theorem setContainer (he : h.Alike m k) (c : ContainerId) {x y : Container}
    (hxy : ∀ b, x.unplaced b = y.unplaced b) :
    (h.setContainer c x).Alike m (k.setContainer c y) := by
  rw [Alike, setContainer_unplaced, setContainer_unplaced, hxy, he]

theorem bodiless (he : h.Alike m k) (c : ContainerId) :
    { h.container c with body := none } = { k.container c with body := none } := by
  have hsame : (h.unplaced m).container c = (k.unplaced m).container c :=
    congrArg (container · c) he
  rw [container_unplaced, container_unplaced] at hsame
  exact congrArg ({ · with body := none }) hsame

theorem setBody (he : h.Alike m k) (c : ContainerId) {x y : Option Body}
    (hxy : x.map Body.unplaced = y.map Body.unplaced) :
    (h.modifyContainer c ({ · with body := x })).Alike m
      (k.modifyContainer c ({ · with body := y })) := by
  refine he.setContainer c fun b => ?_
  have hsame := congrArg (fun z : Container => ({ z with body := y } : Container)) (he.bodiless c)
  exact ((h.container c).unplaced_congr hxy b).trans (congrArg (·.unplaced b) hsame)

/-- The bodies of containers that are not dits have equal texts. -/
theorem body (he : h.Alike m k) {c : ContainerId} (hc : ¬ h.IsKind .dit c) :
    (h.container c).body.map Body.unplaced = (k.container c).body.map Body.unplaced := by
  have hsame : (h.unplaced m).container c = (k.unplaced m).container c :=
    congrArg (container · c) he
  have hk : ¬ k.IsKind .dit c := by rwa [IsKind, ← he.kind]
  rw [container_unplaced, container_unplaced, Container.unplaced_of_not_dit hc,
    Container.unplaced_of_not_dit hk] at hsame
  exact congrArg Container.body hsame

/-- So have those of them that wait to be interpreted. -/
theorem waitingBody? (he : h.Alike m k) {c : ContainerId} (hc : ¬ h.IsKind .dit c) :
    (Eval.waitingBody? h c).map Body.unplaced = (Eval.waitingBody? k c).map Body.unplaced := by
  have hwaiting (h : Heap) : (Eval.waitingBody? h c).map Body.unplaced =
      ((h.container c).body.map Body.unplaced).filter (!·.interpreted) := by
    unfold Eval.waitingBody?
    cases (h.container c).body with
    | none => rfl
    | some b => cases hb : b.interpreted <;> simp [Body.unplaced, hb, Option.filter]
  rw [hwaiting, hwaiting, he.body hc]

theorem record (he : h.Alike m k) (hm : h.IsKind .dit m) (x : Option Body) :
    (h.modifyContainer m ({ · with body := x })).Alike m k := by
  have hleft : ({ h.container m with body := x } : Container).unplaced true =
      (h.container m).unplaced true := by
    rw [IsKind] at hm
    simp [Container.unplaced, hm]
  rw [Alike, modifyContainer, setContainer_unplaced, beq_self_eq_true, hleft, ← he,
    ← beq_self_eq_true m.index, ← container_unplaced, setContainer_container]

theorem alloc (he : h.Alike m k) {c d : Container} (hcd : ∀ b, c.unplaced b = d.unplaced b) :
    (h.alloc c).1 = (k.alloc d).1 ∧ (h.alloc c).2.Alike m (k.alloc d).2 := by
  have hc := h.alloc_unplaced m c
  have hd := k.alloc_unplaced m d
  rw [hcd, he.size, he, hd] at hc
  exact ⟨(congrArg Prod.fst hc).symm, (congrArg Prod.snd hc).symm⟩

/-- Changing what a container that is not a dit is. -/
theorem setKind (he : h.Alike m k) {c : ContainerId} (hc : ¬ h.IsKind .dit c)
    {kind : ContainerKind} (hkind : kind.valueKind? ≠ some .dit) :
    (h.modifyContainer c ({ · with kind })).Alike m (k.modifyContainer c ({ · with kind })) := by
  refine he.setContainer c fun b => ?_
  rw [Container.unplaced_of_not_dit hkind, Container.unplaced_of_not_dit hkind]
  dsimp only
  rw [he.body hc]
  exact congrArg
    (fun z : Container => { z with kind, body := (k.container c).body.map Body.unplaced })
    (he.bodiless c)

/-- The properties of Langs are texts, wherever they are written. -/
theorem langProp? (he : h.Alike m k) (hc : h.Closed) (lang : ContainerId) (prop : String) :
    h.langProp? lang prop = k.langProp? lang prop := by
  have hslot : (h.findLocal? lang prop).map h.value = (k.findLocal? lang prop).map k.value :=
    he.eq (f := fun h => (h.findLocal? lang prop).map h.value) fun h => by simp
  unfold Heap.langProp?
  rw [← hslot]
  cases hs : (h.findLocal? lang prop) with
  | none => rfl
  | some s =>
    rw [Option.map_some]
    have hvalid := (hc.slot s).value
    rw [← Heap.value] at hvalid
    cases hv : h.value s with
    | funcRef f =>
      rw [hv] at hvalid
      have hkind : h.IsKind .func f := hvalid
      have hbody := he.body (hkind.not_isKind (l := .dit) (by simp))
      have htexts := congrArg (Option.map fun b => b.view.text) hbody
      simpa [Function.comp_def, Body.unplaced, View.text] using htexts
    | _ => rfl

end Heap.Alike
end Ditlang
