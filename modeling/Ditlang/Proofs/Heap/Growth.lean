import Ditlang.Proofs.Heap.Inversion

/-!
# Ditlang.Proofs.Heap.Growth

A store only grows. `Grows h h'` says what every operation keeps: containers, slots, lists and maps
stay where they are; a container stays of its kind, in its scope and with its names bound to the same
slots; a slot keeps its type; a list keeps its element type and its items, to which more may have
been added. There is one lemma for each way in which a store is written (`grows_alloc`,
`grows_modifyContainer`, …), and the operations of the language are put together from these.
-/

namespace Ditlang

/-- What a kind of container can become: a class gets more parents, and a function its file. -/
inductive ContainerKind.Becomes : ContainerKind → ContainerKind → Prop where
  | same (k : ContainerKind) : Becomes k k
  | cls {d d' : ClassData} : d.parents <+: d'.parents → Becomes (.cls d) (.cls d')
  | func {d d' : FuncData} : d'.params = d.params → d'.ret = d.ret → d'.lang = d.lang →
      d'.native = d.native → Becomes (.func d) (.func d')

theorem ContainerKind.Becomes.trans {k₁ k₂ k₃ : ContainerKind} (h₁ : k₁.Becomes k₂)
    (h₂ : k₂.Becomes k₃) : k₁.Becomes k₃ := by
  cases h₁ with
  | same => exact h₂
  | cls hp =>
    cases h₂ with
    | same => exact .cls hp
    | cls hp' => exact .cls (hp.trans hp')
  | func hp hr hl hn =>
    cases h₂ with
    | same => exact .func hp hr hl hn
    | func hp' hr' hl' hn' =>
      exact .func (hp'.trans hp) (hr'.trans hr) (hl'.trans hl) (hn'.trans hn)

/-- What a container can become. -/
structure Container.Becomes (c c' : Container) : Prop where
  kind : c.kind.Becomes c'.kind
  scope : c'.scope = c.scope
  attrs : ∀ name s, c.attrs.get? name = some s → c'.attrs.get? name = some s
  aliases : ∀ name s, c.aliases.get? name = some s → c'.aliases.get? name = some s

namespace Container

theorem Becomes.refl (c : Container) : c.Becomes c :=
  ⟨.same _, rfl, fun _ _ h => h, fun _ _ h => h⟩

theorem Becomes.trans {c₁ c₂ c₃ : Container} (h₁ : c₁.Becomes c₂) (h₂ : c₂.Becomes c₃) :
    c₁.Becomes c₃ :=
  ⟨h₁.kind.trans h₂.kind, h₂.scope.trans h₁.scope,
    fun name s h => h₂.attrs name s (h₁.attrs name s h),
    fun name s h => h₂.aliases name s (h₁.aliases name s h)⟩

theorem Becomes.insertAttr (c : Container) {name : String} (s : SlotId)
    (hn : c.attrs.get? name = none) : c.Becomes { c with attrs := c.attrs.insert name s } := by
  refine ⟨.same _, rfl, ?_, fun _ _ h => h⟩
  intro other t ht
  rw [OrderedMap.get?_insert, if_neg]
  · exact ht
  · rintro rfl
    rw [hn] at ht
    cases ht

theorem Becomes.insertAlias (c : Container) {name : String} (s : SlotId)
    (hn : c.aliases.get? name = none) :
    c.Becomes { c with aliases := c.aliases.insert name s } := by
  refine ⟨.same _, rfl, fun _ _ h => h, ?_⟩
  intro other t ht
  rw [OrderedMap.get?_insert, if_neg]
  · exact ht
  · rintro rfl
    rw [hn] at ht
    cases ht

/-- Without a name in a container, it is neither an attribute nor an alias. -/
theorem find?_eq_none {c : Container} {name : String} :
    c.find? name = none ↔ c.attrs.get? name = none ∧ c.aliases.get? name = none := by
  unfold find?
  cases c.attrs.get? name <;> simp

end Container

namespace Heap

/-- What every operation keeps of a store. -/
structure Grows (h h' : Heap) : Prop where
  containers : h.containers.size ≤ h'.containers.size
  slots : h.slots.size ≤ h'.slots.size
  lists : h.lists.size ≤ h'.lists.size
  maps : h.maps.size ≤ h'.maps.size
  container : ∀ c, c.index < h.containers.size → (h.container c).Becomes (h'.container c)
  declared : ∀ s, s.index < h.slots.size → (h'.slot s).declared = (h.slot s).declared
  generic : ∀ s, s.index < h.slots.size → (h'.slot s).generic = (h.slot s).generic
  elem : ∀ l, l.index < h.lists.size → (h'.list l).elem = (h.list l).elem
  items : ∀ l, l.index < h.lists.size → (h.list l).items <+: (h'.list l).items

namespace Grows

theorem refl (h : Heap) : h.Grows h :=
  ⟨Nat.le_refl _, Nat.le_refl _, Nat.le_refl _, Nat.le_refl _, fun _ _ => .refl _,
    fun _ _ => rfl, fun _ _ => rfl, fun _ _ => rfl, fun _ _ => List.prefix_refl _⟩

theorem trans {h₁ h₂ h₃ : Heap} (g₁ : h₁.Grows h₂) (g₂ : h₂.Grows h₃) : h₁.Grows h₃ where
  containers := Nat.le_trans g₁.containers g₂.containers
  slots := Nat.le_trans g₁.slots g₂.slots
  lists := Nat.le_trans g₁.lists g₂.lists
  maps := Nat.le_trans g₁.maps g₂.maps
  container c hc :=
    (g₁.container c hc).trans (g₂.container c (Nat.lt_of_lt_of_le hc g₁.containers))
  declared s hs := (g₂.declared s (Nat.lt_of_lt_of_le hs g₁.slots)).trans (g₁.declared s hs)
  generic s hs := (g₂.generic s (Nat.lt_of_lt_of_le hs g₁.slots)).trans (g₁.generic s hs)
  elem l hl := (g₂.elem l (Nat.lt_of_lt_of_le hl g₁.lists)).trans (g₁.elem l hl)
  items l hl := (g₁.items l hl).trans (g₂.items l (Nat.lt_of_lt_of_le hl g₁.lists))

end Grows

variable (h : Heap)

/-! ## One lemma for each way of writing -/

theorem container_modifyContainer (c d : ContainerId) (f : Container → Container) :
    (h.modifyContainer c f).container d =
      if c = d ∧ c.index < h.containers.size then f (h.container d) else h.container d := by
  by_cases hc : c.index < h.containers.size
  · rw [modifyContainer, container_setContainer h c d _ hc]
    by_cases hcd : c = d
    · simp [hcd, hcd ▸ hc]
    · rw [if_neg fun he => hcd (ContainerId.ext he), if_neg fun he => hcd he.1]
  · rw [if_neg fun he => hc he.2, modifyContainer, setContainer,
      Array.setIfInBounds_eq_of_size_le (Nat.not_lt.1 hc)]

@[simp] theorem size_modifyContainer (c : ContainerId) (f : Container → Container) :
    (h.modifyContainer c f).containers.size = h.containers.size := by
  simp [modifyContainer, setContainer]

@[simp] theorem slots_modifyContainer (c : ContainerId) (f : Container → Container) :
    (h.modifyContainer c f).slots = h.slots := rfl

@[simp] theorem lists_modifyContainer (c : ContainerId) (f : Container → Container) :
    (h.modifyContainer c f).lists = h.lists := rfl

@[simp] theorem maps_modifyContainer (c : ContainerId) (f : Container → Container) :
    (h.modifyContainer c f).maps = h.maps := rfl

theorem grows_modifyContainer (c : ContainerId) {f : Container → Container}
    (hf : (h.container c).Becomes (f (h.container c))) : h.Grows (h.modifyContainer c f) := by
  refine { Grows.refl h with containers := ?_, container := ?_ }
  · exact Nat.le_of_eq (size_modifyContainer h c f).symm
  · intro d _
    rw [container_modifyContainer]
    split
    · rename_i hcd
      exact hcd.1 ▸ hf
    · exact .refl _

theorem grows_alloc (c : Container) : h.Grows (h.alloc c).2 := by
  refine { Grows.refl h with containers := ?_, container := ?_ }
  · simp [alloc]
  · intro d hd
    rw [container_alloc, if_neg (Nat.ne_of_lt hd)]
    exact .refl _

theorem grows_newSlot (s : Slot) : h.Grows (h.newSlot s).2 := by
  refine { Grows.refl h with slots := ?_, declared := ?_, generic := ?_ }
  · simp [newSlot]
  · intro t ht
    rw [slot_newSlot, if_neg (Nat.ne_of_lt ht)]
  · intro t ht
    rw [slot_newSlot, if_neg (Nat.ne_of_lt ht)]

theorem slot_setValue (s t : SlotId) (v : Value) :
    (h.setValue s v).slot t =
      if s = t ∧ s.index < h.slots.size then { h.slot t with value := v } else h.slot t := by
  by_cases hs : s.index < h.slots.size
  · rw [setValue, slot_setSlot h s t _ hs]
    by_cases hst : s = t
    · simp [hst, hst ▸ hs]
    · rw [if_neg fun he => hst (SlotId.ext he), if_neg fun he => hst he.1]
  · rw [if_neg fun he => hs he.2, setValue, setSlot,
      Array.setIfInBounds_eq_of_size_le (Nat.not_lt.1 hs)]

theorem grows_setValue (s : SlotId) (v : Value) : h.Grows (h.setValue s v) := by
  refine { Grows.refl h with slots := ?_, declared := ?_, generic := ?_ }
  · simp [setValue, setSlot]
  · intro t _
    exact declared_setValue h s t v
  · intro t _
    rw [slot_setValue]
    split <;> rfl

theorem grows_newList (elem : TypeSpec) (items : List Value) :
    h.Grows (h.newList elem items).2 := by
  refine { Grows.refl h with lists := ?_, elem := ?_, items := ?_ }
  · simp [newList]
  · intro l hl
    rw [list_newList, if_neg (Nat.ne_of_lt hl)]
  · intro l hl
    have he : (h.newList elem items).2.list l = h.list l := by
      rw [list_newList, if_neg (Nat.ne_of_lt hl)]
    exact he ▸ List.prefix_refl _

theorem list_setList_eq (l k : ListId) (new : ListData) :
    (h.setList l new).list k =
      if l = k ∧ l.index < h.lists.size then new else h.list k := by
  by_cases hl : l.index < h.lists.size
  · rw [list_setList h l k _ hl]
    by_cases hlk : l = k
    · simp [hlk, hlk ▸ hl]
    · rw [if_neg fun he => hlk (ListId.ext he), if_neg fun he => hlk he.1]
  · rw [if_neg fun he => hl he.2, setList,
      Array.setIfInBounds_eq_of_size_le (Nat.not_lt.1 hl)]

theorem grows_setList (l : ListId) {new : ListData} (he : new.elem = (h.list l).elem)
    (hi : (h.list l).items <+: new.items) : h.Grows (h.setList l new) := by
  refine { Grows.refl h with lists := ?_, elem := ?_, items := ?_ }
  · simp [setList]
  · intro k _
    rw [list_setList_eq]
    split
    · rename_i hlk
      rw [he, hlk.1]
    · rfl
  · intro k _
    rw [list_setList_eq]
    split
    · rename_i hlk
      exact hlk.1 ▸ hi
    · exact List.prefix_refl _

theorem grows_newMap (m : OrderedMap Value) : h.Grows (h.newMap m).2 :=
  { Grows.refl h with maps := by simp [newMap] }

theorem grows_setMap (m : MapId) (new : OrderedMap Value) : h.Grows (h.setMap m new) :=
  { Grows.refl h with maps := by simp [setMap] }

theorem grows_setMemo (memo : List (ContainerId × Ancestry)) : h.Grows { h with memo } :=
  { Grows.refl h with }

/-! ## The operations of the language -/

theorem grows_addConflicts (c : ContainerId) (found : List Conflict) :
    h.Grows (h.addConflicts c found) := by
  refine grows_modifyContainer h c ?_
  split
  · rename_i data hk
    exact ⟨hk ▸ .cls (List.prefix_refl _), rfl, fun _ _ ha => ha, fun _ _ ha => ha⟩
  · exact .refl _

theorem grows_attach {c : ContainerId} {name : String} (s : SlotId)
    (hn : (h.container c).attrs.get? name = none) : h.Grows (h.attach c name s) :=
  grows_modifyContainer h c (.insertAttr _ s hn)

@[simp] theorem attrs_addConflicts (c d : ContainerId) (found : List Conflict) :
    ((h.addConflicts c found).container d).attrs = (h.container d).attrs := by
  rw [addConflicts, container_modifyContainer]
  split
  · split <;> rfl
  · rfl

variable {h : Heap}

theorem grows_declare {owner : ContainerId} {name : String} {d : Declared} {s : SlotId} {h' : Heap}
    (hd : h.declare owner name d = .ok (s, h')) : h.Grows h' := by
  obtain ⟨hfree, rfl, hplain | hclass⟩ := declare_inv hd
  · obtain ⟨-, rfl⟩ := hplain
    exact (grows_newSlot h _).trans (grows_attach _ _ (Container.find?_eq_none.1 hfree).1)
  · obtain ⟨-, found, -, rfl⟩ := hclass
    have hfree' : (((h.newSlot (.declare name d)).2.addConflicts owner found).container
        owner).attrs.get? name = none := by
      rw [attrs_addConflicts]
      exact (Container.find?_eq_none.1 hfree).1
    exact (grows_newSlot h _).trans ((grows_addConflicts _ owner found).trans
      ((grows_attach _ _ hfree').trans (grows_setMemo _ [])))

theorem grows_insertAlias {c : ContainerId} {name : String} {s : SlotId} {h' : Heap}
    (ha : h.insertAlias c name s = .ok h') : h.Grows h' := by
  obtain ⟨hfree, rfl⟩ := insertAlias_inv ha
  exact grows_modifyContainer h c (.insertAlias _ s (Container.find?_eq_none.1 hfree).2)

theorem becomes_withParent (parent : ContainerId) (c : Container) :
    c.Becomes (withParent parent c) := by
  unfold withParent
  split
  · rename_i data hk
    exact ⟨hk ▸ .cls (List.prefix_append _ _), rfl, fun _ _ hg => hg, fun _ _ hg => hg⟩
  · exact .refl _

theorem grows_addParent {c parent : ContainerId} {h' : Heap}
    (ha : h.addParent c parent = .ok h') : h.Grows h' := by
  obtain ⟨-, -, -, found, -, rfl⟩ := addParent_inv ha
  exact (grows_addConflicts h c found).trans
    ((grows_modifyContainer _ c (becomes_withParent parent _)).trans (grows_setMemo _ []))

/-- Copying slots is a matter of making one copy after the other. -/
theorem copySlots_induction {P : OrderedMap SlotId → Heap → Prop} (chosen : List (String × SlotId))
    (start : P .empty h)
    (step : ∀ attrs g name s, (name, s) ∈ chosen → P attrs g →
      P (attrs.insert name (g.newSlot (g.slot s)).1) (g.newSlot (g.slot s)).2) :
    P (h.copySlots chosen).1 (h.copySlots chosen).2 := by
  unfold copySlots
  generalize OrderedMap.empty = attrs at start ⊢
  induction chosen generalizing attrs h with
  | nil => exact start
  | cons e chosen ih =>
    obtain ⟨name, s⟩ := e
    rw [List.foldl_cons]
    refine ih (fun attrs g n t hm => step attrs g n t (List.mem_cons_of_mem _ hm)) _ ?_
    exact step attrs h name s List.mem_cons_self start

theorem containers_copySlots (chosen : List (String × SlotId)) :
    (h.copySlots chosen).2.containers = h.containers :=
  copySlots_induction (P := fun _ g => g.containers = h.containers) chosen rfl
    fun _ _ _ _ _ hg => hg

theorem grows_copySlots (chosen : List (String × SlotId)) : h.Grows (h.copySlots chosen).2 :=
  copySlots_induction (P := fun _ g => h.Grows g) chosen (.refl h)
    fun _ g _ _ _ hg => hg.trans (grows_newSlot g _)

theorem grows_mergeLangs (left right : ContainerId) : h.Grows (h.mergeLangs left right).2 :=
  (grows_copySlots _).trans (grows_alloc _ _)

theorem grows_settle (d : Declared) (old new : Value) : h.Grows (h.settle d old new).2 := by
  rcases settle_cases (h := h) d old new with hs | ⟨a, b, -, -, hs, -⟩ | ⟨l, -, -, -, -, hs⟩
  · rw [hs]
    exact .refl h
  · rw [hs]
    exact grows_mergeLangs a b
  · rw [hs]
    exact grows_newList h _ _

theorem grows_assign {s : SlotId} {v : Value} {h' : Heap} (ha : h.assign s v = .ok h') :
    h.Grows h' := by
  obtain ⟨-, rfl⟩ | ⟨-, -, rfl⟩ := assign_inv ha
  · exact grows_setValue h s v
  · exact (grows_settle _ _ _).trans (grows_setValue _ _ _)

theorem grows_append {l : ListId} {v : Value} {h' : Heap} (ha : h.append l v = .ok h') :
    h.Grows h' := by
  obtain ⟨-, -, rfl⟩ := append_inv ha
  exact grows_setList h l rfl (List.prefix_append _ _)

theorem grows_materialize (inst : ContainerId) (key : String) (template : SlotId) :
    h.Grows (h.materialize inst key template).2 := by
  rcases materialize_cases (h := h) inst key template with ⟨s, -, hm⟩ | ⟨hnew, hm⟩
  · rw [hm]
    exact .refl h
  · rw [hm]
    exact (grows_newSlot h _).trans (grows_attach _ _ hnew)

end Heap
end Ditlang
