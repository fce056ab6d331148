import Ditlang.Proofs.Heap.Fitting

/-!
# Ditlang.Proofs.Heap.SlotTyping

Slots keep their types. In every reachable store a slot holds null or a value of its declared type; a
slot for a list with an element type holds a list that is committed to a type that may stand for it;
and the items of a committed list are of its element type.

Lists are shared, and an untyped list that is assigned to a slot with an element type is not that
slot's list afterwards: the slot gets a committed copy. So a list never changes its element type
(`Grows.elem`), and what was checked once stays checked.
-/

namespace Ditlang

/-- The values that may live in a slot of a declared type: null, a value of the type, or a list that
is committed to a type that may stand for the element type. -/
structure Declared.Admits (h : Heap) (d : Declared) (v : Value) : Prop where
  scalar : d.list = false → d.isGeneric = false → v = .null ∨ h.Fits v d.ty
  list : d.list = true → v = .null ∨ ∃ l, v = .listRef l ∧
    (d.ty ≠ .thing → (h.list l).elem ≠ .thing ∧ h.ElemFits (h.list l).elem d.ty)

/-- A slot holds what its type admits, and only a slot for a single `Thing` takes every value
unchecked. -/
structure Slot.Typed (h : Heap) (s : Slot) : Prop where
  generic : s.generic = true → s.declared.isGeneric = true
  value : s.declared.Admits h s.value

/-- The items of a committed list are of its element type. -/
def ListData.Typed (h : Heap) (l : ListData) : Prop :=
  l.elem ≠ .thing → ∀ v ∈ l.items, h.ItemFits v l.elem

namespace Heap

/-- Every slot and every list keeps its type. -/
structure WellTyped (h : Heap) : Prop where
  slot : ∀ s, (h.slot s).Typed h
  list : ∀ l, (h.list l).Typed h

variable {h h' : Heap}

theorem list_of_size_le {l : ListId} (hl : h.lists.size ≤ l.index) : h.list l = default := by
  simp [list, Array.getD, Nat.not_lt.2 hl]

theorem lt_size_of_elem {l : ListId} (hl : (h.list l).elem ≠ .thing) :
    l.index < h.lists.size := by
  by_contra hlt
  rw [list_of_size_le (Nat.not_lt.1 hlt)] at hl
  exact hl rfl

theorem Grows.elem_eq (g : h.Grows h') {l : ListId} (hl : (h.list l).elem ≠ .thing) :
    (h'.list l).elem = (h.list l).elem :=
  g.elem l (lt_size_of_elem hl)

end Heap

section Mono

variable {h h' : Heap} (g : h.Grows h')

include g

theorem Declared.Admits.mono {d : Declared} {v : Value} (hv : d.Admits h v) : d.Admits h' v where
  scalar hd hg := (hv.scalar hd hg).imp_right (Heap.Fits.mono g)
  list hd := by
    rcases hv.list hd with hn | ⟨l, rfl, hl⟩
    · exact .inl hn
    · refine .inr ⟨l, rfl, fun ht => ?_⟩
      obtain ⟨he, hfit⟩ := hl ht
      rw [g.elem_eq he]
      exact ⟨he, hfit.mono g⟩

theorem Slot.Typed.mono {s : Slot} (hs : s.Typed h) : s.Typed h' :=
  ⟨hs.generic, hs.value.mono g⟩

theorem ListData.Typed.mono {l : ListData} (hl : l.Typed h) : l.Typed h' :=
  fun he v hv => (hl he v hv).mono g

end Mono

theorem Declared.Admits.null (h : Heap) (d : Declared) : d.Admits h .null :=
  ⟨fun _ _ => .inl rfl, fun _ => .inl rfl⟩

theorem Declared.Admits.of_isGeneric (h : Heap) {d : Declared} (hd : d.isGeneric = true)
    (v : Value) : d.Admits h v := by
  refine ⟨fun _ hg => ?_, fun hlist => ?_⟩
  · rw [hd] at hg
    cases hg
  · rw [isGeneric, hlist, Bool.and_comm] at hd
    cases hd

namespace Heap

variable {h h' : Heap}

/-! ## One lemma for each way of writing -/

namespace WellTyped

/-- A store that grew from a well-typed one is well-typed if what has changed is typed. -/
theorem of_changes (hw : h.WellTyped) (g : h.Grows h')
    (hslot : ∀ s, h'.slot s = h.slot s ∨ (h'.slot s).Typed h')
    (hlist : ∀ l, h'.list l = h.list l ∨ (h'.list l).Typed h') : h'.WellTyped := by
  refine ⟨?_, ?_⟩
  · intro s
    rcases hslot s with he | hs
    · exact he ▸ (hw.slot s).mono g
    · exact hs
  · intro l
    rcases hlist l with he | hl
    · exact he ▸ (hw.list l).mono g
    · exact hl

theorem of_same (hw : h.WellTyped) (g : h.Grows h') (hs : h'.slots = h.slots)
    (hl : h'.lists = h.lists) : h'.WellTyped := by
  refine hw.of_changes g (fun s => .inl ?_) fun l => .inl ?_
  · rw [Heap.slot, hs]
    rfl
  · rw [Heap.list, hl]
    rfl

theorem newSlot (hw : h.WellTyped) {s : Slot} (hs : s.Typed h) : (h.newSlot s).2.WellTyped := by
  have g := grows_newSlot h s
  refine hw.of_changes g ?_ (fun _ => .inl rfl)
  intro t
  rw [slot_newSlot]
  split
  · exact .inr (hs.mono g)
  · exact .inl rfl

theorem newList (hw : h.WellTyped) {elem : TypeSpec} {items : List Value}
    (hi : elem ≠ .thing → ∀ v ∈ items, h.ItemFits v elem) :
    (h.newList elem items).2.WellTyped := by
  have g := grows_newList h elem items
  refine hw.of_changes g (fun _ => .inl rfl) ?_
  intro l
  rw [list_newList]
  split
  · exact .inr (ListData.Typed.mono g hi)
  · exact .inl rfl

theorem setValue (hw : h.WellTyped) {s : SlotId} {v : Value}
    (hv : (h.slot s).declared.Admits h v) : (h.setValue s v).WellTyped := by
  have g := grows_setValue h s v
  refine hw.of_changes g ?_ (fun _ => .inl rfl)
  intro t
  rw [slot_setValue]
  split
  · rename_i hst
    obtain ⟨rfl, -⟩ := hst
    exact .inr ⟨(hw.slot s).generic, hv.mono g⟩
  · exact .inl rfl

theorem attach (hw : h.WellTyped) {c : ContainerId} {name : String} (s : SlotId)
    (hn : (h.container c).attrs.get? name = none) : (h.attach c name s).WellTyped :=
  hw.of_same (grows_attach h s hn) rfl rfl

/-! ## The operations of the language -/

theorem declare (hw : h.WellTyped) {owner : ContainerId} {name : String} {d : Declared} {s : SlotId}
    (hok : h.declare owner name d = .ok (s, h')) : h'.WellTyped := by
  have hnew : (h.newSlot (.declare name d)).2.WellTyped := hw.newSlot ⟨id, .null h d⟩
  obtain ⟨hfree, rfl, hplain | hclass⟩ := declare_inv hok
  · obtain ⟨-, rfl⟩ := hplain
    exact hnew.attach _ (Container.find?_eq_none.1 hfree).1
  · obtain ⟨-, found, -, rfl⟩ := hclass
    have hconf := hnew.of_same (grows_addConflicts _ owner found) rfl rfl
    refine (hconf.attach _ ?_).of_same (grows_setMemo _ []) rfl rfl
    rw [attrs_addConflicts]
    exact (Container.find?_eq_none.1 hfree).1

theorem mergeLangs (hw : h.WellTyped) (left right : ContainerId) :
    (h.mergeLangs left right).2.WellTyped := by
  have hcopy : (h.copySlots (h.mergeSources left right)).2.WellTyped :=
    copySlots_induction (P := fun _ g => g.WellTyped) _ hw
      fun _ g _ s _ hg => hg.newSlot (hg.slot s)
  exact hcopy.of_same (grows_alloc _ _) rfl rfl

theorem materialize (hw : h.WellTyped) (inst : ContainerId) (key : String) (template : SlotId) :
    (h.materialize inst key template).2.WellTyped := by
  rcases materialize_cases (h := h) inst key template with ⟨s, -, hm⟩ | ⟨hnew, hm⟩
  · rw [hm]
    exact hw
  · rw [hm]
    have hcopy : (h.newSlot { h.slot template with name := key }).2.WellTyped :=
      hw.newSlot ⟨(hw.slot template).generic, (hw.slot template).value⟩
    exact hcopy.attach _ hnew

/-- A value that passes the check and is kept as it is may live in the slot. -/
theorem admits_of_settle (hl : h.Lineal) {d : Declared} {old v : Value}
    (hc : h.checkValue v d = none) (hkeep : h.settle d old v = (v, h)) : d.Admits h v := by
  cases hg : d.isGeneric with
  | true => exact .of_isGeneric h hg v
  | false =>
    rcases checkValue_eq_none hl hg hc with rfl | ⟨hd, hfit⟩ | ⟨hd, l, rfl, hlist⟩
    · exact .null h d
    · refine ⟨fun _ _ => .inr hfit, fun hd' => ?_⟩
      rw [hd] at hd'
      cases hd'
    · refine ⟨fun hd' => ?_, fun _ => .inr ⟨l, rfl, fun ht => ?_⟩⟩
      · rw [hd] at hd'
        cases hd'
      · have he := settle_list_same hd ht hkeep
        exact ⟨he, (listMismatch?_eq_none hl ht hlist).1 he⟩

theorem admits_langRef (hl : h.Lineal) {d : Declared} {b : ContainerId} (hd : d.list = false)
    (hc : h.checkValue (.langRef b) d = none) (c : ContainerId) (g : Heap) :
    d.Admits g (.langRef c) := by
  refine ⟨fun _ hg => ?_, fun hd' => ?_⟩
  · rcases checkValue_eq_none hl hg hc with hn | ⟨-, hfit⟩ | ⟨hd', -⟩
    · cases hn
    · right
      generalize d.ty = ty at hfit
      cases hfit <;> constructor
    · rw [hd] at hd'
      cases hd'
  · rw [hd] at hd'
    cases hd'

/-- A list that is committed to the element type may live in the slot. -/
theorem admits_listRef {d : Declared} {l : ListId} (hd : d.list = true) (ht : d.ty ≠ .thing)
    (he : (h.list l).elem = d.ty) : d.Admits h (.listRef l) := by
  refine ⟨fun hd' => ?_, fun _ => .inr ⟨l, rfl, fun _ => ?_⟩⟩
  · rw [hd] at hd'
    cases hd'
  · rw [he]
    exact ⟨ht, .refl _⟩

theorem assign (hw : h.WellTyped) (hl : h.Lineal) {s : SlotId} {v : Value} (hin : h.HasSlot s)
    (hok : h.assign s v = .ok h') : h'.WellTyped := by
  have hslot := hw.slot s
  obtain ⟨hgen, rfl⟩ | ⟨-, hc, rfl⟩ := assign_inv hok
  · exact hw.setValue (.of_isGeneric h (hslot.generic hgen) v)
  · rcases settle_cases (h := h) (h.slot s).declared (h.slot s).value v with
      hs | ⟨a, b, rfl, hd, hs, -⟩ | ⟨l, rfl, hd, ht, -, hs⟩
    · rw [hs]
      exact hw.setValue (admits_of_settle hl hc hs)
    · -- Merging adds slots, but this one was there before.
      rw [hs]
      refine (hw.mergeLangs a b).setValue ?_
      rw [(grows_mergeLangs a b).declared s hin]
      exact admits_langRef hl hd hc _ _
    · -- The copy is committed to the element type of the slot, and its items were checked.
      rw [hs]
      have hg : (h.slot s).declared.isGeneric = false := by simp [Declared.isGeneric, hd]
      rcases checkValue_eq_none hl hg hc with hn | ⟨hd', -⟩ | ⟨-, k, hk, hlist⟩
      · cases hn
      · rw [hd] at hd'
        cases hd'
      · cases hk
        refine (hw.newList fun _ => (listMismatch?_eq_none hl ht hlist).2.1).setValue ?_
        refine admits_listRef hd ht ?_
        rw [list_newList, if_pos (by simp [Heap.newList])]
        rfl

theorem append (hw : h.WellTyped) (hl : h.Lineal) {l : ListId} {v : Value}
    (hok : h.append l v = .ok h') : h'.WellTyped := by
  obtain ⟨-, hfits, rfl⟩ := append_inv hok
  have g := grows_append hok
  refine hw.of_changes g (fun _ => .inl rfl) ?_
  intro k
  rw [list_setList_eq]
  split
  · right
    intro he w hw'
    rcases List.mem_append.1 hw' with hold | hnew
    · exact (hw.list l he w hold).mono g
    · rw [List.mem_singleton.1 hnew]
      exact (elementFits_eq_true hl (hfits he)).1.mono g
  · exact .inl rfl

end WellTyped

theorem wellTyped_empty : Heap.empty.WellTyped where
  slot _ := ⟨fun hg => Bool.noConfusion hg, Declared.Admits.null _ _⟩
  list _ := fun he => absurd rfl he

/-- One operation keeps every slot and every list typed. -/
theorem Step.wellTyped (hs : h.Step h') (hl : h.Lineal) (hw : h.WellTyped) : h'.WellTyped := by
  have g := hs.grows
  cases hs with
  | declare _ hok => exact hw.declare hok
  | insertAlias _ hok =>
    obtain ⟨-, rfl⟩ := insertAlias_inv hok
    exact hw.of_same g rfl rfl
  | assign hin _ hok => exact hw.assign hl hin hok
  | append _ hok => exact hw.append hl hok
  | materialize key template => exact hw.materialize _ key template
  | mergeLangs left right => exact hw.mergeLangs left right
  | addParent hok =>
    obtain ⟨-, -, -, found, -, rfl⟩ := addParent_inv hok
    exact hw.of_same g rfl rfl
  | newList => exact hw.newList fun he => absurd rfl he
  | _ => exact hw.of_same g rfl rfl

theorem Reachable.wellTyped (hr : h.Reachable) : h.WellTyped :=
  hr.induction wellTyped_empty fun _ _ hr hw hs => hs.wellTyped hr.lineal hw

end Heap
end Ditlang
