import Ditlang.Proofs.Heap.Merging
import Ditlang.Proofs.Heap.Owners

/-!
# Ditlang.Proofs.Heap.SlotNames

The name of a slot. Every attribute has a slot that is made for it, with its name: the copies in
instances are named like the keys they are kept under, and those of merged Langs like the properties
they are copied from. No operation gives a slot another name. So in every reachable store an attribute
is kept under the name of its slot (`Reachable.named`), and no container has one slot under two names.
-/

namespace Ditlang
namespace Heap

variable {h h' h'' : Heap}

/-- Every attribute is kept under the name of its slot. -/
def Named (h : Heap) : Prop :=
  ∀ c key s, (h.container c).attrs.get? key = some s → (h.slot s).name = key

/-- Slots keep their names, and what attributes are new are kept under the names of their slots. -/
structure KeepsNames (h h' : Heap) : Prop where
  slot : ∀ s, h.HasSlot s → h'.HasSlot s ∧ (h'.slot s).name = (h.slot s).name
  attr : ∀ c key s, (h'.container c).attrs.get? key = some s →
    (h.container c).attrs.get? key = some s ∨ h'.HasSlot s ∧ (h'.slot s).name = key

namespace KeepsNames

theorem refl (h : Heap) : h.KeepsNames h :=
  ⟨fun _ hs => ⟨hs, rfl⟩, fun _ _ _ hs => .inl hs⟩

theorem trans (hk : h.KeepsNames h') (hk' : h'.KeepsNames h'') : h.KeepsNames h'' := by
  refine ⟨fun s hs => ?_, fun c key s hs => ?_⟩
  · obtain ⟨hs', hname⟩ := hk.slot s hs
    obtain ⟨hs'', hname'⟩ := hk'.slot s hs'
    exact ⟨hs'', hname'.trans hname⟩
  · rcases hk'.attr c key s hs with hold | hnew
    · rcases hk.attr c key s hold with hold | ⟨hs', hname⟩
      · exact .inl hold
      · obtain ⟨hs'', hname'⟩ := hk'.slot s hs'
        exact .inr ⟨hs'', hname'.trans hname⟩
    · exact .inr hnew

theorem named (hk : h.KeepsNames h') (hc : h.Closed) (hn : h.Named) : h'.Named := by
  intro c key s hs
  rcases hk.attr c key s hs with hold | ⟨-, hname⟩
  · exact (hk.slot s ((hc.container c).attrs.get? hold)).2.trans (hn c key s hold)
  · exact hname

end KeepsNames

/-! ## One lemma for each way of writing -/

/-- Without a change to slots and attributes all names are kept. -/
theorem keepsNames_of_same (hs : h'.slots = h.slots)
    (ha : ∀ c, (h'.container c).attrs = (h.container c).attrs) : h.KeepsNames h' := by
  refine ⟨fun s hin => ?_, fun c key s hkey => ?_⟩
  · rw [HasSlot, hs, slot, hs]
    exact ⟨hin, rfl⟩
  · rw [ha c] at hkey
    exact .inl hkey

theorem keepsNames_of_containers (hs : h'.slots = h.slots) (hc : h'.containers = h.containers) :
    h.KeepsNames h' :=
  keepsNames_of_same hs fun c => by rw [container, hc]; rfl

theorem keepsNames_modifyContainer (c : ContainerId) {f : Container → Container}
    (hf : ∀ x, (f x).attrs = x.attrs) : h.KeepsNames (h.modifyContainer c f) := by
  refine keepsNames_of_same rfl fun d => ?_
  rw [container_modifyContainer]
  split
  · exact hf _
  · rfl

theorem keepsNames_newSlot (new : Slot) : h.KeepsNames (h.newSlot new).2 := by
  refine ⟨fun s hs => ?_, fun _ _ _ hs => .inl hs⟩
  rw [slot_newSlot, if_neg (Nat.ne_of_lt hs)]
  exact ⟨hs.mono (grows_newSlot h new), rfl⟩

theorem keepsNames_setValue (s : SlotId) (v : Value) : h.KeepsNames (h.setValue s v) := by
  refine ⟨fun t ht => ?_, fun _ _ _ hs => .inl hs⟩
  refine ⟨ht.mono (grows_setValue h s v), ?_⟩
  rw [slot_setValue]
  split <;> rfl

theorem keepsNames_attach {s : SlotId} (hs : h.HasSlot s) (c : ContainerId) :
    h.KeepsNames (h.attach c (h.slot s).name s) := by
  refine ⟨fun _ ht => ⟨ht, rfl⟩, fun d key t ht => ?_⟩
  rw [attach, container_modifyContainer] at ht
  split at ht
  · rw [OrderedMap.get?_insert] at ht
    split at ht
    · rename_i hkey
      cases ht
      exact .inr ⟨hs, hkey.symm⟩
    · exact .inl ht
  · exact .inl ht

theorem keepsNames_attach_newSlot (new : Slot) (c : ContainerId) :
    h.KeepsNames ((h.newSlot new).2.attach c new.name ⟨h.slots.size⟩) := by
  have hs : (h.newSlot new).2.HasSlot ⟨h.slots.size⟩ := by simp [HasSlot, newSlot]
  have hattach := keepsNames_attach hs c
  rw [slot_newSlot, if_pos rfl] at hattach
  exact (keepsNames_newSlot new).trans hattach

/-- A container may be made with attributes that are kept under the names of their slots. -/
theorem keepsNames_alloc {c : Container}
    (hc : ∀ key s, c.attrs.get? key = some s → h.HasSlot s ∧ (h.slot s).name = key) :
    h.KeepsNames (h.alloc c).2 := by
  refine ⟨fun _ hs => ⟨hs, rfl⟩, fun d key s hs => ?_⟩
  rw [container_alloc] at hs
  split at hs
  · exact .inr (hc key s hs)
  · exact .inl hs

/-! ## The operations of the language -/

theorem keepsNames_mergeLangs (hc : h.Closed) (hn : h.Named) (left right : ContainerId) :
    h.KeepsNames (h.mergeLangs left right).2 := by
  have hcopies : h.KeepsNames (h.copySlots (h.mergeSources left right)).2 ∧
      ∀ key t, (h.copySlots (h.mergeSources left right)).1.get? key = some t →
        (h.copySlots (h.mergeSources left right)).2.HasSlot t ∧
          ((h.copySlots (h.mergeSources left right)).2.slot t).name = key := by
    refine copySlots_induction
      (P := fun attrs g => h.KeepsNames g ∧
        ∀ key t, attrs.get? key = some t → g.HasSlot t ∧ (g.slot t).name = key) _
      ⟨.refl h, fun _ _ ht => nomatch ht⟩ ?_
    rintro attrs g name s hmem ⟨hk, hattrs⟩
    have hnew := keepsNames_newSlot (h := g) (g.slot s)
    refine ⟨hk.trans hnew, fun key t ht => ?_⟩
    rw [OrderedMap.get?_insert] at ht
    split at ht
    · rename_i hkey
      subst hkey
      cases ht
      obtain ⟨owner, hs⟩ := exists_owner_of_mem_mergeSources hmem
      refine ⟨by simp [HasSlot, newSlot], ?_⟩
      rw [slot_newSlot, if_pos (by simp [newSlot]),
        (hk.slot s ((hc.container owner).attrs.get? hs)).2]
      exact hn owner key s hs
    · obtain ⟨hin, hname⟩ := hattrs key t ht
      exact ⟨(hnew.slot t hin).1, (hnew.slot t hin).2.trans hname⟩
  exact hcopies.1.trans (keepsNames_alloc hcopies.2)

theorem keepsNames_assign (hc : h.Closed) (hn : h.Named) {s : SlotId} {v : Value}
    (hok : h.assign s v = .ok h') : h.KeepsNames h' := by
  obtain ⟨-, rfl⟩ | ⟨-, -, rfl⟩ := assign_inv hok
  · exact keepsNames_setValue s v
  · refine KeepsNames.trans ?_ (keepsNames_setValue s _)
    rcases settle_cases (h := h) (h.slot s).declared (h.slot s).value v with
      he | ⟨a, b, -, -, he, -⟩ | ⟨l, -, -, -, -, he⟩
    · rw [he]
      exact .refl h
    · rw [he]
      exact keepsNames_mergeLangs hc hn a b
    · rw [he]
      exact keepsNames_of_containers rfl rfl

theorem keepsNames_declare {owner : ContainerId} {name : String} {d : Declared} {s : SlotId}
    (hok : h.declare owner name d = .ok (s, h')) : h.KeepsNames h' := by
  obtain ⟨-, rfl, ⟨-, rfl⟩ | ⟨-, found, -, rfl⟩⟩ := declare_inv hok
  · exact keepsNames_attach_newSlot (.declare name d) owner
  · -- Recording the conflicts does not touch slots and attributes.
    have hs : ((h.newSlot (.declare name d)).2.addConflicts owner found).HasSlot
        ⟨h.slots.size⟩ := by
      simp [HasSlot, addConflicts, newSlot]
    have hname : (((h.newSlot (.declare name d)).2.addConflicts owner found).slot
        ⟨h.slots.size⟩).name = name := by
      change ((h.newSlot (.declare name d)).2.slot _).name = name
      rw [slot_newSlot, if_pos rfl]
      rfl
    have hattach := keepsNames_attach hs owner
    rw [hname] at hattach
    have hconflicts : (h.newSlot (.declare name d)).2.KeepsNames
        ((h.newSlot (.declare name d)).2.addConflicts owner found) :=
      keepsNames_of_same rfl fun c => attrs_addConflicts _ owner c found
    exact (keepsNames_newSlot _).trans
      (hconflicts.trans (hattach.trans (keepsNames_of_containers rfl rfl)))

theorem attrs_withParent (parent : ContainerId) (c : Container) :
    (withParent parent c).attrs = c.attrs := by
  unfold withParent
  split <;> rfl

theorem Step.keepsNames (hs : h.Step h') (hc : h.Closed) (hn : h.Named) : h.KeepsNames h' := by
  cases hs with
  | alloc hf =>
    refine keepsNames_alloc fun key s hs => ?_
    rw [hf.attrs] at hs
    cases hs
  | declare _ hok => exact keepsNames_declare hok
  | insertAlias _ hok =>
    obtain ⟨-, rfl⟩ := insertAlias_inv hok
    exact keepsNames_modifyContainer _ fun _ => rfl
  | assign _ _ hok => exact keepsNames_assign hc hn hok
  | append _ hok =>
    obtain ⟨-, -, rfl⟩ := append_inv hok
    exact keepsNames_of_containers rfl rfl
  | @materialize inst key template =>
    rcases materialize_cases (h := h) inst key template with ⟨s, -, hm⟩ | ⟨-, hm⟩
    · rw [hm]
      exact .refl h
    · rw [hm]
      exact keepsNames_attach_newSlot { h.slot template with name := key } inst
  | mergeLangs left right => exact keepsNames_mergeLangs hc hn left right
  | @addParent c parent _ hok =>
    obtain ⟨-, -, -, found, -, rfl⟩ := addParent_inv hok
    have hconflicts : h.KeepsNames (h.addConflicts c found) :=
      keepsNames_of_same rfl fun d => attrs_addConflicts h c d found
    exact hconflicts.trans ((keepsNames_modifyContainer c (attrs_withParent parent)).trans
      (keepsNames_of_containers rfl rfl))
  | newList => exact keepsNames_of_containers rfl rfl
  | newMap => exact keepsNames_of_containers rfl rfl
  | putEntry => exact keepsNames_of_containers rfl rfl
  | warm => exact keepsNames_of_containers rfl rfl
  | describe c hf => exact keepsNames_modifyContainer c fun x => by rw [hf]
  | @keepFile c => exact keepsNames_modifyContainer c fun _ => rfl

/-- In every reachable store an attribute is kept under the name of its slot. -/
theorem Reachable.named (hr : h.Reachable) : h.Named := by
  refine hr.induction ?_ fun h h' hr hn hs => (hs.keepsNames hr.closed hn).named hr.closed hn
  intro c key s hs
  rw [container_of_size_le (by simp [empty])] at hs
  cases hs

/-- A container has no slot under two names, and no other container has it. -/
theorem Reachable.attr_unique (hr : h.Reachable) {c d : ContainerId} {key other : String}
    {s : SlotId} (hs : (h.container c).attrs.get? key = some s)
    (hs' : (h.container d).attrs.get? other = some s) : c = d ∧ key = other :=
  ⟨hr.ownedOnce c d key other s hs hs',
    (hr.named c key s hs).symm.trans (hr.named d other s hs')⟩

end Heap
end Ditlang
