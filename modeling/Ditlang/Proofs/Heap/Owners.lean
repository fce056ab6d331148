import Ditlang.Proofs.Heap.Steps

/-!
# Ditlang.Proofs.Heap.Owners

Who owns a slot. Every attribute is made with a slot of its own, also the copies that instances and
merged Langs have, so no slot is an attribute of two containers. Aliases do not count: they are names
for slots of others.
-/

namespace Ditlang
namespace Heap

variable {h h' : Heap}

/-- No slot is an attribute of two containers. -/
def OwnedOnce (h : Heap) : Prop :=
  ∀ c d name key s, (h.container c).attrs.get? name = some s →
    (h.container d).attrs.get? key = some s → c = d

/-- The attributes are those that there were, and new slots of one container. -/
def Adds (h h' : Heap) (owner : ContainerId) : Prop :=
  ∀ c name s, (h'.container c).attrs.get? name = some s →
    (h.container c).attrs.get? name = some s ∨ c = owner ∧ h.slots.size ≤ s.index

theorem Adds.ownedOnce {owner : ContainerId} (ha : h.Adds h' owner) (hc : h.Closed)
    (ho : h.OwnedOnce) : h'.OwnedOnce := by
  have hold : ∀ {c name s}, (h.container c).attrs.get? name = some s → s.index < h.slots.size :=
    fun hs => (hc.container _).attrs.get? hs
  intro c d name key s hcs hds
  rcases ha c name s hcs with hc' | ⟨rfl, hs⟩ <;> rcases ha d key s hds with hd' | ⟨rfl, hs'⟩
  · exact ho c d name key s hc' hd'
  · have := hold hc'
    omega
  · have := hold hd'
    omega
  · rfl

theorem adds_of_attrs (ha : ∀ c, (h'.container c).attrs = (h.container c).attrs) :
    ∃ owner, h.Adds h' owner := by
  refine ⟨⟨0⟩, fun c name s hs => ?_⟩
  rw [ha c] at hs
  exact .inl hs

theorem adds_of_containers (hc : h'.containers = h.containers) : ∃ owner, h.Adds h' owner := by
  refine adds_of_attrs fun c => ?_
  rw [container, hc]
  rfl

theorem adds_modifyContainer (c : ContainerId) {f : Container → Container}
    (hf : ∀ x, (f x).attrs = x.attrs) : ∃ owner, h.Adds (h.modifyContainer c f) owner := by
  refine adds_of_attrs fun d => ?_
  rw [container_modifyContainer]
  split
  · exact hf _
  · rfl

theorem adds_attach (h g : Heap) (hg : ∀ c, (g.container c).attrs = (h.container c).attrs)
    (owner : ContainerId) (name : String) :
    h.Adds (g.attach owner name ⟨h.slots.size⟩) owner := by
  intro c key s hs
  rw [attach, container_modifyContainer] at hs
  split at hs
  · rename_i hc
    rw [OrderedMap.get?_insert] at hs
    split at hs
    · cases hs
      exact .inr ⟨hc.1.symm, Nat.le_refl _⟩
    · exact .inl (hg c ▸ hs)
  · exact .inl (hg c ▸ hs)

theorem adds_alloc {c : Container} {g : Heap} (hg : g.containers = h.containers)
    (hc : ∀ name s, c.attrs.get? name = some s → h.slots.size ≤ s.index) :
    h.Adds (g.alloc c).2 ⟨h.containers.size⟩ := by
  intro d name s hs
  rw [container_alloc, hg] at hs
  split at hs
  · rename_i hd
    exact .inr ⟨ContainerId.ext hd, hc name s hs⟩
  · rw [container, hg] at hs
    exact .inl hs

theorem adds_mergeLangs (left right : ContainerId) :
    h.Adds (h.mergeLangs left right).2 ⟨h.containers.size⟩ := by
  have hcopy : (h.copySlots (h.mergeSources left right)).2.containers = h.containers ∧
      h.slots.size ≤ (h.copySlots (h.mergeSources left right)).2.slots.size ∧
      ∀ name s, (h.copySlots (h.mergeSources left right)).1.get? name = some s →
        h.slots.size ≤ s.index := by
    refine copySlots_induction
      (P := fun attrs g => g.containers = h.containers ∧ h.slots.size ≤ g.slots.size ∧
        ∀ name s, attrs.get? name = some s → h.slots.size ≤ s.index) _ ⟨rfl, Nat.le_refl _, ?_⟩ ?_
    · intro name s hs
      cases hs
    · rintro attrs g key t - ⟨hcon, hsize, hattrs⟩
      refine ⟨hcon, by simp [newSlot]; omega, fun name s hs => ?_⟩
      rw [OrderedMap.get?_insert] at hs
      split at hs
      · cases hs
        exact hsize
      · exact hattrs name s hs
  exact adds_alloc hcopy.1 hcopy.2.2

theorem adds_assign {s : SlotId} {v : Value} (hok : h.assign s v = .ok h') :
    ∃ owner, h.Adds h' owner := by
  obtain ⟨-, rfl⟩ | ⟨-, -, rfl⟩ := assign_inv hok
  · exact adds_of_containers rfl
  · rcases settle_cases (h := h) (h.slot s).declared (h.slot s).value v with
      he | ⟨a, b, -, -, he, -⟩ | ⟨l, -, -, -, -, he⟩
    · rw [he]
      exact adds_of_containers rfl
    · rw [he]
      exact ⟨_, adds_mergeLangs a b⟩
    · rw [he]
      exact adds_of_containers rfl

theorem adds_declare {owner : ContainerId} {name : String} {d : Declared} {s : SlotId}
    (hok : h.declare owner name d = .ok (s, h')) : h.Adds h' owner := by
  obtain ⟨-, rfl, ⟨-, rfl⟩ | ⟨-, found, -, rfl⟩⟩ := declare_inv hok
  · exact adds_attach h (h.newSlot (.declare name d)).2 (fun _ => rfl) owner name
  · have hattrs := fun c => attrs_addConflicts (h.newSlot (.declare name d)).2 owner c found
    exact adds_attach h ((h.newSlot (.declare name d)).2.addConflicts owner found) hattrs owner name

theorem Step.adds (hs : h.Step h') : ∃ owner, h.Adds h' owner := by
  cases hs with
  | alloc hf =>
    refine ⟨_, adds_alloc rfl fun name s hs => ?_⟩
    rw [hf.attrs] at hs
    cases hs
  | declare _ hok => exact ⟨_, adds_declare hok⟩
  | insertAlias _ hok =>
    obtain ⟨-, rfl⟩ := insertAlias_inv hok
    exact adds_modifyContainer _ fun _ => rfl
  | assign _ _ hok => exact adds_assign hok
  | append _ hok =>
    obtain ⟨-, -, rfl⟩ := append_inv hok
    exact adds_of_containers rfl
  | @materialize inst key template =>
    rcases materialize_cases (h := h) inst key template with ⟨s, -, hm⟩ | ⟨-, hm⟩
    · rw [hm]
      exact adds_of_containers rfl
    · rw [hm]
      exact ⟨inst, adds_attach h (h.newSlot _).2 (fun _ => rfl) inst key⟩
  | mergeLangs left right => exact ⟨_, adds_mergeLangs left right⟩
  | @addParent c parent _ hok =>
    obtain ⟨-, -, -, found, -, rfl⟩ := addParent_inv hok
    refine adds_of_attrs fun d => ?_
    have hw : ∀ x, (withParent parent x).attrs = x.attrs := by
      intro x
      unfold withParent
      split <;> rfl
    rw [← attrs_addConflicts h c d found]
    change (((h.addConflicts c found).modifyContainer c (withParent parent)).container d).attrs = _
    rw [container_modifyContainer]
    split
    · exact hw _
    · rfl
  | newList => exact adds_of_containers rfl
  | newMap => exact adds_of_containers rfl
  | putEntry => exact adds_of_containers rfl
  | warm => exact adds_of_containers rfl
  | describe c hf => exact adds_modifyContainer c fun x => by rw [hf]
  | @keepFile c => exact adds_modifyContainer c fun _ => rfl

theorem Reachable.ownedOnce (hr : h.Reachable) : h.OwnedOnce := by
  refine hr.induction ?_ fun h h' hr ho hs => ?_
  · intro c d name key s hs
    rw [container_of_size_le (by simp [empty])] at hs
    cases hs
  · obtain ⟨owner, ha⟩ := hs.adds
    exact ha.ownedOnce hr.closed ho

end Heap
end Ditlang
