import Ditlang.Proofs.Heap.Definers
import Ditlang.Proofs.Heap.Validity

/-!
# Ditlang.Proofs.Heap.Merging

What merging two Langs makes. A merged Lang is a container that was not there before; its properties
are copies, in slots that were not there before either. `Merged` says which slot each one is a copy of:
a property that only one of the two has is taken from that one, and one that both have is taken from
the one with the higher priority, or from the second if the priorities are equal.

* `copySlots_copies`, `isSome_copySlots`: a table of copies has the names it was asked for, and each one
  names a copy.
* `merged_mergeLangs`: what `mergeLangs` makes is a merged Lang.
-/

namespace Ditlang
namespace Heap

variable {h h' : Heap}

/-- Slot `t` of the later store is a new one and what slot `s` was. -/
def IsCopy (h h' : Heap) (s t : SlotId) : Prop :=
  h.slots.size ≤ t.index ∧ h'.slot t = h.slot s

/-- Container `c` is new, and is `left` and `right` merged. -/
structure Merged (h h' : Heap) (left right c : ContainerId) : Prop where
  new : h.containers.size ≤ c.index
  kind : (h'.container c).kind = .lang
  name : (h'.container c).name = (h.container left).name
  scope : (h'.container c).scope = (h.container left).scope
  property : ∀ x,
    match (h.container left).attrs.get? x, (h.container right).attrs.get? x with
    | none, none => (h'.container c).attrs.get? x = none
    | some s, none | none, some s =>
      ∃ t, (h'.container c).attrs.get? x = some t ∧ h.IsCopy h' s t
    | some s, some r => ∃ t, (h'.container c).attrs.get? x = some t ∧
        h.IsCopy h' (if (h.priority left).le (h.priority right) then r else s) t

/-! ## Copies of slots -/

/-- Each entry of a table of copies names a copy of a slot that it was asked to copy. -/
theorem copySlots_copies {chosen : List (String × SlotId)} (hin : ∀ e ∈ chosen, h.HasSlot e.2)
    {x : String} {t : SlotId} (ht : (h.copySlots chosen).1.get? x = some t) :
    ∃ s, (x, s) ∈ chosen ∧ h.IsCopy (h.copySlots chosen).2 s t := by
  have hall : h.slots.size ≤ (h.copySlots chosen).2.slots.size ∧
      (∀ s, h.HasSlot s → (h.copySlots chosen).2.slot s = h.slot s) ∧
      ∀ x t, (h.copySlots chosen).1.get? x = some t →
        t.index < (h.copySlots chosen).2.slots.size ∧
          ∃ s, (x, s) ∈ chosen ∧ h.IsCopy (h.copySlots chosen).2 s t := by
    refine copySlots_induction
      (P := fun attrs g => h.slots.size ≤ g.slots.size ∧ (∀ s, h.HasSlot s → g.slot s = h.slot s) ∧
        ∀ x t, attrs.get? x = some t → t.index < g.slots.size ∧
          ∃ s, (x, s) ∈ chosen ∧ h.IsCopy g s t) chosen ⟨Nat.le_refl _, fun _ _ => rfl, ?_⟩ ?_
    · intro x t ht
      cases ht
    · rintro attrs g name s hmem ⟨hsize, hold, hattrs⟩
      have hnew : (g.newSlot (g.slot s)).2.slots.size = g.slots.size + 1 := by simp [newSlot]
      refine ⟨by omega, fun u hu => ?_, fun x t ht => ?_⟩
      · rw [slot_newSlot, if_neg (Nat.ne_of_lt (Nat.lt_of_lt_of_le hu hsize)), hold u hu]
      · rw [OrderedMap.get?_insert] at ht
        split at ht
        · rename_i hx
          subst hx
          cases ht
          refine ⟨by simp [newSlot], s, hmem, hsize, ?_⟩
          rw [slot_newSlot, if_pos (by simp [newSlot]), hold s (hin _ hmem)]
        · obtain ⟨hlt, u, hu, hle, hslot⟩ := hattrs x t ht
          refine ⟨by omega, u, hu, hle, ?_⟩
          rw [slot_newSlot, if_neg (Nat.ne_of_lt hlt), hslot]
  exact (hall.2.2 x t ht).2

/-- A table of copies has the names it was asked for. -/
theorem isSome_copySlots (chosen : List (String × SlotId)) (x : String) :
    ((h.copySlots chosen).1.get? x).isSome = true ↔ x ∈ chosen.map Prod.fst := by
  suffices hall : ∀ attrs : OrderedMap SlotId,
      ((chosen.foldl (fun (p : OrderedMap SlotId × Heap) e =>
        (p.1.insert e.1 (p.2.newSlot (p.2.slot e.2)).1, (p.2.newSlot (p.2.slot e.2)).2))
          (attrs, h)).1.get? x).isSome = true ↔
        (attrs.get? x).isSome = true ∨ x ∈ chosen.map Prod.fst from
    (hall .empty).trans (by simp)
  induction chosen generalizing h with
  | nil => simp
  | cons e chosen ih =>
    intro attrs
    rw [List.foldl_cons, ih, OrderedMap.get?_insert, List.map_cons, List.mem_cons]
    split
    · simp [*]
    · simp [*]

/-! ## The properties of a merged Lang -/

theorem mem_mergeSources {left right : ContainerId} {x : String} {s : SlotId} :
    (x, s) ∈ h.mergeSources left right ↔
      mergeChoice ((h.priority left).le (h.priority right)) ((h.container left).attrs.get? x)
        ((h.container right).attrs.get? x) = some s := by
  have hnames : (∃ s, mergeChoice ((h.priority left).le (h.priority right))
      ((h.container left).attrs.get? x) ((h.container right).attrs.get? x) = some s) →
      x ∈ (h.container left).attrs.keys ++ (h.container right).attrs.keys.filter
        fun name => !(h.container left).attrs.contains name := by
    rintro ⟨s, hs⟩
    rw [List.mem_append, List.mem_filter, ← OrderedMap.contains_iff_mem_keys,
      ← OrderedMap.contains_iff_mem_keys]
    unfold OrderedMap.contains
    cases hl : (h.container left).attrs.get? x with
    | some l => exact .inl rfl
    | none =>
      rw [hl] at hs
      cases hr : (h.container right).attrs.get? x with
      | some r => exact .inr ⟨rfl, rfl⟩
      | none =>
        rw [hr] at hs
        cases hs
  unfold mergeSources
  simp only [List.mem_filterMap, Option.map_eq_some_iff, Prod.mk.injEq]
  constructor
  · rintro ⟨name, -, t, ht, rfl, rfl⟩
    exact ht
  · intro hs
    exact ⟨x, hnames ⟨s, hs⟩, s, hs, rfl, rfl⟩

/-- What is copied under a name is an attribute of that name. -/
theorem exists_owner_of_mem_mergeSources {left right : ContainerId} {e : String × SlotId}
    (he : e ∈ h.mergeSources left right) :
    ∃ owner, (h.container owner).attrs.get? e.1 = some e.2 := by
  have hs := mem_mergeSources.1 he
  cases hl : (h.container left).attrs.get? e.1 with
  | none =>
    rw [hl] at hs
    exact ⟨right, hs⟩
  | some l =>
    cases hr : (h.container right).attrs.get? e.1 with
    | none =>
      rw [hl, hr] at hs
      exact ⟨left, hl.trans hs⟩
    | some r =>
      rw [hl, hr, mergeChoice, Option.some.injEq] at hs
      split at hs
      · exact ⟨right, hs ▸ hr⟩
      · exact ⟨left, hs ▸ hl⟩

/-- A Lang that is merged has under each name a copy of the slot that is chosen for it. -/
theorem get?_copySlots_mergeSources (hc : h.Closed) (left right : ContainerId) (x : String) :
    match mergeChoice ((h.priority left).le (h.priority right)) ((h.container left).attrs.get? x)
      ((h.container right).attrs.get? x) with
    | some s => ∃ t, (h.copySlots (h.mergeSources left right)).1.get? x = some t ∧
        h.IsCopy (h.copySlots (h.mergeSources left right)).2 s t
    | none => (h.copySlots (h.mergeSources left right)).1.get? x = none := by
  have hin : ∀ e ∈ h.mergeSources left right, h.HasSlot e.2 := by
    intro e he
    obtain ⟨owner, hs⟩ := exists_owner_of_mem_mergeSources he
    exact (hc.container owner).attrs.get? hs
  have hnames := isSome_copySlots (h := h) (h.mergeSources left right) x
  split
  · rename_i s hs
    have hmem : x ∈ (h.mergeSources left right).map Prod.fst :=
      List.mem_map.2 ⟨(x, s), mem_mergeSources.2 hs, rfl⟩
    obtain ⟨t, ht⟩ := Option.isSome_iff_exists.1 (hnames.2 hmem)
    obtain ⟨u, hu, hcopy⟩ := copySlots_copies hin ht
    cases (mem_mergeSources.1 hu).symm.trans hs
    exact ⟨t, ht, hcopy⟩
  · rename_i hs
    rw [← Option.not_isSome_iff_eq_none, hnames]
    intro hmem
    obtain ⟨⟨_, s⟩, he, rfl⟩ := List.mem_map.1 hmem
    cases (mem_mergeSources.1 he).symm.trans hs

theorem container_mergeLangs (left right : ContainerId) :
    (h.mergeLangs left right).2.container (h.mergeLangs left right).1 =
      { name := (h.container left).name, kind := .lang,
        attrs := (h.copySlots (h.mergeSources left right)).1,
        scope := (h.container left).scope } := by
  have hold : (h.copySlots (h.mergeSources left right)).2.container left = h.container left := by
    rw [container, containers_copySlots]
    rfl
  unfold mergeLangs
  dsimp only
  rw [container_alloc, if_pos (by simp [alloc]), hold]

theorem merged_mergeLangs (hc : h.Closed) (left right : ContainerId) :
    h.Merged (h.mergeLangs left right).2 left right (h.mergeLangs left right).1 := by
  have hmade := container_mergeLangs (h := h) left right
  refine ⟨?_, by rw [hmade], by rw [hmade], by rw [hmade], fun x => ?_⟩
  · show h.containers.size ≤ (h.copySlots (h.mergeSources left right)).2.containers.size
    rw [containers_copySlots]
  · have hx := get?_copySlots_mergeSources hc left right x
    rw [hmade]
    cases hl : (h.container left).attrs.get? x <;>
      cases hr : (h.container right).attrs.get? x <;> rw [hl, hr] at hx <;> exact hx

end Heap
end Ditlang
