import Ditlang.Proofs.Heap.ListGraph

/-!
# Ditlang.Proofs.Heap.NestedLists

The leaves of lists inside of lists. A list is checked through every level of nesting when it is
assigned or appended, but only then, and only the outermost list commits to the element type. The lists
inside of it stay shared, and one of them that is still untyped takes everything.

* `Reachable.coherent`: a committed list directly inside a committed list has an element type that
  may stand for the outer one. So leaves fit that are reached through committed lists alone.
* `Step.nestedTyped_iff`: of all operations only an append can put a leaf of another type into a list
  inside of a committed one, and it does so exactly when what is appended does not fit around there.
* `nestedTyped_run_iff`: the same for a whole run.
-/

namespace Ditlang

/-- A value that is neither null nor a list. -/
def Value.IsLeaf : Value → Prop
  | .null | .listRef _ => False
  | _ => True

namespace Heap

variable {h h' : Heap}

/-- List `b` lies inside list `a`, and every list on the way to it is committed, itself included. -/
def NestedCommitted (h : Heap) : ListId → ListId → Prop :=
  Relation.TransGen fun a b => h.Holds a b ∧ (h.list b).elem ≠ .thing

/-- The leaves of a list are of a type. -/
def LeavesFit (h : Heap) (l : ListId) (ty : TypeSpec) : Prop :=
  ∀ v ∈ (h.list l).items, v.IsLeaf → h.Fits v ty

/-! ## Committed lists inside committed lists -/

/-- A committed list directly inside a committed list has an element type that may stand for the
outer one. -/
def Coherent (h : Heap) : Prop :=
  ∀ a b, (h.list a).elem ≠ .thing → (h.list b).elem ≠ .thing → h.Holds a b →
    h.ElemFits (h.list b).elem (h.list a).elem

/-- A list that passed a check and is committed has an element type that fits. -/
theorem elemFits_of_checkList (hl : h.Lineal) {l : ListId} {elem : TypeSpec} (he : elem ≠ .thing)
    (hc : h.checkList l elem = none) (hne : (h.list l).elem ≠ .thing) :
    h.ElemFits (h.list l).elem elem :=
  (listMismatch?_eq_none hl he hc).1 hne

/-- So do the lists inside one that passed a check. -/
theorem elemFits_of_holds (hl : h.Lineal) {l b : ListId} {elem : TypeSpec} (he : elem ≠ .thing)
    (hc : h.checkList l elem = none) (hb : h.Holds l b) (hne : (h.list b).elem ≠ .thing) :
    h.ElemFits (h.list b).elem elem := by
  have hinner := (listMismatch?_eq_none hl he hc).2.2 b hb
  -- There is a list, so the check goes at least one level further.
  have hpos := lt_size_of_elem hne
  obtain ⟨n, hn⟩ := Nat.exists_eq_succ_of_ne_zero (Nat.ne_of_gt (Nat.zero_lt_of_lt hpos))
  rw [hn] at hinner
  exact (listMismatch?_eq_none hl he hinner).1 hne

theorem Step.coherent (hs : h.Step h') (hr : h.Reachable) (hc : h.Coherent) : h'.Coherent := by
  have hl := hr.lineal
  have g := hs.grows
  intro a b ha hb hab
  cases hs.listsStep hr with
  | same he =>
    rw [holds_of_lists he] at hab
    rw [list_of_lists he] at ha hb ⊢
    rw [list_of_lists he]
    exact (hc a b ha hb hab).mono g
  | @push ty items hv hty he =>
    have hbold := lt_size_of_holds_push he hr.closed hv hab
    rw [g.elem b hbold] at hb ⊢
    by_cases hnew : a.index = h.lists.size
    · -- The new list holds what a list holds that was checked.
      rw [Holds, list_of_push he, if_pos hnew] at hab
      rw [list_of_push he, if_pos hnew] at ha ⊢
      obtain ⟨k, hcheck, rfl⟩ := hty ha
      exact (elemFits_of_holds hl ha hcheck hab hb).mono g
    · rw [Holds, list_of_push he, if_neg hnew] at hab
      rw [list_of_push he, if_neg hnew] at ha ⊢
      exact (hc a b ha hb hab).mono g
  | append hv hok =>
    rw [elem_append hok] at ha hb ⊢
    rw [elem_append hok]
    rcases holds_of_append hok hab with hold | ⟨rfl, rfl⟩
    · exact (hc a b ha hb hold).mono g
    · have hcheck := (elementFits_eq_true hl ((append_inv hok).2.1 ha)).2 b rfl
      exact (elemFits_of_checkList hl ha hcheck hb).mono g

theorem Reachable.coherent (hr : h.Reachable) : h.Coherent :=
  hr.induction (fun _ _ ha => absurd rfl ha) fun _ _ hr hc hs => hs.coherent hr hc

theorem leavesFit_of_itemFits {l : ListId} {ty : TypeSpec}
    (hi : ∀ v ∈ (h.list l).items, h.ItemFits v ty) : h.LeavesFit l ty := by
  intro v hv hleaf
  rcases hi v hv with rfl | ⟨k, rfl⟩ | hf
  · cases hleaf
  · cases hleaf
  · exact hf

/-- The leaves of a committed list are of its element type. -/
theorem leavesFit_of_elemFits (hw : h.WellTyped) {l : ListId} {ty : TypeSpec}
    (hl : (h.list l).elem ≠ .thing) (hfit : h.ElemFits (h.list l).elem ty) :
    h.LeavesFit l ty :=
  fun v hv hleaf => (leavesFit_of_itemFits (hw.list l hl) v hv hleaf).trans hfit

/-- Element types fit all the way down through committed lists. -/
theorem elemFits_of_nestedCommitted (hc : h.Coherent) {a b : ListId} (ha : (h.list a).elem ≠ .thing)
    (hab : h.NestedCommitted a b) :
    (h.list b).elem ≠ .thing ∧ h.ElemFits (h.list b).elem (h.list a).elem := by
  induction hab with
  | single hb => exact ⟨hb.2, hc _ _ ha hb.2 hb.1⟩
  | tail _ hc' ih => exact ⟨hc'.2, (hc _ _ ih.1 hc'.2 hc'.1).trans ih.2⟩

/-! ## What a check says about every level -/

theorem leavesFit_of_listMismatch? (hl : h.Lineal) {rank : ListId → Nat}
    (hlt : ∀ a b, h.Holds a b → rank b < rank a) {elem : TypeSpec} (he : elem ≠ .thing) {n : Nat}
    {l m : ListId} (hn : rank l < n) (hc : h.listMismatch? elem n l = none) (hm : h.Within l m) :
    h.LeavesFit m elem := by
  induction n generalizing l with
  | zero => cases hn
  | succ n ih =>
    obtain ⟨-, hitems, hinner⟩ := listMismatch?_eq_none hl he hc
    rcases hm.cases_head with rfl | ⟨k, hk, hkm⟩
    · exact leavesFit_of_itemFits hitems
    · have hrank := hlt l k hk
      exact ih (by omega) (hinner k hk) hkm

/-- A check goes through every level: no list lies so deep that it is not reached. -/
theorem leavesFit_of_checkList (hr : h.Reachable) {elem : TypeSpec} (he : elem ≠ .thing)
    {l m : ListId} (hc : h.checkList l elem = none) (hm : h.Within l m) : h.LeavesFit m elem := by
  obtain ⟨rank, hle, hlt⟩ := hr.untangled.exists_rank
  exact leavesFit_of_listMismatch? hr.lineal hlt he (hle l) hc hm

/-! ## Leaves at every depth -/

/-- The leaves of all lists inside of a committed list are of its element type. -/
def NestedTyped (h : Heap) : Prop :=
  ∀ l, (h.list l).elem ≠ .thing → ∀ m, h.Nested l m → h.LeavesFit m (h.list l).elem

/-- A value is of a type, or a list whose leaves are at every depth. -/
def DeepFits (h : Heap) (v : Value) (ty : TypeSpec) : Prop :=
  (v.IsLeaf → h.Fits v ty) ∧ ∀ k, v = .listRef k → ∀ m, h.Within k m → h.LeavesFit m ty

/-- If an operation is an append, then the value fits each committed list in which the list lies that
it is appended to. -/
def Sheltered (h h' : Heap) : Prop :=
  ∀ k v, h.append k v = .ok h' → ∀ l, (h.list l).elem ≠ .thing → h.Nested l k →
    h.DeepFits v (h.list l).elem

theorem LeavesFit.mono (g : h.Grows h') {l : ListId} {ty : TypeSpec} (he : h'.list l = h.list l)
    (hf : h.LeavesFit l ty) : h'.LeavesFit l ty := by
  intro v hv hleaf
  rw [he] at hv
  exact (hf v hv hleaf).mono g

theorem NestedTyped.of_lists (hn : h.NestedTyped) (g : h.Grows h') (he : h'.lists = h.lists) :
    h'.NestedTyped := by
  intro l hl m hlm
  rw [Nested, holds_of_lists he] at hlm
  rw [list_of_lists he] at hl ⊢
  exact (hn l hl m hlm).mono g (list_of_lists he m)

/-- A list that nothing holds may be added if it is untyped or what it holds was checked. -/
theorem NestedTyped.of_push (hr : h.Reachable) (hn : h.NestedTyped) (g : h.Grows h')
    {ty : TypeSpec} {items : List Value} (hv : ∀ v ∈ items, v.Valid h)
    (hty : ty ≠ .thing → ∃ k, h.checkList k ty = none ∧ items = (h.list k).items)
    (he : h'.lists = h.lists.push ⟨ty, items⟩) : h'.NestedTyped := by
  intro l hl m hlm
  obtain ⟨b, hlb, hbm⟩ := nested_iff.1 hlm
  have hb := lt_size_of_holds_push he hr.closed hv hlb
  obtain ⟨hbm, hm⟩ := within_of_push he hr.closed hb hbm
  have hsame : h'.list m = h.list m := by rw [list_of_push he, if_neg (Nat.ne_of_lt hm)]
  by_cases hnew : l.index = h.lists.size
  · rw [Holds, list_of_push he, if_pos hnew] at hlb
    rw [list_of_push he, if_pos hnew] at hl ⊢
    obtain ⟨k, hcheck, rfl⟩ := hty hl
    exact (leavesFit_of_checkList hr hl hcheck (.head hlb hbm)).mono g hsame
  · rw [Holds, list_of_push he, if_neg hnew] at hlb
    rw [list_of_push he, if_neg hnew] at hl ⊢
    exact (hn l hl m (nested_iff.2 ⟨b, hlb, hbm⟩)).mono g hsame

/-- After an append a way either was there before or leads through what was appended. -/
theorem nested_of_append {k : ListId} {v : Value} (hok : h.append k v = .ok h') {a b : ListId}
    (hab : h'.Nested a b) :
    h.Nested a b ∨ (h.Within a k ∧ ∃ w, v = .listRef w ∧ h.Within w b) := by
  induction hab with
  | single hab =>
    rcases holds_of_append hok hab with hold | ⟨rfl, hv⟩
    · exact .inl (.single hold)
    · exact .inr ⟨.refl, _, hv, .refl⟩
  | tail _ hxb ih =>
    rcases holds_of_append hok hxb with hold | ⟨rfl, hv⟩
    · rcases ih with hax | ⟨hak, w, hv, hwx⟩
      · exact .inl (hax.tail hold)
      · exact .inr ⟨hak, w, hv, hwx.tail hold⟩
    · rcases ih with hax | ⟨hak, -⟩
      · exact .inr ⟨hax.to_reflTransGen, _, hv, .refl⟩
      · exact .inr ⟨hak, _, hv, .refl⟩

theorem NestedTyped.of_append (hr : h.Reachable) (hn : h.NestedTyped) (g : h.Grows h') {k : ListId}
    {v : Value} (hok : h.append k v = .ok h') (hs : h.Sheltered h') : h'.NestedTyped := by
  intro l hl m hlm u hu hleaf
  rw [elem_append hok] at hl ⊢
  rcases nested_of_append hok hlm with hold | ⟨hlk, w, rfl, hwm⟩
  · rcases mem_append_items hok hu with hu | ⟨rfl, rfl⟩
    · exact (hn l hl m hold u hu hleaf).mono g
    · exact ((hs m u hok l hl hold).1 hleaf).mono g
  · rcases mem_append_items hok hu with hu | ⟨-, rfl⟩
    · rcases Relation.reflTransGen_iff_eq_or_transGen.1 hlk with rfl | hlk
      · -- The list itself is committed, so that what is appended was checked.
        have hcheck := (elementFits_eq_true hr.lineal ((append_inv hok).2.1 hl)).2 w rfl
        exact (leavesFit_of_checkList hr hl hcheck hwm u hu hleaf).mono g
      · exact ((hs k _ hok l hl hlk).2 w rfl m hwm u hu hleaf).mono g
    · cases hleaf

theorem Fits.of_containers {v : Value} {ty : TypeSpec} (hf : h'.Fits v ty)
    (hc : h'.containers = h.containers) : h.Fits v ty := by
  have hcon : ∀ c, h'.container c = h.container c := fun c => by rw [container, hc]; rfl
  have hpar : ∀ c, h'.parents c = h.parents c := fun c => parents_of_kind (by rw [hcon c])
  cases hf with
  | of ho hsub =>
    rw [classOf?_eq_some, hcon, ← classOf?_eq_some] at ho
    exact .of ho (subclass_congr hpar ▸ hsub)
  | _ => constructor

/-- What was appended fits around there if the leaves fit afterwards. -/
theorem Sheltered.of_nestedTyped (hc : h.Closed) (g : h.Grows h') (hn : h'.NestedTyped) :
    h.Sheltered h' := by
  intro k v hok l hl hlk
  have hmem := mem_items_of_append hok (hlk.lt_size hc)
  have hl' : (h'.list l).elem ≠ .thing := by
    rw [elem_append hok]
    exact hl
  have hfit : ∀ m, h'.Nested l m → h'.LeavesFit m (h.list l).elem := by
    intro m hm
    rw [← elem_append hok]
    exact hn l hl' m hm
  refine ⟨fun hleaf => ?_, ?_⟩
  · exact (hfit k (hlk.mono g) v hmem hleaf).of_containers (containers_append hok)
  · rintro w rfl m hwm u hu hleaf
    have hlm : h'.Nested l m := ((hlk.mono g).tail hmem).trans_left (hwm.mono g)
    have hu' : u ∈ (h'.list m).items := (g.items m (lt_size_of_mem hu)).subset hu
    exact (hfit m hlm u hu' hleaf).of_containers (containers_append hok)

/-- An operation keeps the leaves at every depth typed, unless it is an append of what does not fit
around there. -/
theorem Step.nestedTyped_iff (hs : h.Step h') (hr : h.Reachable) (hn : h.NestedTyped) :
    h'.NestedTyped ↔ h.Sheltered h' := by
  have g := hs.grows
  constructor
  · exact Sheltered.of_nestedTyped hr.closed g
  · intro hsh
    cases hs.listsStep hr with
    | same he => exact hn.of_lists g he
    | push hv hty he => exact hn.of_push hr g hv hty he
    | append hv hok => exact hn.of_append hr g hok hsh

/-- The leaves at every depth are typed all along a run exactly when all of its appends put values
where they fit. -/
theorem nestedTyped_run_iff (hr : h.Reachable) {run : List Heap} (hrun : (h :: run).IsChain Step) :
    (∀ g ∈ h :: run, g.NestedTyped) ↔ h.NestedTyped ∧ (h :: run).IsChain Sheltered := by
  induction run generalizing h with
  | nil => simp
  | cons h' run ih =>
    rw [List.isChain_cons_cons] at hrun ⊢
    rw [List.forall_mem_cons, ih (hr.step hrun.1) hrun.2]
    constructor
    · rintro ⟨hn, hn', hch⟩
      exact ⟨hn, (hrun.1.nestedTyped_iff hr hn).1 hn', hch⟩
    · rintro ⟨hn, hsh, hch⟩
      exact ⟨hn, (hrun.1.nestedTyped_iff hr hn).2 hsh, hch⟩

end Heap
end Ditlang
