import Ditlang.Proofs.Heap.SlotTyping

/-!
# Ditlang.Proofs.Heap.ListGraph

The lists of a store as a graph: `Holds a b` when list `b` is an item of list `a`. An operation
leaves this graph as it is, adds a list that nothing holds yet, or adds an item to a list
(`Step.listsStep`), and an item that would put a list inside itself is refused. So lists never
contain themselves (`Reachable.untangled`), and the searches through lists, which are cut after as many
levels as there are lists, miss nothing (`not_within_of_closesCycle`).
-/

namespace Ditlang
namespace Heap

variable {h h' : Heap}

/-- List `b` is an item of list `a`. -/
def Holds (h : Heap) (a b : ListId) : Prop :=
  .listRef b ∈ (h.list a).items

/-- List `b` is list `a` or lies inside of it. -/
def Within (h : Heap) : ListId → ListId → Prop :=
  Relation.ReflTransGen h.Holds

/-- List `b` lies inside list `a`, at some depth. -/
def Nested (h : Heap) : ListId → ListId → Prop :=
  Relation.TransGen h.Holds

/-- No list contains itself. -/
def Untangled (h : Heap) : Prop :=
  Graph.Acyclic h.Holds

theorem nested_iff {a b : ListId} : h.Nested a b ↔ ∃ k, h.Holds a k ∧ h.Within k b :=
  Relation.TransGen.head'_iff

theorem lt_size_of_mem {l : ListId} {v : Value} (hv : v ∈ (h.list l).items) :
    l.index < h.lists.size := by
  by_contra hlt
  rw [list_of_size_le (Nat.not_lt.1 hlt)] at hv
  cases hv

theorem Holds.lt_size {a b : ListId} (hab : h.Holds a b) : a.index < h.lists.size :=
  lt_size_of_mem hab

theorem Holds.mono (g : h.Grows h') {a b : ListId} (hab : h.Holds a b) : h'.Holds a b :=
  (g.items a hab.lt_size).subset hab

theorem Within.mono (g : h.Grows h') {a b : ListId} (hab : h.Within a b) : h'.Within a b :=
  Relation.ReflTransGen.mono (fun _ _ => Holds.mono g) _ _ hab

theorem Nested.mono (g : h.Grows h') {a b : ListId} (hab : h.Nested a b) : h'.Nested a b :=
  Relation.TransGen.mono (fun _ _ => Holds.mono g) _ _ hab

theorem Nested.lt_size (hc : h.Closed) {a b : ListId} (hab : h.Nested a b) :
    b.index < h.lists.size := by
  obtain ⟨k, -, hb⟩ := Relation.TransGen.tail'_iff.1 hab
  exact (hc.list k).items _ hb

/-! ## What a step does to the lists -/

/-- What an operation can do to the lists of a store: nothing; add a list, which is untyped or a
committed copy of one that was checked; or append a value to a list. -/
inductive ListsStep (h h' : Heap) : Prop where
  | same : h'.lists = h.lists → ListsStep h h'
  | push {ty : TypeSpec} {items : List Value} : (∀ v ∈ items, v.Valid h) →
      (ty ≠ .thing → ∃ k, h.checkList k ty = none ∧ items = (h.list k).items) →
      h'.lists = h.lists.push ⟨ty, items⟩ → ListsStep h h'
  | append {k : ListId} {v : Value} : v.Valid h → h.append k v = .ok h' → ListsStep h h'

theorem lists_mergeLangs (left right : ContainerId) :
    (h.mergeLangs left right).2.lists = h.lists :=
  copySlots_induction (P := fun _ g => g.lists = h.lists) _ rfl fun _ _ _ _ _ hg => hg

theorem list_of_lists (he : h'.lists = h.lists) (l : ListId) : h'.list l = h.list l := by
  rw [list, he]
  rfl

theorem list_of_push {ty : TypeSpec} {items : List Value}
    (he : h'.lists = h.lists.push ⟨ty, items⟩) (l : ListId) :
    h'.list l = if l.index = h.lists.size then ⟨ty, items⟩ else h.list l := by
  rw [← list_newList, list, he]
  rfl

theorem listsStep_assign (hc : h.Closed) (hl : h.Lineal) {s : SlotId} {v : Value}
    (hok : h.assign s v = .ok h') : ListsStep h h' := by
  obtain ⟨-, rfl⟩ | ⟨-, hcheck, rfl⟩ := assign_inv hok
  · exact .same rfl
  · rcases settle_cases (h := h) (h.slot s).declared (h.slot s).value v with
      hs | ⟨a, b, -, -, hs, -⟩ | ⟨k, rfl, hd, ht, -, hs⟩
    · rw [hs]
      exact .same rfl
    · rw [hs]
      exact .same (lists_mergeLangs a b)
    · rw [hs]
      have hg : (h.slot s).declared.isGeneric = false := by simp [Declared.isGeneric, hd]
      rcases checkValue_eq_none hl hg hcheck with hn | ⟨hd', -⟩ | ⟨-, j, hj, hlist⟩
      · cases hn
      · rw [hd] at hd'
        cases hd'
      · cases hj
        exact .push (hc.list k).items (fun _ => ⟨k, hlist, rfl⟩) rfl

theorem Step.listsStep (hs : h.Step h') (hr : h.Reachable) : ListsStep h h' := by
  cases hs with
  | declare _ hok =>
    obtain ⟨-, -, ⟨-, rfl⟩ | ⟨-, found, -, rfl⟩⟩ := declare_inv hok
    · exact .same rfl
    · exact .same rfl
  | insertAlias _ hok =>
    obtain ⟨-, rfl⟩ := insertAlias_inv hok
    exact .same rfl
  | assign _ _ hok => exact listsStep_assign hr.closed hr.lineal hok
  | append hv hok => exact .append hv hok
  | materialize key template =>
    rcases materialize_cases (h := h) _ key template with ⟨s, -, hm⟩ | ⟨-, hm⟩
    · rw [hm]
      exact .same rfl
    · rw [hm]
      exact .same rfl
  | mergeLangs left right => exact .same (lists_mergeLangs left right)
  | addParent hok =>
    obtain ⟨-, -, -, found, -, rfl⟩ := addParent_inv hok
    exact .same rfl
  | newList hi => exact .push hi (fun ht => absurd rfl ht) rfl
  | _ => exact .same rfl

/-! ## Paths after a step -/

theorem holds_of_lists (he : h'.lists = h.lists) : h'.Holds = h.Holds := by
  funext a b
  rw [Holds, list_of_lists he]
  rfl

section Push

variable {ty : TypeSpec} {items : List Value} (he : h'.lists = h.lists.push ⟨ty, items⟩)

include he

/-- What a list that was there holds, it held before. -/
theorem holds_of_push {a b : ListId} (ha : a.index < h.lists.size) (hab : h'.Holds a b) :
    h.Holds a b := by
  rw [Holds, list_of_push he, if_neg (Nat.ne_of_lt ha)] at hab
  exact hab

/-- A way from a list that was there before passes no new list. -/
theorem within_of_push (hc : h.Closed) {a b : ListId} (ha : a.index < h.lists.size)
    (hab : h'.Within a b) : h.Within a b ∧ b.index < h.lists.size := by
  induction hab with
  | refl => exact ⟨.refl, ha⟩
  | tail _ hxb ih =>
    have hold := holds_of_push he ih.2 hxb
    exact ⟨ih.1.tail hold, (hc.list _).items _ hold⟩

/-- What the new list holds was there before, and so was what another list holds. -/
theorem lt_size_of_holds_push (hc : h.Closed) (hv : ∀ v ∈ items, v.Valid h) {a b : ListId}
    (hab : h'.Holds a b) : b.index < h.lists.size := by
  rw [Holds, list_of_push he] at hab
  split at hab
  · exact hv _ hab
  · exact (hc.list a).items _ hab

end Push

section Append

variable {k : ListId} {v : Value} (hok : h.append k v = .ok h')

include hok

theorem mem_items_of_append (hk : k.index < h.lists.size) : v ∈ (h'.list k).items := by
  obtain ⟨-, -, rfl⟩ := append_inv hok
  rw [list_setList_eq, if_pos ⟨rfl, hk⟩]
  exact List.mem_append_right _ List.mem_cons_self

theorem containers_append : h'.containers = h.containers := by
  obtain ⟨-, -, rfl⟩ := append_inv hok
  rfl

theorem elem_append (l : ListId) : (h'.list l).elem = (h.list l).elem := by
  obtain ⟨-, -, rfl⟩ := append_inv hok
  rw [list_setList_eq]
  split
  · rename_i hk
    rw [hk.1]
  · rfl

theorem mem_append_items {m : ListId} {u : Value} (hu : u ∈ (h'.list m).items) :
    u ∈ (h.list m).items ∨ (m = k ∧ u = v) := by
  obtain ⟨-, -, rfl⟩ := append_inv hok
  rw [list_setList_eq] at hu
  split at hu
  · rename_i hk
    rcases List.mem_append.1 hu with hold | hnew
    · exact .inl (hk.1 ▸ hold)
    · exact .inr ⟨hk.1.symm, List.mem_singleton.1 hnew⟩
  · exact .inl hu

/-- What a list holds after an append, it held before or is what was appended. -/
theorem holds_of_append {a b : ListId}
    (hab : h'.Holds a b) : h.Holds a b ∨ (a = k ∧ v = .listRef b) :=
  (mem_append_items hok hab).imp_right fun hnew => ⟨hnew.1, hnew.2.symm⟩

end Append

/-! ## Searches miss nothing -/

/-- Lists can be ranked so that what a list holds ranks below it. -/
theorem Untangled.exists_rank (hu : h.Untangled) :
    ∃ rank : ListId → Nat, (∀ l, rank l < h.lists.size + 1) ∧
      ∀ a b, h.Holds a b → rank b < rank a := by
  obtain ⟨rank, hle, hlt⟩ := Graph.Acyclic.exists_rank hu ListId.index
    (fun ⟨_⟩ ⟨_⟩ he => congrArg ListId.mk he) fun _ _ => Holds.lt_size
  exact ⟨rank, fun l => Nat.lt_succ_of_le (hle l), hlt⟩

theorem reachesWithin_of_nested {rank : ListId → Nat} (hlt : ∀ a b, h.Holds a b → rank b < rank a)
    {needle : ListId} {n : Nat} {l : ListId} (hn : rank l < n) (hl : h.Nested l needle) :
    h.reachesWithin needle n l = true := by
  induction n generalizing l with
  | zero => cases hn
  | succ n ih =>
    obtain ⟨k, hk, hkn⟩ := nested_iff.1 hl
    rw [reachesWithin, List.any_eq_true]
    refine ⟨.listRef k, hk, ?_⟩
    rcases Relation.reflTransGen_iff_eq_or_transGen.1 hkn with rfl | hkn
    · simp
    · have hrank := hlt l k hk
      simp [ih (by omega) hkn]

/-- A list that may be appended to another one is not that list, and does not contain it. -/
theorem not_within_of_closesCycle (hu : h.Untangled) {l k : ListId}
    (hc : h.closesCycle l (.listRef k) = false) : ¬ h.Within k l := by
  obtain ⟨rank, hle, hlt⟩ := hu.exists_rank
  rw [closesCycle, Bool.or_eq_false_iff] at hc
  intro hkl
  rcases Relation.reflTransGen_iff_eq_or_transGen.1 hkl with rfl | hkl
  · simp at hc
  · rw [listContains, reachesWithin_of_nested hlt (hle k) hkl] at hc
    cases hc.2

/-! ## Lists do not contain themselves -/

theorem Step.untangled (hs : h.Step h') (hr : h.Reachable) (hu : h.Untangled) : h'.Untangled := by
  cases hs.listsStep hr with
  | same he => exact Graph.Acyclic.mono hu fun _ _ hab => holds_of_lists he ▸ hab
  | push hv _ he =>
    intro a b hab hcycle
    have hb := lt_size_of_holds_push he hr.closed hv hab
    obtain ⟨hcycle, ha⟩ := within_of_push he hr.closed hb hcycle
    exact hu a b (holds_of_push he ha hab) hcycle
  | @append k v _ hok =>
    by_cases hlist : ∃ w, v = .listRef w
    · obtain ⟨w, rfl⟩ := hlist
      have hway := not_within_of_closesCycle hu (append_inv hok).1
      refine Graph.Acyclic.addEdge hu hway fun x y hxy => ?_
      exact (holds_of_append hok hxy).imp_right fun hnew => ⟨hnew.1, (Value.listRef.inj hnew.2).symm⟩
    · refine Graph.Acyclic.mono hu fun x y hxy => ?_
      exact (holds_of_append hok hxy).resolve_right fun hnew => hlist ⟨y, hnew.2⟩

theorem Reachable.untangled (hr : h.Reachable) : h.Untangled :=
  hr.induction (fun _ _ hab => nomatch hab) fun _ _ hr hu hs => hs.untangled hr hu

end Heap
end Ditlang
