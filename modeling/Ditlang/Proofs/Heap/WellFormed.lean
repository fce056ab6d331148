import Ditlang.Proofs.Heap.Conflicts
import Ditlang.Proofs.Heap.Instances
import Ditlang.Proofs.Heap.OwnNames

/-!
# Ditlang.Proofs.Heap.WellFormed

Well-formed stores. Whatever a store refers to is there: slots by attributes and aliases, and
containers by scopes, kinds, types, values, parents, conflicts and the ancestries that are kept. A scope
is older than what it surrounds, so that looking a name up outward ends on its own. And each name of a
container is either an attribute or an alias.

A reachable store is well formed if no instance in it has an alias (`Reachable.wellFormed`), and what
an attribute is bound to stays (`Grows.keepsAttributes`).
-/

namespace Ditlang

structure Ancestry.Valid (h : Heap) (a : Ancestry) : Prop where
  order : ∀ d ∈ a.order, h.IsKind .cls d
  definers : ∀ name, ∀ d ∈ a.definers.definersOf name, h.IsKind .cls d

namespace Heap

/-- What a store refers to is there, and names and scopes are in order. -/
structure WellFormed (h : Heap) : Prop extends h.Closed where
  parent : ∀ c, ∀ p ∈ h.parents c, h.IsKind .cls p
  conflict : ∀ c, ∀ x ∈ h.conflicts c, h.IsKind .cls x.loser
  kept : ∀ c a, h.memo.lookup c = some a → h.IsKind .cls c ∧ a.Valid h
  /-- Looking a name up outward is not cut off before it has come to the outermost scope. -/
  outward : ∀ c name, h.findInScope? c name = match h.findLocal? c name with
    | some s => some s
    | none => (h.container c).scope.bind fun o => h.findInScope? o name
  disjoint : ∀ c, (h.container c).Disjoint

/-- What an attribute is bound to stays. -/
def KeepsAttributes (h h' : Heap) : Prop :=
  ∀ c name s, (h.container c).attrs.get? name = some s → (h'.container c).attrs.get? name = some s

variable {h h' : Heap}

/-! ## Scopes -/

/-- More scopes than there are older containers are never gone through. -/
theorem Closed.findWithin?_of_lt (hc : h.Closed) {n m : Nat} {c : ContainerId} (name : String)
    (hn : c.index < n) (hm : c.index < m) : h.findWithin? n c name = h.findWithin? m c name := by
  induction n generalizing c m with
  | zero => exact absurd hn (Nat.not_lt_zero _)
  | succ n ih =>
    cases m with
    | zero => exact absurd hm (Nat.not_lt_zero _)
    | succ m =>
      rw [findWithin?, findWithin?]
      split
      · rfl
      · split
        · rename_i o hscope
          have hlt := hc.scope c o hscope
          exact ih (by omega) (by omega)
        · rfl

theorem Closed.findInScope?_eq (hc : h.Closed) (c : ContainerId) (name : String) :
    h.findInScope? c name = match h.findLocal? c name with
      | some s => some s
      | none => (h.container c).scope.bind fun o => h.findInScope? o name := by
  rw [findInScope?, findWithin?]
  cases h.findLocal? c name with
  | some s => rfl
  | none =>
    cases hscope : (h.container c).scope with
    | none => rfl
    | some o => exact hc.findWithin?_of_lt name (hc.scope c o hscope) (Nat.lt_succ_self _)

/-! ## Kept ancestries -/

/-- Only ancestries of classes are kept. -/
def KeepsClasses (h : Heap) (memo : List (ContainerId × Ancestry)) : Prop :=
  ∀ c, (memo.lookup c).isSome → h.IsKind .cls c

/-- A walk that has looked at classes only goes on so: the parents of a class are classes. -/
theorem KeepsClasses.step (hp : ∀ c, ∀ p ∈ h.parents c, h.IsKind .cls p) {w : Walk}
    (hw : (∀ e ∈ w.stack, h.IsKind .cls e.1) ∧ h.KeepsClasses w.memo) :
    (∀ e ∈ (w.step h).stack, h.IsKind .cls e.1) ∧ h.KeepsClasses (w.step h).memo := by
  obtain ⟨stack, opened, memo⟩ := w
  obtain ⟨hstack, hmemo⟩ := hw
  cases stack with
  | nil => exact ⟨hstack, hmemo⟩
  | cons e rest =>
    obtain ⟨c, marked⟩ := e
    obtain ⟨hc, hrest⟩ := List.forall_mem_cons.1 hstack
    simp only [Walk.step]
    split
    · exact ⟨hrest, hmemo⟩
    · split
      · refine ⟨hrest, fun d hd => ?_⟩
        rw [List.lookup_cons] at hd
        split at hd
        · rename_i hdc
          exact beq_iff_eq.1 hdc ▸ hc
        · exact hmemo d hd
      · split
        · exact ⟨hrest, hmemo⟩
        · refine ⟨?_, hmemo⟩
          simp only [List.mem_append, List.mem_map, List.mem_filter, List.mem_cons]
          rintro e (⟨p, ⟨hpc, -⟩, rfl⟩ | rfl | he)
          · exact hp c p hpc
          · exact hc
          · exact hrest e he

theorem KeepsClasses.run (hp : ∀ c, ∀ p ∈ h.parents c, h.IsKind .cls p) (n : Nat) {w : Walk}
    (hw : (∀ e ∈ w.stack, h.IsKind .cls e.1) ∧ h.KeepsClasses w.memo) :
    h.KeepsClasses (w.run h n).memo := by
  induction n generalizing w with
  | zero => exact hw.2
  | succ n ih => exact ih (KeepsClasses.step hp hw)

theorem KeepsClasses.mono {memo : List (ContainerId × Ancestry)} (hm : h.KeepsClasses memo)
    (g : h.Grows h') : h'.KeepsClasses memo :=
  fun c hc => (hm c hc).mono g

theorem memo_mergeLangs (left right : ContainerId) : (h.mergeLangs left right).2.memo = h.memo :=
  copySlots_induction (P := fun _ g => g.memo = h.memo) (h.mergeSources left right) rfl
    fun _ _ _ _ _ hg => hg

theorem memo_assign {s : SlotId} {v : Value} (hok : h.assign s v = .ok h') : h'.memo = h.memo := by
  obtain ⟨-, rfl⟩ | ⟨-, -, rfl⟩ := assign_inv hok
  · rfl
  · rcases settle_cases (h := h) (h.slot s).declared (h.slot s).value v with
      hs | ⟨a, b, -, -, hs, -⟩ | ⟨l, -, -, -, -, hs⟩
    · rw [hs]
      rfl
    · rw [hs]
      exact memo_mergeLangs a b
    · rw [hs]
      rfl

/-- An operation leaves the kept ancestries alone, forgets them, or computes that of a class. -/
theorem Step.memo_cases (hs : h.Step h') :
    h'.memo = h.memo ∨ h'.memo = [] ∨ ∃ c, h.IsKind .cls c ∧ h'.memo = h.walkMemo c := by
  cases hs with
  | alloc => exact .inl rfl
  | declare _ hok =>
    obtain ⟨-, rfl, ⟨-, rfl⟩ | ⟨-, found, -, rfl⟩⟩ := declare_inv hok
    · exact .inl rfl
    · exact .inr (.inl rfl)
  | insertAlias _ hok =>
    obtain ⟨-, rfl⟩ := insertAlias_inv hok
    exact .inl rfl
  | assign _ _ hok => exact .inl (memo_assign hok)
  | append _ hok =>
    obtain ⟨-, -, rfl⟩ := append_inv hok
    exact .inl rfl
  | materialize key template =>
    rcases materialize_cases (h := h) _ key template with ⟨s, -, hm⟩ | ⟨-, hm⟩
    · exact .inl (by rw [hm])
    · exact .inl (by rw [hm]; rfl)
  | mergeLangs left right => exact .inl (memo_mergeLangs left right)
  | addParent hok =>
    obtain ⟨-, -, -, found, -, rfl⟩ := addParent_inv hok
    exact .inr (.inl rfl)
  | newList => exact .inl rfl
  | newMap => exact .inl rfl
  | putEntry => exact .inl rfl
  | warm hc => exact .inr (.inr ⟨_, hc, rfl⟩)
  | describe => exact .inl rfl
  | keepFile => exact .inl rfl

theorem Reachable.parent (hr : h.Reachable) (c : ContainerId) :
    ∀ p ∈ h.parents c, h.IsKind .cls p :=
  fun p hp => isKind_cls_iff.2 (hr.lineal.parent_isClass c p hp)

theorem Reachable.keepsClasses (hr : h.Reachable) : h.KeepsClasses h.memo := by
  refine hr.induction (P := fun h => h.KeepsClasses h.memo) (fun c hc => nomatch hc) ?_
  intro h h' hr ih hs
  rcases hs.memo_cases with hm | hm | ⟨c, hc, hm⟩
  · rw [hm]
    exact ih.mono hs.grows
  · rw [hm]
    exact fun c hc => nomatch hc
  · rw [hm]
    refine (KeepsClasses.run hr.parent h.walkBound ⟨?_, ih⟩).mono hs.grows
    exact List.forall_mem_cons.2 ⟨hc, fun _ he => nomatch he⟩

/-- The classes of an ancestry that is kept are those of the class graph. -/
theorem Reachable.valid_of_kept (hr : h.Reachable) {c : ContainerId} {a : Ancestry}
    (hk : h.memo.lookup c = some a) : h.IsKind .cls c ∧ a.Valid h := by
  have hc : h.IsKind .cls c := hr.keepsClasses c (by rw [hk]; rfl)
  have hl := hr.lineal
  have hclass := isKind_cls_iff.1 hc
  have hshallow := shallow_of_acyclic hl.acyclic c
  obtain rfl := (hl.recalls c a hk).eq hclass
  have hsub : ∀ d, h.Subclass c d → h.IsKind .cls d := fun d hd =>
    isKind_cls_iff.2 (hl.isClass_of_subclass hclass hd)
  refine ⟨hc, ⟨fun d hd => ?_, fun name d hd => ?_⟩⟩
  · exact hsub d ((mem_order_plainAncestry hshallow).1 hd)
  · exact hsub d ((mem_definers_plainAncestry hshallow).1 hd).subclass

/-! ## Well-formed stores -/

theorem Reachable.conflict (hr : h.Reachable) (c : ContainerId) :
    ∀ x ∈ h.conflicts c, h.IsKind .cls x.loser := by
  rintro ⟨d, name⟩ hx
  have hclass : (h.container c).isClass = true := by
    unfold conflicts at hx
    split at hx
    · rename_i data hk
      simp [Container.isClass, hk]
    · cases hx
  have hsub := (hr.built.subclass_of_mem_losers hclass (mem_losers.2 hx)).1
  exact isKind_cls_iff.2 (hr.lineal.isClass_of_subclass hclass hsub)

theorem Reachable.wellFormed (hr : h.Reachable) (hu : h.Unaliased) : h.WellFormed where
  toClosed := hr.closed
  parent := hr.parent
  conflict := hr.conflict
  kept _ _ := hr.valid_of_kept
  outward := hr.closed.findInScope?_eq
  disjoint := hr.disjoint hu

theorem Grows.keepsAttributes (g : h.Grows h') : h.KeepsAttributes h' := by
  intro c name s hs
  by_cases hlt : c.index < h.containers.size
  · exact (g.container c hlt).attrs name s hs
  · rw [container_of_size_le (Nat.not_lt.1 hlt)] at hs
    cases hs

end Heap
end Ditlang
