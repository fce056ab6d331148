import Ditlang.Proofs.Heap.NestedLists

/-!
# Ditlang.Proofs.Heap.StrayLeaves

Which lists keep their leaves within a type whatever is done: those that are committed to a type that
may stand for it, and no others (`leavesFit_forever_iff`). Every type but `Thing` has a value that is
of no other types than those it may stand for (`exists_inhabits`), so a list that is not committed so
can get a leaf that is not of the type, and at most three operations do it (`exists_stray`).
-/

namespace Ditlang
namespace Heap

variable {h h' : Heap}

/-! ## Values of a type -/

theorem steps_alloc {c : Container} (hf : c.Fresh) (hk : c.kind.Valid h) (hs : c.scope = none) :
    h.Steps (h.alloc c).2 :=
  .single (.alloc hf hk fun _ ho => nomatch hs.symm.trans ho)

/-- A type has a value that is of no other types than those it may stand for, and at most two
operations make one. -/
structure Inhabits (h h' : Heap) (v : Value) (ty : TypeSpec) : Prop where
  steps : h.Steps h'
  lists : h'.lists = h.lists
  valid : v.Valid h'
  leaf : v.IsLeaf
  fits : h'.Fits v ty
  only : ∀ other, other.Valid h → other ≠ .thing → h'.Fits v other → h.ElemFits ty other

theorem subclass_newInstance (c : ContainerId) : (h.newInstance c).2.Subclass = h.Subclass := by
  refine subclass_congr (parents_alloc ?_)
  intro _ hk
  cases hk

/-- A new instance is of the classes above its own. -/
theorem fits_newInstance {c : ContainerId} {ty : TypeSpec} (ht : ty ≠ .thing)
    (hf : (h.newInstance c).2.Fits (.instanceRef (h.newInstance c).1) ty) :
    ty = .inst ∨ ∃ d, ty = .of d ∧ h.Subclass c d := by
  cases hf with
  | thing => exact absurd rfl ht
  | inst => exact .inl rfl
  | @of _ own d ho hsub =>
    right
    refine ⟨d, rfl, ?_⟩
    have hown : own = c := by
      rw [classOf?_eq_some, newInstance, container_alloc, if_pos (by simp [alloc])] at ho
      exact (ContainerKind.inst.inj ho).symm
    rw [hown, subclass_newInstance] at hsub
    exact hsub

theorem inhabits_newInstance {c : ContainerId} (hc : h.IsKind .cls c) :
    h.Inhabits (h.newInstance c).2 (.instanceRef (h.newInstance c).1) (.of c) where
  steps := steps_alloc ⟨rfl, rfl, fun _ hk => nomatch hk⟩ hc rfl
  lists := rfl
  valid := isKind_alloc rfl
  leaf := trivial
  fits := by
    refine .of ?_ .refl
    rw [classOf?_eq_some, newInstance, container_alloc, if_pos (by simp [alloc])]
  only other _ hne hf := by
    rcases fits_newInstance hne hf with rfl | ⟨d, rfl, hsub⟩
    · exact .inst c
    · exact .of hsub

/-- Only instances are of more than one type besides `Thing`. -/
theorem Fits.unique {v : Value} {a b : TypeSpec} (hv : ∀ i, v ≠ .instanceRef i) (ha : a ≠ .thing)
    (hb : b ≠ .thing) (hfa : h.Fits v a) (hfb : h.Fits v b) : b = a := by
  cases hfa with
  | thing => exact absurd rfl ha
  | inst i => exact absurd rfl (hv i)
  | of => exact absurd rfl (hv _)
  | _ =>
    cases hfb with
    | thing => exact absurd rfl hb
    | _ => rfl

theorem Inhabits.of_unique {v : Value} {ty : TypeSpec} (hs : h.Steps h')
    (hl : h'.lists = h.lists) (hv : v.Valid h') (hleaf : v.IsLeaf) (hi : ∀ i, v ≠ .instanceRef i)
    (ht : ty ≠ .thing) (hfits : h'.Fits v ty) : h.Inhabits h' v ty :=
  ⟨hs, hl, hv, hleaf, hfits, fun _ _ hne hf => hfits.unique hi ht hne hf ▸ .refl _⟩

/-- An instance of a class that was not there before. -/
theorem exists_inhabits_inst (h : Heap) : ∃ h' v, h.Inhabits h' v .inst := by
  let c : Container := { name := none, kind := .cls {} }
  have hcls : (h.alloc c).2.IsKind .cls (h.alloc c).1 := isKind_alloc rfl
  have hnew := inhabits_newInstance hcls
  have hc : ∀ data, c.kind = .cls data → data = {} := fun data hk => (ContainerKind.cls.inj hk).symm
  refine ⟨_, _, ?_, hnew.lists, hnew.valid, hnew.leaf, .inst _, ?_⟩
  · exact (steps_alloc ⟨rfl, rfl, hc⟩ trivial rfl).trans hnew.steps
  · intro other hv hne hf
    rcases fits_newInstance hne hf with rfl | ⟨d, rfl, hsub⟩
    · exact .refl _
    · -- The new class has no parents, and `d` was there before it.
      exfalso
      rw [subclass_congr (parents_alloc hc)] at hsub
      rcases hsub.cases_head with he | ⟨p, hp, -⟩
      · exact absurd (IsKind.lt_size hv) (by simp [← he, alloc])
      · exact absurd (lt_size_of_isClass (isClass_of_mem_parents hp)) (by simp [alloc])

/-- A store with one more container of a kind. -/
def withKind (h : Heap) (k : ContainerKind) : ContainerId × Heap :=
  h.alloc { name := none, kind := k }

theorem exists_inhabits {ty : TypeSpec} (hv : ty.Valid h) (ht : ty ≠ .thing) :
    ∃ h' v, h.Inhabits h' v ty := by
  have hmake : ∀ k : ContainerKind, k.Valid h → (∀ data, k = .cls data → data = {}) →
      h.Steps (h.withKind k).2 := fun k hk hc => steps_alloc ⟨rfl, rfl, hc⟩ hk rfl
  cases ty with
  | thing => exact absurd rfl ht
  | str => exact ⟨h, .str "", .of_unique .refl rfl trivial trivial (by simp) ht (.str _)⟩
  | bool => exact ⟨h, .bool true, .of_unique .refl rfl trivial trivial (by simp) ht (.bool _)⟩
  | num => exact ⟨h, .num .zero, .of_unique .refl rfl trivial trivial (by simp) ht (.num _)⟩
  | json =>
    refine ⟨(h.newMap .empty).2, .jsonRef (h.newMap .empty).1, .of_unique
      (.single (.newMap (.empty _))) rfl ?_ trivial (by simp) ht (.json _)⟩
    simp [Value.Valid, newMap]
  | cls =>
    have hs := hmake (.cls {}) trivial fun _ hk => (ContainerKind.cls.inj hk).symm
    exact ⟨_, .classRef _, .of_unique hs rfl (isKind_alloc rfl) trivial (by simp) ht (.cls _)⟩
  | func =>
    have hs := hmake (.func { params := [], ret := none, lang := .ditlang })
      ⟨by simp, by simp, by simp⟩ (by simp)
    exact ⟨_, .funcRef _, .of_unique hs rfl (isKind_alloc rfl) trivial (by simp) ht (.func _)⟩
  | dit =>
    have hs := hmake .dit trivial (by simp)
    exact ⟨_, .ditRef _, .of_unique hs rfl (isKind_alloc rfl) trivial (by simp) ht (.dit _)⟩
  | lang =>
    have hs := hmake .lang trivial (by simp)
    exact ⟨_, .langRef _, .of_unique hs rfl (isKind_alloc rfl) trivial (by simp) ht (.lang _)⟩
  | inst => exact exists_inhabits_inst h
  | of c => exact ⟨_, _, inhabits_newInstance hv⟩

/-! ## Lists that can stray -/

theorem append_leaf (hl : h.Lineal) {m : ListId} {v : Value} (hleaf : v.IsLeaf)
    (hm : (h.list m).elem ≠ .thing → h.Fits v (h.list m).elem) :
    h.append m v = .ok (h.setList m { h.list m with items := (h.list m).items ++ [v] }) := by
  have hcycle : h.closesCycle m v = false := by
    cases v with
    | listRef => cases hleaf
    | _ => rfl
  have hfits : (h.list m).elem ≠ .thing → h.elementFits v (h.list m).elem = true := by
    intro hne
    cases v with
    | null | listRef => cases hleaf
    | _ => exact hl.scalarFits_iff.2 (hm hne)
  unfold append
  rw [hcycle, if_neg Bool.false_ne_true, if_neg]
  rintro ⟨hne, hno⟩
  rw [hfits hne] at hno
  cases hno

/-- A list that is not committed to a type that may stand for `ty` can get a leaf that is not of
type `ty`. -/
theorem exists_stray (hr : h.Reachable) {m : ListId} {ty : TypeSpec} (hm : m.index < h.lists.size)
    (hv : ty.Valid h) (ht : ty ≠ .thing)
    (hbad : ¬ ((h.list m).elem ≠ .thing ∧ h.ElemFits (h.list m).elem ty)) :
    ∃ h', h.Steps h' ∧ ¬ h'.LeavesFit m ty := by
  -- A type whose values the list takes and that may not stand for `ty`.
  obtain ⟨other, hov, hot, hne, htake⟩ : ∃ other : TypeSpec, other.Valid h ∧ other ≠ .thing ∧
      ¬ h.ElemFits other ty ∧ ((h.list m).elem ≠ .thing → other = (h.list m).elem) := by
    by_cases he : (h.list m).elem = .thing
    · by_cases hstr : ty = .str
      · refine ⟨.bool, trivial, nofun, ?_, fun hne => absurd he hne⟩
        rw [hstr]
        nofun
      · refine ⟨.str, trivial, nofun, ?_, fun hne => absurd he hne⟩
        intro hfit
        cases hfit
        exact hstr rfl
    · exact ⟨_, (hr.closed.list m).elem, he, fun hfit => hbad ⟨he, hfit⟩, fun _ => rfl⟩
  obtain ⟨h₁, v, hin⟩ := exists_inhabits hov hot
  have hlist : h₁.list m = h.list m := list_of_lists hin.lists m
  have hok := append_leaf (m := m) (hr.steps hin.steps).lineal hin.leaf
    (fun hne' => by rw [hlist] at hne' ⊢; exact htake hne' ▸ hin.fits)
  refine ⟨_, hin.steps.tail (.append hin.valid hok), fun hall => ?_⟩
  have hmem := mem_items_of_append hok (hin.lists ▸ hm)
  exact hne (hin.only ty hv ht ((hall v hmem hin.leaf).of_containers rfl))

/-- The leaves of a list are of a type in every later store exactly when the list is committed to a
type that may stand for it. -/
theorem leavesFit_forever_iff (hr : h.Reachable) {m : ListId} {ty : TypeSpec}
    (hm : m.index < h.lists.size) (hv : ty.Valid h) (ht : ty ≠ .thing) :
    (∀ h', h.Steps h' → h'.LeavesFit m ty) ↔
      (h.list m).elem ≠ .thing ∧ h.ElemFits (h.list m).elem ty := by
  constructor
  · intro hall
    by_contra hbad
    obtain ⟨h', hs, hstray⟩ := exists_stray hr hm hv ht hbad
    exact hstray (hall h' hs)
  · rintro ⟨hne, hfit⟩ h' hs
    have g := hs.grows
    refine leavesFit_of_elemFits (hr.steps hs).wellTyped ?_ ?_
    · rw [g.elem_eq hne]
      exact hne
    · rw [g.elem_eq hne]
      exact hfit.mono g

end Heap
end Ditlang
