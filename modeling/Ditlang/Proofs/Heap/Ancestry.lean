import Ditlang.Heap.Ancestry
import Ditlang.Proofs.Graph

/-!
# Ditlang.Proofs.Heap.Ancestry

The class graph and the ancestries that are read off it.

`Subclass` is the reflexive and transitive closure of the parent relation. A class graph without
cycles is `Shallow`: no chain of parents is longer than there are containers. So `plainAncestry`, the
ancestry by recursion over the parents, is not cut off. A memo `Recalls` what it may hold of each
container, and a heap is `Lineal` when its graph has no cycles and its memo recalls.
-/

namespace Ditlang
namespace Heap

variable {h : Heap}

/-- `c` is `a` or a subclass of it in the class graph. -/
def Subclass (h : Heap) : ContainerId → ContainerId → Prop :=
  Relation.ReflTransGen fun c p => p ∈ h.parents c

/-- No class is an ancestor of its own parents. -/
def Acyclic (h : Heap) : Prop :=
  Graph.Acyclic fun c p => p ∈ h.parents c

/-- Every chain of parents from `c` ends within `n` generations. -/
def Shallow (h : Heap) : Nat → ContainerId → Prop
  | 0, _ => False
  | n + 1, c => ∀ p ∈ h.parents c, h.Shallow n p

/-- The ancestry of a class by recursion over its parents alone, at most `n` generations. -/
def plainAncestry (h : Heap) : Nat → ContainerId → Ancestry
  | 0, _ => {}
  | n + 1, c => h.combineAncestry c ((h.parents c).map (h.plainAncestry n))

/-- More generations than there are containers. -/
def depth (h : Heap) : Nat :=
  h.containers.size + 1

/-- What a memo may hold of a container: of a class the plain ancestry, of any other container one
that may miss names. -/
structure Recalled (h : Heap) (c : ContainerId) (a : Ancestry) : Prop where
  lt_size : c.index < h.containers.size
  order : a.order = (h.plainAncestry h.depth c).order
  eq : (h.container c).isClass = true → a = h.plainAncestry h.depth c

def Recalls (h : Heap) (memo : List (ContainerId × Ancestry)) : Prop :=
  ∀ c a, memo.lookup c = some a → h.Recalled c a

/-- The class graph has no cycles, parents are classes, and the memo is right. -/
structure Lineal (h : Heap) : Prop where
  acyclic : h.Acyclic
  parent_isClass : ∀ c p, p ∈ h.parents c → (h.container p).isClass = true
  recalls : h.Recalls h.memo

theorem lt_size_of_isClass {c : ContainerId} (hc : (h.container c).isClass = true) :
    c.index < h.containers.size := by
  by_contra hlt
  rw [container_of_size_le (Nat.not_lt.1 hlt)] at hc
  cases hc

theorem isClass_of_mem_parents {c p : ContainerId} (hp : p ∈ h.parents c) :
    (h.container c).isClass = true := by
  unfold parents at hp
  split at hp
  · rename_i data hk
    simp [Container.isClass, hk]
  · cases hp

/-! ## A graph without cycles is shallow -/

theorem shallow_of_rank {rank : ContainerId → Nat}
    (hlt : ∀ c p, p ∈ h.parents c → rank p < rank c) : ∀ n c, rank c < n → h.Shallow n c := by
  intro n
  induction n with
  | zero => intro c hc; omega
  | succ n ih =>
    intro c hc p hp
    have := hlt c p hp
    exact ih p (by omega)

theorem shallow_of_acyclic (ha : h.Acyclic) (c : ContainerId) : h.Shallow h.depth c := by
  obtain ⟨rank, hle, hlt⟩ := ha.exists_rank ContainerId.index
    (fun ⟨_⟩ ⟨_⟩ he => congrArg ContainerId.mk he)
    fun c p hp => lt_size_of_isClass (isClass_of_mem_parents hp)
  exact shallow_of_rank hlt _ c (Nat.lt_succ_of_le (hle c))

/-! ## The plain ancestry -/

/-- More generations than there are add nothing. -/
theorem plainAncestry_of_shallow {n m : Nat} {c : ContainerId} (hs : h.Shallow n c)
    (hnm : n ≤ m) : h.plainAncestry m c = h.plainAncestry n c := by
  induction n generalizing m c with
  | zero => exact hs.elim
  | succ n ih =>
    cases m with
    | zero => omega
    | succ m =>
      rw [plainAncestry, plainAncestry]
      congr 1
      exact List.map_congr_left fun p hp => ih (hs p hp) (by omega)

theorem mem_order_foldl_inherit {hidden : String → Bool} {x : ContainerId} :
    ∀ (as : List Ancestry) (a : Ancestry),
      x ∈ (as.foldl (Ancestry.inherit hidden) a).order ↔ x ∈ a.order ∨ ∃ b ∈ as, x ∈ b.order := by
  intro as
  induction as with
  | nil => simp
  | cons b as ih =>
    intro a
    rw [List.foldl_cons, ih, Ancestry.inherit, mem_union]
    simp [or_assoc]

theorem mem_order_combineAncestry {c x : ContainerId} {as : List Ancestry} :
    x ∈ (h.combineAncestry c as).order ↔ x = c ∨ ∃ a ∈ as, x ∈ a.order := by
  rw [combineAncestry, mem_order_foldl_inherit]
  simp [Ancestry.own]

theorem mem_order_plainAncestry {n : Nat} {c x : ContainerId} (hs : h.Shallow n c) :
    x ∈ (h.plainAncestry n c).order ↔ h.Subclass c x := by
  induction n generalizing c with
  | zero => exact hs.elim
  | succ n ih =>
    rw [plainAncestry, mem_order_combineAncestry]
    constructor
    · rintro (rfl | ⟨a, ha, hx⟩)
      · exact .refl
      · obtain ⟨p, hp, rfl⟩ := List.mem_map.1 ha
        exact .head hp ((ih (hs p hp)).1 hx)
    · intro hx
      rcases Relation.ReflTransGen.cases_head hx with rfl | ⟨p, hp, hpx⟩
      · exact .inl rfl
      · exact .inr ⟨_, List.mem_map_of_mem hp, (ih (hs p hp)).2 hpx⟩

/-- The plain ancestry from those of all parents, each with all its generations. -/
theorem plainAncestry_depth (ha : h.Acyclic) (c : ContainerId) :
    h.plainAncestry h.depth c =
      h.combineAncestry c ((h.parents c).map (h.plainAncestry h.depth)) := by
  rw [show h.depth = h.containers.size + 1 from rfl, plainAncestry]
  congr 1
  refine List.map_congr_left fun p hp => ?_
  exact (plainAncestry_of_shallow (shallow_of_acyclic ha c p hp) (Nat.le_succ _)).symm

theorem parents_of_not_isClass {c : ContainerId} (hc : ¬ (h.container c).isClass = true) :
    h.parents c = [] :=
  List.eq_nil_iff_forall_not_mem.2 fun _ hp => hc (isClass_of_mem_parents hp)

theorem plainAncestry_of_not_isClass {c : ContainerId} (hc : ¬ (h.container c).isClass = true) :
    h.plainAncestry h.depth c = h.combineAncestry c [] := by
  rw [show h.depth = h.containers.size + 1 from rfl, plainAncestry, parents_of_not_isClass hc]
  rfl

/-! ## What keeps a heap lineal -/

/-- The plain ancestry of a class is read off the attributes and parents of classes. -/
theorem plainAncestry_congr {h' : Heap}
    (hpc : ∀ c p, p ∈ h.parents c → (h.container p).isClass = true)
    (hpar : ∀ c, h'.parents c = h.parents c)
    (hattrs : ∀ c, (h.container c).isClass = true →
      (h'.container c).attrs = (h.container c).attrs) :
    ∀ n c, (h.container c).isClass = true → h'.plainAncestry n c = h.plainAncestry n c := by
  intro n
  induction n with
  | zero => exact fun _ _ => rfl
  | succ n ih =>
    intro c hc
    rw [plainAncestry, plainAncestry, hpar c, combineAncestry, combineAncestry, hattrs c hc,
      List.map_congr_left fun p hp => ih p (hpc c p hp)]

theorem subclass_congr {h' : Heap} (hpar : ∀ c, h'.parents c = h.parents c) :
    h'.Subclass = h.Subclass := by
  unfold Subclass
  simp only [hpar]

theorem Acyclic.congr (ha : h.Acyclic) {h' : Heap} (hpar : ∀ c, h'.parents c = h.parents c) :
    h'.Acyclic := by
  unfold Acyclic
  simp only [hpar]
  exact ha

/-- A heap stays lineal when no parents and no class attributes change. -/
theorem Lineal.congr (hl : h.Lineal) {h' : Heap} (hsize : h.containers.size ≤ h'.containers.size)
    (hpar : ∀ c, h'.parents c = h.parents c)
    (hattrs : ∀ c, (h.container c).isClass = true →
      (h'.container c).isClass = true ∧ (h'.container c).attrs = (h.container c).attrs)
    (hback : ∀ c, c.index < h.containers.size → (h'.container c).isClass = true →
      (h.container c).isClass = true)
    (hmemo : h'.memo = h.memo) : h'.Lineal := by
  have hplain : ∀ c, (h.container c).isClass = true →
      h'.plainAncestry h'.depth c = h.plainAncestry h.depth c := by
    intro c hc
    rw [plainAncestry_congr hl.parent_isClass hpar (fun d hd => (hattrs d hd).2) _ c hc]
    exact plainAncestry_of_shallow (shallow_of_acyclic hl.acyclic c) (Nat.succ_le_succ hsize)
  refine ⟨hl.acyclic.congr hpar, ?_, ?_⟩
  · intro c p hp
    exact (hattrs p (hl.parent_isClass c p (hpar c ▸ hp))).1
  · intro c a ha
    rw [hmemo] at ha
    have hold := hl.recalls c a ha
    refine ⟨Nat.lt_of_lt_of_le hold.lt_size hsize, ?_, fun hc => ?_⟩
    · by_cases hc : (h.container c).isClass = true
      · rw [hplain c hc, hold.order]
      · have hc' : ¬ (h'.container c).isClass = true := fun hc' => hc (hback c hold.lt_size hc')
        rw [hold.order, plainAncestry_of_not_isClass hc, plainAncestry_of_not_isClass hc']
        rfl
    · have hc := hback c hold.lt_size hc
      rw [hplain c hc, hold.eq hc]

theorem Lineal.of_graph (hmemo : h.memo = []) (ha : h.Acyclic)
    (hp : ∀ c p, p ∈ h.parents c → (h.container p).isClass = true) : h.Lineal := by
  refine ⟨ha, hp, ?_⟩
  intro c a hl
  rw [hmemo] at hl
  cases hl

theorem plainAncestry_setMemo (memo : List (ContainerId × Ancestry)) (n : Nat) (c : ContainerId) :
    ({ h with memo } : Heap).plainAncestry n c = h.plainAncestry n c := by
  induction n generalizing c with
  | zero => rfl
  | succ n ih =>
    rw [plainAncestry, plainAncestry]
    exact congrArg _ (List.map_congr_left fun p _ => ih p)

/-- Another memo that recalls can take the place of the one there is. -/
theorem Lineal.setMemo (hl : h.Lineal) {memo : List (ContainerId × Ancestry)}
    (hm : h.Recalls memo) : ({ h with memo } : Heap).Lineal := by
  refine ⟨hl.acyclic, hl.parent_isClass, ?_⟩
  intro c a ha
  obtain ⟨hlt, ho, he⟩ := hm c a ha
  have hplain := plainAncestry_setMemo (h := h) memo h.depth c
  exact ⟨hlt, ho.trans (congrArg _ hplain.symm), fun hc => (he hc).trans hplain.symm⟩

end Heap
end Ditlang
