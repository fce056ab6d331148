import Ditlang.Proofs.Heap.Ancestry
import Mathlib.Algebra.BigOperators.Group.Finset.Basic

/-!
# Ditlang.Proofs.Heap.Walk

The walk that computes ancestries finds the plain ones.

* The cut after `walkBound` looks is never felt: `looksLeft` goes down with every look.
* Neither the worklist nor the memo is felt. Looking at a class leads on to the rest of the list, with
  a memo that recalls and knows the class (`Lineal.passes_class`). The classes that wait for their
  parents are below the one that is looked at; so in a graph without cycles none of them comes up
  again before it is known, however often shared ancestors were put on the list.

From there `Lineal.ancestry_eq`, and `Lineal.isSubclass_iff`: the subclass test decides reachability.
-/

namespace Ditlang
namespace Heap

variable {h : Heap}

/-! ## The looks of a walk -/

namespace Walk

variable {w w' : Walk} {c : ContainerId} {marked : Bool} {rest : List (ContainerId × Bool)}
  {opened : List ContainerId} {memo : List (ContainerId × Ancestry)}

theorem run_add (m n : Nat) (w : Walk) : run h (m + n) w = run h n (run h m w) := by
  induction m generalizing w with
  | zero => simp [run]
  | succ m ih => rw [Nat.succ_add, run, ih, run]

theorem run_of_stack_nil (hw : w.stack = []) (n : Nat) : run h n w = w := by
  induction n with
  | zero => rfl
  | succ n ih =>
    have hstep : w.step h = w := by
      unfold step
      rw [hw]
    rw [run, hstep, ih]

/-- Some looks lead from one walk to another. -/
def Leads (h : Heap) (w w' : Walk) : Prop :=
  ∃ n, run h n w = w'

theorem Leads.refl (w : Walk) : Leads h w w :=
  ⟨0, rfl⟩

theorem Leads.trans {w'' : Walk} (h₁ : Leads h w w') (h₂ : Leads h w' w'') : Leads h w w'' := by
  obtain ⟨m, rfl⟩ := h₁
  obtain ⟨n, rfl⟩ := h₂
  exact ⟨m + n, run_add m n w⟩

theorem Leads.single (hs : w.step h = w') : Leads h w w' :=
  ⟨1, hs⟩

theorem leads_of_known (hc : (memo.lookup c).isSome) :
    Leads h ⟨(c, marked) :: rest, opened, memo⟩ ⟨rest, opened, memo⟩ :=
  .single (by simp [step, hc])

theorem leads_of_marked (hc : memo.lookup c = none) :
    Leads h ⟨(c, true) :: rest, opened, memo⟩
      ⟨rest, opened,
        (c, h.combineAncestry c ((h.parents c).filterMap fun p => memo.lookup p)) :: memo⟩ :=
  .single (by simp [step, hc])

theorem leads_of_unopened (hc : memo.lookup c = none) (ho : c ∉ opened) :
    Leads h ⟨(c, false) :: rest, opened, memo⟩
      ⟨((h.parents c).filter fun p => (memo.lookup p).isNone).map (·, false) ++ (c, true) :: rest,
        c :: opened, memo⟩ :=
  .single (by simp [step, hc, ho])

/-! ## The looks that are left -/

/-- Every entry of the list costs a look, and every container that was not opened can put itself and
its parents on the list. -/
def looksLeft (h : Heap) (w : Walk) : Nat :=
  w.stack.length + ∑ i ∈ Finset.range h.containers.size,
    if ContainerId.mk i ∈ w.opened then 0 else (h.parents ⟨i⟩).length + 1

/-- What is on the list is there. -/
def InRange (h : Heap) (w : Walk) : Prop :=
  ∀ e ∈ w.stack, e.1.index < h.containers.size

theorem sum_opened (hc : c.index < h.containers.size) (ho : c ∉ opened) :
    (∑ i ∈ Finset.range h.containers.size,
        if ContainerId.mk i ∈ c :: opened then 0 else (h.parents ⟨i⟩).length + 1) +
      ((h.parents c).length + 1) =
    ∑ i ∈ Finset.range h.containers.size,
      if ContainerId.mk i ∈ opened then 0 else (h.parents ⟨i⟩).length + 1 := by
  have hmem : c.index ∈ Finset.range h.containers.size := Finset.mem_range.2 hc
  rw [← Finset.sum_erase_add _ _ hmem, ← Finset.sum_erase_add _ _ hmem,
    if_pos (List.mem_cons_self (a := c) (l := opened)), if_neg ho, Nat.add_zero]
  congr 1
  refine Finset.sum_congr rfl fun i hi => ?_
  have hne : ContainerId.mk i ≠ c := fun he => (Finset.mem_erase.1 hi).1 (congrArg ContainerId.index he)
  simp [hne]

theorem InRange.step (hp : ∀ c p, p ∈ h.parents c → p.index < h.containers.size)
    (hw : InRange h w) : InRange h (w.step h) := by
  obtain ⟨stack, opened, memo⟩ := w
  cases stack with
  | nil => exact hw
  | cons e rest =>
    obtain ⟨c, marked⟩ := e
    have hrest : ∀ e ∈ rest, e.1.index < h.containers.size :=
      fun e he => hw e (List.mem_cons_of_mem _ he)
    simp only [Walk.step]
    split
    · exact hrest
    · split
      · exact hrest
      · split
        · exact hrest
        · intro e he
          simp only [List.mem_append, List.mem_map, List.mem_filter, List.mem_cons] at he
          rcases he with ⟨p, ⟨hpc, -⟩, rfl⟩ | rfl | he
          · exact hp c p hpc
          · exact hw (c, marked) List.mem_cons_self
          · exact hrest e he

theorem looksLeft_step (hw : InRange h w) (hne : w.stack ≠ []) :
    looksLeft h (w.step h) < looksLeft h w := by
  obtain ⟨stack, opened, memo⟩ := w
  cases stack with
  | nil => exact absurd rfl hne
  | cons e rest =>
    obtain ⟨c, marked⟩ := e
    have hpop : looksLeft h ⟨rest, opened, memo⟩ < looksLeft h ⟨(c, marked) :: rest, opened, memo⟩ := by
      simp only [looksLeft, List.length_cons]
      omega
    simp only [step]
    split
    · exact hpop
    · split
      · exact hpop
      · split
        · exact hpop
        · rename_i ho
          rw [List.contains_iff_mem] at ho
          have hsum := sum_opened (hw (c, marked) List.mem_cons_self) ho
          have hlen := List.length_filter_le (fun p => (memo.lookup p).isNone) (h.parents c)
          simp only [looksLeft, List.length_append, List.length_map, List.length_cons]
          dsimp only at hsum
          omega

theorem stack_run (hp : ∀ c p, p ∈ h.parents c → p.index < h.containers.size) {n : Nat}
    (hw : InRange h w) (hn : looksLeft h w ≤ n) : (run h n w).stack = [] := by
  induction n generalizing w with
  | zero =>
    have hlen : w.stack.length = 0 := by
      simp only [looksLeft] at hn
      omega
    exact List.eq_nil_of_length_eq_zero hlen
  | succ n ih =>
    by_cases hne : w.stack = []
    · rw [run_of_stack_nil hne]
      exact hne
    · have hlt := looksLeft_step hw hne
      exact ih (hw.step hp) (by omega)

/-- The bound suffices for every walk that ends. -/
theorem run_walkBound (hp : ∀ c p, p ∈ h.parents c → p.index < h.containers.size)
    (hc : c.index < h.containers.size)
    (hl : Leads h ⟨[(c, false)], [], memo⟩ w') (hw' : w'.stack = []) :
    run h h.walkBound ⟨[(c, false)], [], memo⟩ = w' := by
  obtain ⟨n, hn⟩ := hl
  have hin : InRange h ⟨[(c, false)], [], memo⟩ := by
    intro e he
    rw [List.mem_singleton.1 he]
    exact hc
  have hbound : looksLeft h ⟨[(c, false)], [], memo⟩ ≤ h.walkBound := by
    have hsum : ∑ i ∈ Finset.range h.containers.size, ((h.parents ⟨i⟩).length + 1) =
        ((List.range h.containers.size).map fun i =>
          (h.parents ⟨i⟩).length + 1).foldr (· + ·) 0 := rfl
    simp only [looksLeft, walkBound, List.length_singleton, List.not_mem_nil, if_false, hsum]
    omega
  have hend := stack_run hp hin hbound
  rcases Nat.le_total n h.walkBound with hle | hle
  · obtain ⟨k, hk⟩ := Nat.exists_eq_add_of_le hle
    rw [hk, run_add, hn, run_of_stack_nil hw']
  · obtain ⟨k, hk⟩ := Nat.exists_eq_add_of_le hle
    rw [hk, run_add, run_of_stack_nil hend] at hn
    exact hn

/-- `d` was opened and waits for its parents. -/
def Waits (w : Walk) (d : ContainerId) : Prop :=
  d ∈ w.opened ∧ w.memo.lookup d = none

/-- Looking at `cs` first leads on to the rest of the list, with `cs` known. -/
structure Passes (h : Heap) (cs : List ContainerId) (rest : List (ContainerId × Bool))
    (w w' : Walk) : Prop where
  leads : Leads h { w with stack := cs.map (·, false) ++ rest } w'
  stack : w'.stack = rest
  recalls : h.Recalls w'.memo
  keeps : ∀ c a, w.memo.lookup c = some a → w'.memo.lookup c = some a
  knows : ∀ c ∈ cs, (w'.memo.lookup c).isSome
  waits : ∀ d, w'.Waits d → w.Waits d

theorem passes_nil (hw : h.Recalls w.memo) : Passes h [] rest w { w with stack := rest } :=
  ⟨.refl _, rfl, hw, fun _ _ hc => hc, fun _ hc => (nomatch hc), fun _ hd => hd⟩

theorem passes_known (hw : h.Recalls w.memo) (hc : (w.memo.lookup c).isSome) :
    Passes h [c] rest w { w with stack := rest } where
  leads := leads_of_known hc
  stack := rfl
  recalls := hw
  keeps _ _ ha := ha
  knows d hd := by
    rw [List.mem_singleton.1 hd]
    exact hc
  waits _ hd := hd

theorem Passes.cons {w'' : Walk} {cs : List ContainerId}
    (h₁ : Passes h [c] (cs.map (·, false) ++ rest) w w') (h₂ : Passes h cs rest w' w'') :
    Passes h (c :: cs) rest w w'' where
  leads := by
    have heq : { w' with stack := cs.map (·, false) ++ rest } = w' := by rw [← h₁.stack]
    have hl₂ := h₂.leads
    rw [heq] at hl₂
    exact h₁.leads.trans hl₂
  stack := h₂.stack
  recalls := h₂.recalls
  keeps d a hd := h₂.keeps d a (h₁.keeps d a hd)
  knows d hd := by
    rcases List.mem_cons.1 hd with rfl | hd
    · obtain ⟨a, ha⟩ := Option.isSome_iff_exists.1 (h₁.knows d (List.mem_singleton.2 rfl))
      rw [h₂.keeps d a ha]
      rfl
    · exact h₂.knows d hd
  waits d hd := h₁.waits d (h₂.waits d hd)

/-- Classes are passed one after the other, if each can be while nothing more waits than at first. -/
theorem exists_passes {cs : List ContainerId} (hw : h.Recalls w.memo)
    (hcs : ∀ c ∈ cs, ∀ rest w', h.Recalls w'.memo → (∀ d, w'.Waits d → w.Waits d) →
      ∃ w'', Passes h [c] rest w' w'') : ∃ w', Passes h cs rest w w' := by
  induction cs generalizing w with
  | nil => exact ⟨_, passes_nil hw⟩
  | cons c cs ih =>
    obtain ⟨w₁, h₁⟩ := hcs c List.mem_cons_self (cs.map (·, false) ++ rest) w hw fun _ hd => hd
    obtain ⟨w₂, h₂⟩ := ih h₁.recalls fun d hd rest w' hr hle =>
      hcs d (List.mem_cons_of_mem _ hd) rest w' hr fun e he => h₁.waits e (hle e he)
    exact ⟨w₂, h₁.cons h₂⟩

end Walk

/-! ## A walk knows plain ancestries -/

open Walk (Passes Leads)

/-- `d` is a proper subclass of `c`. -/
def Below (h : Heap) : ContainerId → ContainerId → Prop :=
  Relation.TransGen fun c p => p ∈ h.parents c

theorem Acyclic.not_below (ha : h.Acyclic) (c : ContainerId) : ¬ h.Below c c := by
  intro hc
  obtain ⟨p, hp, hpc⟩ := Relation.TransGen.head'_iff.1 hc
  exact ha c p hp hpc

theorem Recalls.cons {memo : List (ContainerId × Ancestry)} (hm : h.Recalls memo)
    {c : ContainerId} {a : Ancestry} (ha : h.Recalled c a) : h.Recalls ((c, a) :: memo) := by
  intro d b hb
  rw [List.lookup_cons] at hb
  by_cases hd : d = c
  · subst hd
    simp only [beq_self_eq_true, Option.some.injEq] at hb
    exact hb ▸ ha
  · rw [beq_eq_false_iff_ne.2 hd] at hb
    exact hm d b hb

theorem recalled_plainAncestry {c : ContainerId} (hc : c.index < h.containers.size) :
    h.Recalled c (h.plainAncestry h.depth c) :=
  ⟨hc, rfl, fun _ => rfl⟩

/-- When its parents are known, the ancestry of a class is put together from theirs. -/
theorem combineAncestry_filterMap (hl : h.Lineal) {memo : List (ContainerId × Ancestry)}
    (hm : h.Recalls memo) {c : ContainerId} (hk : ∀ p ∈ h.parents c, (memo.lookup p).isSome) :
    h.combineAncestry c ((h.parents c).filterMap fun p => memo.lookup p) =
      h.plainAncestry h.depth c := by
  have hmap : (h.parents c).filterMap (fun p => memo.lookup p) =
      (h.parents c).map (h.plainAncestry h.depth) := by
    rw [← List.filterMap_eq_map]
    refine List.filterMap_congr fun p hp => ?_
    obtain ⟨a, ha⟩ := Option.isSome_iff_exists.1 (hk p hp)
    rw [ha, (hm p a ha).eq (hl.parent_isClass c p hp)]
    rfl
  rw [hmap, plainAncestry_depth hl.acyclic]

/-- A marked class whose parents are known is known after one look. -/
theorem Lineal.leads_marked (hl : h.Lineal) {c : ContainerId}
    (hc : (h.container c).isClass = true) {rest : List (ContainerId × Bool)}
    {opened : List ContainerId} {memo : List (ContainerId × Ancestry)} (hm : h.Recalls memo)
    (hk : ∀ p ∈ h.parents c, (memo.lookup p).isSome) :
    ∃ memo', Leads h ⟨(c, true) :: rest, opened, memo⟩ ⟨rest, opened, memo'⟩ ∧ h.Recalls memo' ∧
      (memo'.lookup c).isSome ∧ ∀ d a, memo.lookup d = some a → memo'.lookup d = some a := by
  cases hlook : memo.lookup c with
  | some a =>
    have hknown : (memo.lookup c).isSome := Option.isSome_iff_exists.2 ⟨a, hlook⟩
    exact ⟨memo, Walk.leads_of_known hknown, hm, hknown, fun _ _ hd => hd⟩
  | none =>
    have hlead : Leads h ⟨(c, true) :: rest, opened, memo⟩ _ := Walk.leads_of_marked hlook
    rw [combineAncestry_filterMap hl hm hk] at hlead
    refine ⟨_, hlead, hm.cons (recalled_plainAncestry (lt_size_of_isClass hc)), by simp, ?_⟩
    intro d a hd
    have hne : d ≠ c := by
      rintro rfl
      rw [hlook] at hd
      cases hd
    rw [List.lookup_cons, beq_eq_false_iff_ne.2 hne]
    exact hd

/-- Looking at a class leads on. The classes that wait are below it, so none of them is met again. -/
theorem Lineal.passes_class (hl : h.Lineal) {n : Nat} {c : ContainerId} (hs : h.Shallow n c)
    (hc : (h.container c).isClass = true) (rest : List (ContainerId × Bool)) {w : Walk}
    (hw : h.Recalls w.memo) (hb : ∀ d, w.Waits d → h.Below d c) :
    ∃ w', Passes h [c] rest w w' := by
  induction n generalizing c rest w with
  | zero => exact hs.elim
  | succ n ih =>
    obtain ⟨stack, opened, memo⟩ := w
    cases hm : memo.lookup c with
    | some a => exact ⟨_, Walk.passes_known hw (Option.isSome_iff_exists.2 ⟨a, hm⟩)⟩
    | none =>
      have hopen : c ∉ opened := fun ho => hl.acyclic.not_below c (hb c ⟨ho, hm⟩)
      -- the unknown parents come first; what waits for them is `c` and what waited for `c`
      have hparents : ∃ w', Passes h ((h.parents c).filter fun p => (memo.lookup p).isNone)
          ((c, true) :: rest) ⟨rest, c :: opened, memo⟩ w' := by
        refine Walk.exists_passes hw fun p hp rest' w' hr hle => ?_
        have hpc := (List.mem_filter.1 hp).1
        refine ih (hs p hpc) (hl.parent_isClass c p hpc) rest' hr fun d hd => ?_
        obtain ⟨ho, hd⟩ := hle d hd
        rcases List.mem_cons.1 ho with rfl | ho
        · exact .single hpc
        · exact .tail (hb d ⟨ho, hd⟩) hpc
      obtain ⟨⟨_, opened', memo'⟩, hpass⟩ := hparents
      obtain rfl := hpass.stack
      have hknown : ∀ p ∈ h.parents c, (memo'.lookup p).isSome := by
        intro p hp
        cases hpm : memo.lookup p with
        | some a => exact Option.isSome_iff_exists.2 ⟨a, hpass.keeps p a hpm⟩
        | none => exact hpass.knows p (List.mem_filter.2 ⟨hp, by rw [hpm]; rfl⟩)
      obtain ⟨memo'', hmarked, hrecalls, hself, hkeeps⟩ :=
        hl.leads_marked hc hpass.recalls hknown
      have hlead := ((Walk.leads_of_unopened hm hopen).trans hpass.leads).trans hmarked
      refine ⟨⟨rest, opened', memo''⟩, hlead, rfl, hrecalls,
        fun d a hd => hkeeps d a (hpass.keeps d a hd), ?_, ?_⟩
      · intro d hd
        rw [List.mem_singleton.1 hd]
        exact hself
      · rintro d ⟨ho, hd⟩
        have hd' : memo'.lookup d = none := by
          refine Option.eq_none_iff_forall_ne_some.2 fun a ha => ?_
          have hfound : memo''.lookup d = some a := hkeeps d a ha
          rw [show memo''.lookup d = none from hd] at hfound
          cases hfound
        obtain ⟨ho', hn⟩ := hpass.waits d ⟨ho, hd'⟩
        rcases List.mem_cons.1 ho' with rfl | ho'
        · rw [show memo''.lookup d = none from hd] at hself
          cases hself
        · exact ⟨ho', hn⟩

theorem Lineal.walkMemo_of_isClass (hl : h.Lineal) {c : ContainerId}
    (hc : (h.container c).isClass = true) :
    h.Recalls (h.walkMemo c) ∧ ((h.walkMemo c).lookup c).isSome := by
  obtain ⟨w', hp⟩ := hl.passes_class (shallow_of_acyclic hl.acyclic c) hc []
    (w := ⟨[], [], h.memo⟩) hl.recalls fun d hd => nomatch hd.1
  have hrun := Walk.run_walkBound (h := h)
    (fun x p hx => lt_size_of_isClass (hl.parent_isClass x p hx)) (lt_size_of_isClass hc)
    hp.leads hp.stack
  rw [walkMemo, hrun]
  exact ⟨hp.recalls, hp.knows c (List.mem_singleton.2 rfl)⟩

theorem walkMemo_of_not_isClass {c : ContainerId} (hc : ¬ (h.container c).isClass = true) :
    h.walkMemo c = if (h.memo.lookup c).isSome then h.memo
      else (c, h.plainAncestry h.depth c) :: h.memo := by
  have hlead : ∃ w', Walk.run h 2 ⟨[(c, false)], [], h.memo⟩ = w' ∧ w'.stack = [] ∧
      w'.memo = if (h.memo.lookup c).isSome then h.memo
        else (c, h.plainAncestry h.depth c) :: h.memo := by
    rw [plainAncestry_of_not_isClass hc]
    cases hm : h.memo.lookup c <;>
      simp [Walk.run, Walk.step, hm, parents_of_not_isClass hc]
  obtain ⟨w', hrun, hstack, hmemo⟩ := hlead
  rw [walkMemo, walkBound, Nat.add_comm, Walk.run_add, hrun, Walk.run_of_stack_nil hstack, hmemo]

/-- The ancestry of a class is the plain one, whatever the memo holds. -/
theorem Lineal.ancestry_eq (hl : h.Lineal) {c : ContainerId}
    (hc : (h.container c).isClass = true) : h.ancestry c = h.plainAncestry h.depth c := by
  obtain ⟨hr, hk⟩ := hl.walkMemo_of_isClass hc
  obtain ⟨a, ha⟩ := Option.isSome_iff_exists.1 hk
  rw [ancestry, ha]
  exact (hr c a ha).eq hc

/-- The order is the plain one for every container. -/
theorem Lineal.order_ancestry (hl : h.Lineal) (c : ContainerId) :
    (h.ancestry c).order = (h.plainAncestry h.depth c).order := by
  by_cases hc : (h.container c).isClass = true
  · rw [hl.ancestry_eq hc]
  · rw [ancestry, walkMemo_of_not_isClass hc]
    cases hm : h.memo.lookup c with
    | none => simp
    | some a => simpa [hm] using (hl.recalls c a hm).order

/-- The subclass test decides reachability in the class graph. -/
theorem Lineal.isSubclass_iff (hl : h.Lineal) {c a : ContainerId} :
    h.isSubclass c a = true ↔ h.Subclass c a := by
  unfold isSubclass
  rw [Bool.or_eq_true, beq_iff_eq, List.contains_iff_mem, hl.order_ancestry,
    mem_order_plainAncestry (shallow_of_acyclic hl.acyclic c)]
  exact ⟨fun hor => hor.elim (fun he => he ▸ .refl) id, .inr⟩

/-- Keeping the ancestry of a container leaves everything else as it is. -/
theorem Lineal.warm (hl : h.Lineal) {c : ContainerId} (hc : c.index < h.containers.size) :
    (h.warm c).Lineal := by
  refine hl.setMemo ?_
  by_cases hcls : (h.container c).isClass = true
  · exact (hl.walkMemo_of_isClass hcls).1
  · rw [walkMemo_of_not_isClass hcls]
    split
    · exact hl.recalls
    · exact hl.recalls.cons (recalled_plainAncestry hc)

end Heap
end Ditlang
