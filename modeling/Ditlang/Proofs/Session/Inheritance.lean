import Ditlang.Proofs.Heap.Conflicts
import Ditlang.Proofs.Session.Reached

/-!
# Ditlang.Proofs.Session.Inheritance

Inheritance in every session. The class graph has no cycles, so that being a subclass is a partial
order. Ancestries are what the class graph says, whatever is kept of them.
Looking up a name that a class does not own is decided by the classes that define it, in every store
in which parents are left as they are. When a class gets a name after it has subclasses, the
subclasses do not record it: a name can then be chosen silently, or be called ambiguous after it has
ceased to be. The law holds along a run exactly when no such thing happens.
-/

namespace Ditlang

open Heap

/-! ## The class graph -/

/-- Extending a class gives it one more parent, or fails and leaves the state as it was. -/
theorem extendClass_apply (c p : ContainerId) (loc : Source.Location) (s : EvalState) :
    Eval.extendClass c p loc s = match s.session.heap.addParent c p with
      | .ok h => .done () { s with session := { s.session with heap := h } }
      | .error fault => .failed (.diagnostic (fault.diagnostic.at_ loc)) s := by
  unfold Eval.extendClass
  simp only [Eval.bind_apply, Eval.bind, Eval.heap, Eval.gets]
  cases s.session.heap.addParent c p with
  | ok h => rfl
  | error fault => rfl

/-- In every store that operations lead to, and so in every session, the class graph has no cycle, a
parent is a class and is listed once, and the subclass test decides a partial order: whether one class
is reached from another over parents. A class is extended exactly by a class that is no subclass of it
and not yet a parent; an extension that is refused leaves all parents and conflicts as they were. -/
theorem subclass_partial_order :
    (∀ s : Session, s.Reached → s.heap.Built) ∧ ∀ h : Heap, h.Built →
      (∀ c, ¬ Relation.TransGen (fun c p => p ∈ h.parents c) c c) ∧
      (∀ c p, p ∈ h.parents c → (h.container p).isClass = true) ∧
      (∀ c, (h.parents c).Nodup) ∧
      (∀ a b, h.isSubclass a b = true ↔ Relation.ReflTransGen (fun c p => p ∈ h.parents c) a b) ∧
      (∀ a, h.isSubclass a a = true) ∧
      (∀ a b c, h.isSubclass a b = true → h.isSubclass b c = true → h.isSubclass a c = true) ∧
      (∀ a b, h.isSubclass a b = true → h.isSubclass b a = true → a = b) ∧
      ∀ (s : EvalState) (c p : ContainerId) (loc : Source.Location), s.session.heap = h →
        match Eval.extendClass c p loc s with
        | .done _ t =>
          ((h.container p).isClass = true ∧ h.isSubclass p c = false ∧ p ∉ h.parents c) ∧
          ((h.container c).isClass = true → t.session.heap.parents c = h.parents c ++ [p]) ∧
          ∀ d, d ≠ c → t.session.heap.parents d = h.parents d ∧
            t.session.heap.conflicts d = h.conflicts d
        | .failed _ t =>
          (¬ (h.container p).isClass = true ∨ h.isSubclass p c = true ∨ p ∈ h.parents c) ∧
          ∀ d, t.session.heap.parents d = h.parents d ∧ t.session.heap.conflicts d = h.conflicts d
        | .outOfFuel => False := by
  refine ⟨fun s hs => hs.sound.heap.built, fun h hb => ?_⟩
  have hl := hb.lineal
  refine ⟨hl.acyclic.not_transGen, hl.parent_isClass, hb.nodup_parents, fun a b => hl.isSubclass_iff,
    ?_, ?_, ?_, ?_⟩
  · exact fun a => hl.isSubclass_iff.2 .refl
  · intro a b c hab hbc
    exact hl.isSubclass_iff.2 ((hl.isSubclass_iff.1 hab).trans (hl.isSubclass_iff.1 hbc))
  · intro a b hab hba
    exact hl.acyclic.antisymm (hl.isSubclass_iff.1 hab) (hl.isSubclass_iff.1 hba)
  · rintro s c p loc rfl
    rw [extendClass_apply]
    cases hok : s.session.heap.addParent c p with
    | ok h' =>
      obtain ⟨hp, hsub, hfresh, -⟩ := addParent_inv hok
      refine ⟨⟨hp, hsub, hfresh⟩, parents_addParent_self hok, fun d hd => ?_⟩
      have hsame : s.session.heap.SameClass h' d :=
        .of_container (container_addParent_of_ne hok hd)
      exact ⟨hsame.parents_eq, hsame.conflicts_eq⟩
    | error fault =>
      refine ⟨?_, fun d => ⟨rfl, rfl⟩⟩
      have hno : ¬ ∃ h', s.session.heap.addParent c p = .ok h' := by simp [hok]
      rw [hl.addParent_eq_ok_iff, ← hl.isSubclass_iff] at hno
      tauto

/-- A program with two ways from a class up to another. -/
def twoWaysProgram : String :=
  "class A \x7b\x7d class B extends A \x7b\x7d class C extends B, A \x7b\x7d"

theorem subclass_partial_order_against_a_cycle :
    ∃ s, Session.bare.evalSource twoWaysProgram = some (.ok (), s) ∧ s.heap.Built ∧
      s.heap.parents ⟨10⟩ = [⟨9⟩, ⟨8⟩] ∧
      Relation.ReflTransGen (fun c p => p ∈ s.heap.parents c) ⟨10⟩ ⟨8⟩ ∧
      ¬ s.heap.isSubclass ⟨8⟩ ⟨10⟩ = true ∧
      ∃ e t, Eval.extendClass ⟨8⟩ ⟨10⟩ .start ⟨s, .start s.main "" (.ofText "") false⟩ = .failed e t ∧
        t.session.heap.parents ⟨8⟩ = [] := by
  obtain ⟨s, hrun, hs, hp⟩ := Session.exists_reached twoWaysProgram
    (p := fun s => decide (s.heap.parents ⟨10⟩ = [⟨9⟩, ⟨8⟩] ∧ s.heap.parents ⟨8⟩ = []) &&
      s.heap.isSubclass ⟨10⟩ ⟨8⟩)
    (by decide +kernel)
  obtain ⟨hp, hsub⟩ := Bool.and_eq_true_iff.1 hp
  obtain ⟨hparents, htop⟩ := of_decide_eq_true hp
  have hb := subclass_partial_order.1 s hs
  obtain ⟨-, -, -, hreach, -, -, hanti, hext⟩ := subclass_partial_order.2 s.heap hb
  refine ⟨s, hrun, hb, hparents, (hreach _ _).1 hsub, fun hback => ?_, ?_⟩
  · exact absurd (hanti _ _ hsub hback) (by decide)
  · have hstep := hext ⟨s, .start s.main "" (.ofText "") false⟩ ⟨8⟩ ⟨10⟩ .start rfl
    revert hstep
    cases Eval.extendClass ⟨8⟩ ⟨10⟩ .start ⟨s, .start s.main "" (.ofText "") false⟩ with
    | done u t =>
      intro hstep
      have hno := hstep.1.2.1
      rw [hsub] at hno
      cases hno
    | failed e t => exact fun hstep => ⟨e, t, rfl, (hstep.2 ⟨8⟩).1.trans htop⟩
    | outOfFuel => exact False.elim

/-! ## Ancestries -/

/-- In every store that operations lead to, and so in every session, the ancestry of a class lists the
class and its ancestors in the order of a recursion over the parents, each at its first place, and
under each name the classes that define it. It does so whichever of the ancestries that are kept it
starts from, and what is kept of a class is its ancestry. -/
theorem ancestry_read_off_class_graph :
    (∀ s : Session, s.Reached → s.heap.Built) ∧ ∀ h : Heap, h.Built →
      ∀ memo : List (ContainerId × Ancestry),
        (∀ d a, memo.lookup d = some a → h.memo.lookup d = some a) →
        ∀ c, (h.container c).isClass = true →
          let a := ({ h with memo } : Heap).ancestry c
          (∃ visited, h.Enumerates [c] visited ∧ a.order = visited.eraseDups) ∧
          a.order.head? = some c ∧ a.order.Nodup ∧
          (∀ x, (a.definers.definersOf x).Nodup ∧
            ∀ d, d ∈ a.definers.definersOf x ↔ h.Definer x c d) ∧
          ∀ kept, h.memo.lookup c = some kept → kept = a := by
  refine ⟨fun s hs => hs.sound.heap.built, fun h hb memo hsub c hc => ?_⟩
  have hl := hb.lineal
  have hl' : ({ h with memo } : Heap).Lineal := hl.setMemo fun d a ha => hl.recalls d a (hsub d a ha)
  have hplain : ({ h with memo } : Heap).ancestry c = h.plainAncestry h.depth c := by
    rw [hl'.ancestry_eq hc]
    exact plainAncestry_setMemo memo _ c
  have hs := shallow_of_acyclic hl.acyclic c
  obtain ⟨visited, henum, horder⟩ := order_plainAncestry hs
  dsimp only
  rw [hplain]
  refine ⟨⟨visited, henum, horder⟩, ?_, nodup_order_plainAncestry _ c, fun x => ⟨?_, fun d => ?_⟩, ?_⟩
  · cases henum with
    | cons => rw [horder, List.eraseDups_cons, List.head?_cons]
  · exact (proper_plainAncestry _ c).nodup_definersOf
  · exact mem_definers_plainAncestry hs
  · intro kept hk
    exact (hl.recalls c kept hk).eq hc

/-- A program with a diamond of classes, of which the top gets a name late, and a read that keeps the
ancestries. -/
def diamondProgram : String :=
  "class Base \x7b Num z; \x7d class L extends Base \x7b\x7d class R extends Base \x7b Num z; \x7d " ++
    "class D extends L, R \x7b\x7d Num Base.y; D d = D(); d.y = 1;"

theorem ancestry_read_off_class_graph_of_diamond :
    ∃ s, Session.bare.evalSource diamondProgram = some (.ok (), s) ∧ s.heap.Built ∧
      (s.heap.ancestry ⟨11⟩).order = [⟨11⟩, ⟨9⟩, ⟨8⟩, ⟨10⟩] ∧
      (∀ d, d ∈ [⟨8⟩, ⟨10⟩] ↔ s.heap.Definer "z" ⟨11⟩ d) ∧
      s.heap.memo.lookup ⟨11⟩ = some (s.heap.ancestry ⟨11⟩) := by
  obtain ⟨s, hrun, hs, hp⟩ := Session.exists_reached diamondProgram
    (p := fun s => decide ((s.heap.container ⟨11⟩).isClass = true ∧
      (s.heap.ancestry ⟨11⟩).order = [⟨11⟩, ⟨9⟩, ⟨8⟩, ⟨10⟩] ∧
      (s.heap.ancestry ⟨11⟩).definers.definersOf "z" = [⟨8⟩, ⟨10⟩] ∧
      (s.heap.memo.lookup ⟨11⟩).isSome = true))
    (by decide +kernel)
  obtain ⟨hc, horder, hdefs, hk⟩ := of_decide_eq_true hp
  have hb := ancestry_read_off_class_graph.1 s hs
  obtain ⟨-, -, -, hdefiners, hkept⟩ := ancestry_read_off_class_graph.2 s.heap hb s.heap.memo
    (fun _ _ ha => ha) ⟨11⟩ hc
  obtain ⟨kept, hlook⟩ := Option.isSome_iff_exists.1 hk
  refine ⟨s, hrun, hb, horder, ?_, ?_⟩
  · intro d
    rw [← (hdefiners "z").2 d, ← hdefs]
  · rw [hlook, hkept kept hlook]

/-! ## Lookups -/

/-- In a store in which no class was changed after it became a parent, looking up a name is decided by
who defines it: a class finds its own slot; of a name that it does not own it finds the slot of the
class that defines it, if there is one such class, and if there are more the lookup is refused with
all of them, each once. If names tell the ancestors apart, each of these can be reached by its name. -/
theorem lookup_decided_by_definers {h : Heap} (ho : h.Orderly) {c : ContainerId}
    (hc : (h.container c).isClass = true) (x : String) :
    (∀ s, (h.container c).attrs.get? x = some s → h.classMember c x = .ok (.slot s)) ∧
    (¬ h.Owns c x →
      ((∃ fault, h.classMember c x = .error fault) ↔ h.Ambiguous c x) ∧
      (∀ fault, h.classMember c x = .error fault → ∃ losers : List ContainerId,
        fault = .ambiguous x (h.nameOf c) (losers.map h.nameOf) ∧ losers.Nodup ∧
        (∀ d, d ∈ losers ↔ h.Definer x c d) ∧
        (h.Qualifiable c → ∀ d ∈ losers, ∃ n s, (h.container d).name = some n ∧
          h.classMember c n = .ok (.qualifier d) ∧
          (h.container d).attrs.get? x = some s ∧ h.classMember d x = .ok (.slot s))) ∧
      ∀ d, (∀ e, h.Definer x c e ↔ e = d) →
        ∃ s, (h.container d).attrs.get? x = some s ∧ h.classMember c x = .ok (.slot s)) := by
  refine ⟨fun s => classMember_of_get?, fun hn => ⟨?_, ?_, ?_⟩⟩
  · rw [ho.built.lineal.classMember_eq_error_iff hc hn]
    exact ho.losers_ne_nil_iff hc hn
  · intro fault hf
    have hlost := (ho.built.lineal.classMember_eq_error_iff hc hn).1 ⟨fault, hf⟩
    have ham := (ho.losers_ne_nil_iff hc hn).1 hlost
    have hmem : ∀ d, d ∈ h.losers c x ↔ h.Definer x c d := fun d =>
      (ho.recorded hc hn d).trans (and_iff_left ham)
    rw [classMember_of_losers hn hlost] at hf
    cases hf
    refine ⟨h.losers c x, rfl, nodup_losers (ho.built.nodup_conflicts hc), hmem, ?_⟩
    intro hq d hd
    have hdef := (hmem d).1 hd
    have hdc : d ≠ c := by
      rintro rfl
      exact hn hdef.owns
    obtain ⟨n, hname⟩ := hq.named d hdc hdef.subclass
    obtain ⟨s, hs⟩ := exists_slot_of_owns hdef.owns
    exact ⟨n, s, hname, ho.classMember_name hc hq hdc hdef.subclass hname, hs,
      classMember_of_get? hs⟩
  · intro d hd
    have hlost : h.losers c x = [] := by
      by_contra hlost
      obtain ⟨e, e', hne, he, he'⟩ := (ho.losers_ne_nil_iff hc hn).1 hlost
      exact hne (((hd e).1 he).trans ((hd e').1 he').symm)
    obtain ⟨e, s, he, hs, hok⟩ :=
      ho.built.lineal.classMember_of_definer hc hn hlost ⟨d, (hd d).2 rfl⟩
    exact ⟨s, (hd e).1 he ▸ hs, hok⟩

/-- A request to make a class or to change one. -/
inductive ClassEdit where
  | make (name : String)
  | declare (c : ContainerId) (name : String) (ty : Declared)
  | extend (c parent : ContainerId)

namespace ClassEdit

def isParent (h : Heap) (c : ContainerId) : Bool :=
  h.containers.any fun x => x.kind.parents.contains c

/-- Does what is asked for, unless it is refused or changes a parent. -/
def apply (h : Heap) : ClassEdit → Option Heap
  | .make name => some (h.alloc { name := some name, kind := .cls {} }).2
  | .declare c name ty =>
    if isParent h c then none else ((h.declare c name ty).toOption).map Prod.snd
  | .extend c parent => if isParent h c then none else (h.addParent c parent).toOption

def applyAll (edits : List ClassEdit) : Option Heap :=
  edits.foldlM apply .empty

variable {h h' : Heap} {c : ContainerId}

theorem isParent_of_mem_parents {e : ContainerId} (hp : c ∈ h.parents e) : isParent h c = true := by
  have hlt := lt_size_of_isClass (isClass_of_mem_parents hp)
  rw [isParent, Array.any_eq_true]
  refine ⟨e.index, hlt, ?_⟩
  rw [parents_eq, container, Array.getD_eq_getD_getElem?, Array.getElem?_eq_getElem hlt] at hp
  exact List.contains_iff_mem.2 hp

/-- What is done to a class that is not a parent leaves the parents alone. -/
theorem orderly_of_others (ho : h.Orderly) (hop : h.ClassOp h') (hc : ¬ isParent h c = true)
    (hothers : ∀ e, e ≠ c → h'.container e = h.container e) : h'.Orderly := by
  refine .op ho hop fun e p hp => ?_
  have hsame : h.SameClass h' p := by
    refine .of_container (hothers p ?_)
    rintro rfl
    exact hc (isParent_of_mem_parents hp)
  exact ⟨hsame.attrs, hsame.parents_eq⟩

theorem orderly_apply (ho : h.Orderly) {edit : ClassEdit} (he : edit.apply h = some h') :
    h'.Orderly := by
  cases edit with
  | make name =>
    cases he
    have hf : Container.Fresh { name := some name, kind := .cls {} } :=
      ⟨rfl, rfl, fun _ hk => (ContainerKind.cls.inj hk).symm⟩
    refine .op ho (.alloc hf) fun c p hp => ?_
    have hs := (SameClasses.alloc hf).old p (ho.built.lineal.parent_isClass c p hp)
    exact ⟨hs.attrs, hs.parents_eq⟩
  | declare c name ty =>
    rw [apply] at he
    split at he
    · cases he
    · rename_i hc
      cases hok : h.declare c name ty with
      | error => simp [hok, Except.toOption] at he
      | ok result =>
        obtain ⟨s, g⟩ := result
        simp only [hok, Except.toOption, Option.map_some, Option.some.injEq] at he
        subst he
        exact orderly_of_others ho (.declare hok) hc fun e hne => container_declare_of_ne hok hne
  | extend c parent =>
    rw [apply] at he
    split at he
    · cases he
    · rename_i hc
      cases hok : h.addParent c parent with
      | error => simp [hok, Except.toOption] at he
      | ok g =>
        simp only [hok, Except.toOption, Option.some.injEq] at he
        subst he
        exact orderly_of_others ho (.step (.addParent hok)) hc
          fun e hne => container_addParent_of_ne hok hne

theorem orderly_foldlM {edits : List ClassEdit} (ho : h.Orderly)
    (he : edits.foldlM apply h = some h') : h'.Orderly := by
  induction edits generalizing h with
  | nil =>
    cases he
    exact ho
  | cons edit edits ih =>
    rw [List.foldlM_cons] at he
    obtain ⟨g, hg, he⟩ := Option.bind_eq_some_iff.1 he
    exact ih (orderly_apply ho hg) he

theorem exists_orderly (edits : List ClassEdit) {p : Heap → Bool}
    (hp : (applyAll edits).any p = true) : ∃ h, applyAll edits = some h ∧ h.Orderly ∧ p h = true := by
  obtain ⟨h, he, hp⟩ := (Option.any_eq_true _ _).1 hp
  exact ⟨h, he, orderly_foldlM .empty he, hp⟩

end ClassEdit

/-- Two classes own a name, a third extends both, and a fourth extends the third. -/
def inheritedAmbiguity : List ClassEdit :=
  [.make "A", .declare ⟨0⟩ "x" (.scalar .num), .make "B", .declare ⟨1⟩ "x" (.scalar .num),
    .make "M", .extend ⟨2⟩ ⟨0⟩, .extend ⟨2⟩ ⟨1⟩, .make "C", .extend ⟨3⟩ ⟨2⟩]

theorem lookup_decided_by_definers_of_inherited_ambiguity :
    ∃ h, ClassEdit.applyAll inheritedAmbiguity = some h ∧ h.Orderly ∧
      (h.container ⟨3⟩).isClass = true ∧ h.Qualifiable ⟨3⟩ ∧ ∃ losers : List ContainerId,
        h.classMember ⟨3⟩ "x" = .error (.ambiguous "x" "C" (losers.map h.nameOf)) ∧
        (∀ d, d ∈ losers ↔ h.Definer "x" ⟨3⟩ d) ∧
        ∀ d ∈ losers, ∃ n s, (h.container d).name = some n ∧
          h.classMember ⟨3⟩ n = .ok (.qualifier d) ∧ h.classMember d "x" = .ok (.slot s) := by
  obtain ⟨h, he, ho, hp⟩ := ClassEdit.exists_orderly inheritedAmbiguity
    (p := fun h => decide ((h.container ⟨3⟩).isClass = true ∧ ¬ h.Owns ⟨3⟩ "x" ∧
      h.nameOf ⟨3⟩ = "C" ∧
      h.classMember ⟨3⟩ "x" = .error (.ambiguous "x" "C" ["A", "B"]) ∧
      ∀ a ∈ (h.ancestry ⟨3⟩).order.tail, (h.container a).name.isSome ∧
        (∀ b ∈ (h.ancestry ⟨3⟩).order.tail, (h.container a).name = (h.container b).name → a = b) ∧
        ∀ d ∈ (⟨3⟩ : ContainerId) :: (h.ancestry ⟨3⟩).order.tail, ¬ h.Owns d (h.nameOf a)))
    (by decide +kernel)
  obtain ⟨hc, hn, hname, herror, hnames⟩ := of_decide_eq_true hp
  have hq := ho.built.lineal.qualifiable_of_order hnames
  obtain ⟨losers, hf, -, hmem, hreach⟩ := ((lookup_decided_by_definers ho hc "x").2 hn).2.1 _ herror
  refine ⟨h, he, ho, hc, hq, losers, ?_, hmem, ?_⟩
  · rw [herror, hf, hname]
  · intro d hd
    obtain ⟨n, s, hname, hqual, -, hslot⟩ := hreach hq d hd
    exact ⟨n, s, hname, hqual, hslot⟩

/-! ## Silent choices -/

/-- All along a run of operations a lookup finds a slot only if one class defines the name, and is
refused only if more do, exactly when it is so at first and no operation changes, for a class other
than the one it is done to, whether a name is ambiguous. Without any condition a slot that is found is
that of a class that defines the name, and a refusal names ancestors that own it. -/
theorem no_silent_choice_iff {h : Heap} (hb : h.Built) {run : List Heap}
    (hrun : (h :: run).IsChain ClassOp) :
    ((∀ g ∈ h :: run, g.NoSilentChoice) ↔
      h.NoSilentChoice ∧ (h :: run).IsChain KeepsAmbiguity) ∧
    ∀ c x, (h.container c).isClass = true → ¬ h.Owns c x →
      (∀ s, h.classMember c x = .ok (.slot s) →
        ∃ d, h.Definer x c d ∧ (h.container d).attrs.get? x = some s) ∧
      ∀ fault, h.classMember c x = .error fault → ∃ losers : List ContainerId,
        fault = .ambiguous x (h.nameOf c) (losers.map h.nameOf) ∧ losers ≠ [] ∧ losers.Nodup ∧
        ∀ d ∈ losers, h.Subclass c d ∧ h.Owns d x := by
  refine ⟨noSilentChoice_run_iff hb hrun, fun c x hc hn => ⟨fun s hs => ?_, fun fault hf => ?_⟩⟩
  · exact (hb.lineal.definer_of_classMember hc hn hs).2
  · have hlost := (hb.lineal.classMember_eq_error_iff hc hn).1 ⟨fault, hf⟩
    rw [classMember_of_losers hn hlost] at hf
    cases hf
    exact ⟨h.losers c x, rfl, hlost, nodup_losers (hb.nodup_conflicts hc),
      fun d hd => hb.subclass_of_mem_losers hc hd⟩

/-- A program with a class that extends two others, of which one gets a name afterwards. -/
def lateNameProgram : String :=
  "class A \x7b\x7d class B \x7b\x7d class C extends A, B \x7b\x7d Num A.x;"

theorem no_silent_choice_iff_when_both_get_the_name :
    ∃ s slot h', Session.bare.evalSource lateNameProgram = some (.ok (), s) ∧ s.heap.Built ∧
      s.heap.declare ⟨9⟩ "x" (.scalar .num) = .ok (slot, h') ∧
      ¬ s.heap.Ambiguous ⟨10⟩ "x" ∧ h'.Ambiguous ⟨10⟩ "x" ∧
      ¬ ∀ g ∈ [s.heap, h'], g.NoSilentChoice := by
  obtain ⟨s, hrun, hs, hp⟩ := Session.exists_reached lateNameProgram
    (p := fun s => decide ((s.heap.container ⟨10⟩).isClass = true ∧
      (s.heap.ancestry ⟨10⟩).definers.definersOf "x" = [⟨8⟩]) &&
      (s.heap.declare ⟨9⟩ "x" (.scalar .num)).toOption.any fun result : SlotId × Heap =>
        decide ((result.2.container ⟨10⟩).isClass = true ∧
          (result.2.ancestry ⟨10⟩).definers.definersOf "x" = [⟨8⟩, ⟨9⟩]))
    (by decide +kernel)
  obtain ⟨hp, hp'⟩ := Bool.and_eq_true_iff.1 hp
  obtain ⟨hc, hdefs⟩ := of_decide_eq_true hp
  have hb := hs.sound.heap.built
  cases hok : s.heap.declare ⟨9⟩ "x" (.scalar .num) with
  | error => simp [hok, Except.toOption] at hp'
  | ok result =>
    obtain ⟨slot, h'⟩ := result
    simp only [hok, Except.toOption, Option.any_some, decide_eq_true_eq] at hp'
    obtain ⟨hc', hdefs'⟩ := hp'
    have hop : s.heap.ClassOp h' := .declare hok
    have hold : ¬ s.heap.Ambiguous ⟨10⟩ "x" := by
      rintro ⟨d, e, hne, hd, he⟩
      rw [← hb.lineal.mem_definers_iff hc, hdefs, List.mem_singleton] at hd he
      exact hne (hd.trans he.symm)
    have hnew : h'.Ambiguous ⟨10⟩ "x" := by
      have hl' := hop.lineal hb.lineal
      refine ⟨⟨8⟩, ⟨9⟩, by decide, ?_, ?_⟩ <;> rw [← hl'.mem_definers_iff hc', hdefs'] <;> simp
    refine ⟨s, slot, h', hrun, hb, hok, hold, hnew, fun hall => ?_⟩
    have hchain : [s.heap, h'].IsChain ClassOp := List.isChain_cons_cons.2 ⟨hop, .singleton _⟩
    have hkeep := ((no_silent_choice_iff hb hchain).1.1 hall).2
    have hsame : s.heap.SameClass h' ⟨10⟩ := .of_container (container_declare_of_ne hok (by decide))
    exact hold (((List.isChain_cons_cons.1 hkeep).1 ⟨10⟩ hc hsame.attrs hsame.parents_eq "x").1 hnew)

/-- A program with a class that extends two others, both of which get the same name afterwards. -/
def lateNamesProgram : String :=
  "class A \x7b\x7d class B \x7b\x7d class C extends A, B \x7b\x7d Num A.x; Num B.x;"

theorem late_name_chosen_silently :
    ∃ s slot, Session.bare.evalSource lateNamesProgram = some (.ok (), s) ∧ s.heap.Built ∧
      (s.heap.container ⟨10⟩).isClass = true ∧ ¬ s.heap.Owns ⟨10⟩ "x" ∧
      s.heap.Definer "x" ⟨10⟩ ⟨8⟩ ∧ s.heap.Definer "x" ⟨10⟩ ⟨9⟩ ∧
      s.heap.classMember ⟨10⟩ "x" = .ok (.slot slot) ∧ ¬ s.heap.NoSilentChoice := by
  obtain ⟨s, hrun, hs, hp⟩ := Session.exists_reached lateNamesProgram
    (p := fun s => decide ((s.heap.container ⟨10⟩).isClass = true ∧ ¬ s.heap.Owns ⟨10⟩ "x" ∧
      s.heap.parents ⟨10⟩ = [⟨8⟩, ⟨9⟩] ∧ s.heap.Owns ⟨8⟩ "x" ∧ s.heap.Owns ⟨9⟩ "x" ∧
      s.heap.classMember ⟨10⟩ "x" = .ok (.slot ⟨29⟩)))
    (by decide +kernel)
  obtain ⟨hc, hn, hparents, ha, hb, hslot⟩ := of_decide_eq_true hp
  have hda : s.heap.Definer "x" ⟨10⟩ ⟨8⟩ := .up hn (by simp [hparents]) (.own ha)
  have hdb : s.heap.Definer "x" ⟨10⟩ ⟨9⟩ := .up hn (by simp [hparents]) (.own hb)
  refine ⟨s, ⟨29⟩, hrun, hs.sound.heap.built, hc, hn, hda, hdb, hslot, fun hall => ?_⟩
  have heq := ((hall ⟨10⟩ "x" hc hn).1 ⟨29⟩ hslot).unique hda hdb
  cases heq

end Ditlang
