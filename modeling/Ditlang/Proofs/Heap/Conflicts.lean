import Ditlang.Proofs.Heap.ClassSteps
import Ditlang.Proofs.Heap.Fitting

/-!
# Ditlang.Proofs.Heap.Conflicts

What the conflicts of a class say about the names it inherits.

A class records conflicts when it declares a name and when it gets a parent, and never looks at them
again. Whether a name is `Ambiguous` for a class, that is, whether more than one class defines it, is
a fact about all of its ancestors. The two agree for the class that an operation is done to: that is
`Extends.ambiguous_iff` and `Extends.mem_losers`, and a declaration only hides what it declares. They
can only come apart in a subclass of that class, whose conflicts stay as they are.

So the record is right in a store in which no class changes once it is a parent (`Orderly`), and in a
run of operations it stays right as long as none makes a name ambiguous in another class, or ends an
ambiguity there (`noSilentChoice_run_iff`).
-/

namespace Ditlang
namespace Heap

variable {h h' : Heap} {c d p : ContainerId} {x y : String}

/-- More than one class defines `x` for `c`. -/
def Ambiguous (h : Heap) (c : ContainerId) (x : String) : Prop :=
  ∃ d e, d ≠ e ∧ h.Definer x c d ∧ h.Definer x c e

/-- The classes with which `c` has recorded conflicts about `x`. -/
def losers (h : Heap) (c : ContainerId) (x : String) : List ContainerId :=
  ((h.conflicts c).filter (·.name == x)).map (·.loser)

theorem Ambiguous.not_owns (ha : h.Ambiguous c x) : ¬ h.Owns c x := by
  obtain ⟨d, e, hne, hd, he⟩ := ha
  intro ho
  exact hne ((hd.eq_of_owns ho).trans (he.eq_of_owns ho).symm)

theorem Ambiguous.exists_definer (ha : h.Ambiguous c x) : ∃ d, h.Definer x c d := by
  obtain ⟨d, -, -, hd, -⟩ := ha
  exact ⟨d, hd⟩

theorem mem_losers : d ∈ h.losers c x ↔ ⟨d, x⟩ ∈ h.conflicts c := by
  unfold losers
  rw [List.mem_map]
  constructor
  · rintro ⟨⟨loser, name⟩, hm, rfl⟩
    obtain ⟨hm, hname⟩ := List.mem_filter.1 hm
    rw [beq_iff_eq] at hname
    exact hname ▸ hm
  · intro hm
    exact ⟨⟨d, x⟩, List.mem_filter.2 ⟨hm, by simp⟩, rfl⟩

theorem nodup_losers (hn : (h.conflicts c).Nodup) : (h.losers c x).Nodup := by
  refine List.Nodup.map_on ?_ (hn.filter _)
  rintro ⟨loser, name⟩ ha ⟨loser', name'⟩ hb (rfl : loser = loser')
  have hname := (List.mem_filter.1 ha).2
  have hname' := (List.mem_filter.1 hb).2
  rw [beq_iff_eq] at hname hname'
  rw [show name = name' from hname.trans hname'.symm]

theorem losers_eq_nil_iff : h.losers c x = [] ↔ ∀ d, d ∉ h.losers c x :=
  List.eq_nil_iff_forall_not_mem

theorem SameClass.losers_eq (hs : h.SameClass h' c) : h'.losers c x = h.losers c x := by
  rw [losers, hs.conflicts_eq, ← losers]

/-! ## Looking a name up -/

theorem exists_slot_of_owns (ho : h.Owns c x) : ∃ s, (h.container c).attrs.get? x = some s :=
  Option.isSome_iff_exists.1 ho

theorem get?_of_not_owns (hn : ¬ h.Owns c x) : (h.container c).attrs.get? x = none :=
  Option.not_isSome_iff_eq_none.1 hn

theorem classMember_of_get? {s : SlotId} (hs : (h.container c).attrs.get? x = some s) :
    h.classMember c x = .ok (.slot s) := by
  rw [classMember, hs]

theorem classMember_of_losers (hn : ¬ h.Owns c x) (hl : h.losers c x ≠ []) :
    h.classMember c x = .error (.ambiguous x (h.nameOf c) ((h.losers c x).map h.nameOf)) := by
  have hne : (h.conflicts c).filter (·.name == x) ≠ [] := by
    intro he
    rw [losers, he] at hl
    exact hl rfl
  rw [classMember, get?_of_not_owns hn]
  dsimp only
  rw [if_pos hne, losers, List.map_map]
  rfl

/-- Without conflicts a lookup goes by the ancestry. -/
theorem classMember_of_losers_nil (hn : ¬ h.Owns c x) (hl : h.losers c x = []) :
    h.classMember c x =
      match (((h.ancestry c).definers.definersOf x).head?.bind
        fun d => (h.container d).attrs.get? x) with
      | some s => .ok (.slot s)
      | none =>
        match (h.ancestry c).order.tail.find? fun a => (h.container a).name == some x with
        | some a => .ok (.qualifier a)
        | none => .ok .missing := by
  have he : (h.conflicts c).filter (·.name == x) = [] := List.map_eq_nil_iff.1 hl
  rw [classMember, get?_of_not_owns hn]
  dsimp only
  rw [if_neg (not_not_intro he)]
  rfl

namespace Lineal

variable (hl : h.Lineal) (hc : (h.container c).isClass = true)

include hl hc

/-- A name that some class defines is found, if there is no conflict about it. -/
theorem classMember_of_definer (hn : ¬ h.Owns c x) (hlost : h.losers c x = [])
    (hd : ∃ d, h.Definer x c d) :
    ∃ d s, h.Definer x c d ∧ (h.container d).attrs.get? x = some s ∧
      h.classMember c x = .ok (.slot s) := by
  rw [classMember_of_losers_nil hn hlost]
  cases hdefs : (h.ancestry c).definers.definersOf x with
  | nil =>
    obtain ⟨d, hd⟩ := hd
    rw [← hl.mem_definers_iff hc, hdefs] at hd
    cases hd
  | cons d rest =>
    have hd : h.Definer x c d := by
      rw [← hl.mem_definers_iff hc, hdefs]
      exact List.mem_cons_self
    obtain ⟨s, hs⟩ := exists_slot_of_owns hd.owns
    exact ⟨d, s, hd, hs, by simp [hs]⟩

theorem classMember_of_no_definer (hn : ¬ h.Owns c x) (hlost : h.losers c x = [])
    (hd : ¬ ∃ d, h.Definer x c d) :
    h.classMember c x =
      match (h.ancestry c).order.tail.find? fun a => (h.container a).name == some x with
      | some a => .ok (.qualifier a)
      | none => .ok .missing := by
  have hdefs : (h.ancestry c).definers.definersOf x = [] := by
    refine List.eq_nil_iff_forall_not_mem.2 fun d hm => hd ⟨d, ?_⟩
    exact (hl.mem_definers_iff hc).1 hm
  rw [classMember_of_losers_nil hn hlost, hdefs]
  rfl

theorem classMember_eq_error_iff (hn : ¬ h.Owns c x) :
    (∃ fault, h.classMember c x = .error fault) ↔ h.losers c x ≠ [] := by
  constructor
  · rintro ⟨fault, hf⟩ hlost
    by_cases hd : ∃ d, h.Definer x c d
    · obtain ⟨d, s, -, -, hs⟩ := hl.classMember_of_definer hc hn hlost hd
      rw [hf] at hs
      cases hs
    · rw [hl.classMember_of_no_definer hc hn hlost hd] at hf
      split at hf <;> cases hf
  · intro hlost
    exact ⟨_, classMember_of_losers hn hlost⟩

/-- A slot that is found is that of a class that defines the name. -/
theorem definer_of_classMember (hn : ¬ h.Owns c x) {s : SlotId}
    (hs : h.classMember c x = .ok (.slot s)) :
    h.losers c x = [] ∧ ∃ d, h.Definer x c d ∧ (h.container d).attrs.get? x = some s := by
  have hlost : h.losers c x = [] := by
    by_contra hlost
    rw [classMember_of_losers hn hlost] at hs
    cases hs
  refine ⟨hlost, ?_⟩
  by_cases hd : ∃ d, h.Definer x c d
  · obtain ⟨d, t, hd, ht, hok⟩ := hl.classMember_of_definer hc hn hlost hd
    rw [hs] at hok
    cases hok
    exact ⟨d, hd, ht⟩
  · rw [hl.classMember_of_no_definer hc hn hlost hd] at hs
    split at hs <;> cases hs

end Lineal

/-- The lookup of `x` on `c` finds a slot only if one class defines `x`, and is refused only if more
do. -/
def ChoosesOpenly (h : Heap) (c : ContainerId) (x : String) : Prop :=
  (∀ s, h.classMember c x = .ok (.slot s) → ∃! d, h.Definer x c d) ∧
    ∀ fault, h.classMember c x = .error fault → h.Ambiguous c x

def NoSilentChoice (h : Heap) : Prop :=
  ∀ c x, (h.container c).isClass = true → ¬ h.Owns c x → h.ChoosesOpenly c x

theorem Lineal.choosesOpenly_iff (hl : h.Lineal) (hc : (h.container c).isClass = true)
    (hn : ¬ h.Owns c x) : h.ChoosesOpenly c x ↔ (h.losers c x ≠ [] ↔ h.Ambiguous c x) := by
  constructor
  · rintro ⟨hslot, hfault⟩
    constructor
    · intro hlost
      exact hfault _ (classMember_of_losers hn hlost)
    · rintro ⟨d, e, hne, hd, he⟩ hlost
      obtain ⟨_, s, -, -, hs⟩ := hl.classMember_of_definer hc hn hlost ⟨d, hd⟩
      exact hne ((hslot s hs).unique hd he)
  · intro hiff
    constructor
    · intro s hs
      obtain ⟨hlost, d, hd, -⟩ := hl.definer_of_classMember hc hn hs
      refine ⟨d, hd, fun e he => ?_⟩
      by_contra hne
      exact hiff.2 ⟨e, d, hne, he, hd⟩ hlost
    · intro fault hf
      exact hiff.1 ((hl.classMember_eq_error_iff hc hn).1 ⟨fault, hf⟩)

/-! ## Who defines a name after an operation -/

/-- What an operation does to other classes than the ancestors of `c` does not matter to `c`. -/
theorem definer_iff_of_same (hs : ∀ e, h.Subclass c e → h.SameClass h' e) :
    h'.Definer x c d ↔ h.Definer x c d :=
  Definer.congr fun e he => ⟨(hs e he).owns_iff, (hs e he).parents_eq⟩

theorem ambiguous_congr (hd : ∀ d, h'.Definer x c d ↔ h.Definer x c d) :
    h'.Ambiguous c x ↔ h.Ambiguous c x := by
  unfold Ambiguous
  simp only [hd]

/-- A class that was just made inherits nothing and has no conflicts. -/
theorem SameClasses.new_class (hs : h.SameClasses h') (hc : ¬ (h.container c).isClass = true)
    (hc' : (h'.container c).isClass = true) :
    h'.losers c x = [] ∧ ∀ d, ¬ h'.Definer x c d := by
  obtain ⟨hattrs, hkind⟩ := hs.new c hc hc'
  constructor
  · rw [losers, conflicts_eq, hkind]
    rfl
  · intro d hd
    cases hd with
    | own ho =>
      rw [Owns, hattrs] at ho
      cases ho
    | up _ hp _ =>
      rw [parents_eq, hkind] at hp
      cases hp

theorem Declares.definer_iff_of_ne (hd : h.Declares h' c x) (hy : y ≠ x) {e : ContainerId} :
    h'.Definer y e d ↔ h.Definer y e d := by
  refine Definer.congr fun a _ => ?_
  by_cases ha : a = c
  · subst ha
    exact ⟨(hd.owns y).trans (or_iff_right hy), hd.parents⟩
  · exact ⟨(hd.others a ha).owns_iff, (hd.others a ha).parents_eq⟩

theorem Declares.losers_eq (hd : h.Declares h' c x) (hy : y ≠ x) :
    h'.losers c y = [] ↔ h.losers c y = [] := by
  rw [losers_eq_nil_iff, losers_eq_nil_iff]
  simp only [mem_losers, hd.conflicts, hy, false_and, or_false]

namespace Extends

variable (he : h.Extends h' c p)

include he

theorem owns_iff : h'.Owns c y ↔ h.Owns c y := by
  unfold Owns
  rw [he.attrs]

theorem definer_iff {e : ContainerId} (hs : ¬ h.Subclass e c) :
    h'.Definer y e d ↔ h.Definer y e d :=
  definer_iff_of_same fun a ha => he.others a (by rintro rfl; exact hs ha)

/-- The new parent adds its definers to those there were. -/
theorem definer_self_iff (hl : h.Lineal) (hn : ¬ h.Owns c y) :
    h'.Definer y c d ↔ h.Definer y c d ∨ h.Definer y p d := by
  have hup : ∀ q ∈ h.parents c ++ [p], ¬ h.Subclass q c := by
    intro q hq
    rcases List.mem_append.1 hq with hq | hq
    · exact fun hs => hl.acyclic c q hq hs
    · rw [List.mem_singleton.1 hq]
      exact he.apart
  rw [Definer.iff_of_not_owns (fun ho => hn (he.owns_iff.1 ho)), Definer.iff_of_not_owns hn,
    ← definerVia_concat, he.parents]
  exact exists_congr fun q => and_congr_right fun hq => he.definer_iff (hup q hq)

/-- A name becomes ambiguous through a new parent if it is so for that parent already, or if the
parent brings another definer of a name that has one. -/
theorem ambiguous_iff (hl : h.Lineal) (hn : ¬ h.Owns c y) :
    h'.Ambiguous c y ↔ h.Ambiguous c y ∨
      ((∃ d, h.Definer y p d) ∧ (∃ d, h.Definer y c d) ∧ h'.Ambiguous c y) ∨ h.Ambiguous p y := by
  have hdef := fun d => he.definer_self_iff (d := d) hl hn
  constructor
  · rintro ⟨d, e, hne, hd, hd'⟩
    rcases (hdef d).1 hd with hc | hp <;> rcases (hdef e).1 hd' with hc' | hp'
    · exact .inl ⟨d, e, hne, hc, hc'⟩
    · exact .inr (.inl ⟨⟨e, hp'⟩, ⟨d, hc⟩, d, e, hne, hd, hd'⟩)
    · exact .inr (.inl ⟨⟨d, hp⟩, ⟨e, hc'⟩, d, e, hne, hd, hd'⟩)
    · exact .inr (.inr ⟨d, e, hne, hp, hp'⟩)
  · rintro (⟨d, e, hne, hd, hd'⟩ | ⟨-, -, ha⟩ | ⟨d, e, hne, hd, hd'⟩)
    · exact ⟨d, e, hne, (hdef d).2 (.inl hd), (hdef e).2 (.inl hd')⟩
    · exact ha
    · exact ⟨d, e, hne, (hdef d).2 (.inr hd), (hdef e).2 (.inr hd')⟩

theorem mem_losers (hl : h.Lineal) (hn : ¬ h.Owns c y) :
    d ∈ h'.losers c y ↔ d ∈ h.losers c y ∨
      ((∃ e, h.Definer y p e) ∧ (∃ e, h.Definer y c e) ∧ h'.Ambiguous c y) ∧ h'.Definer y c d ∨
      d ∈ h.losers p y ∧ ¬ h.Owns p y := by
  have hvia : ∀ e, h.DefinerVia y (h.parents c ++ [p]) e ↔ h'.Definer y c e := by
    intro e
    rw [he.definer_self_iff hl hn, definerVia_concat, Definer.iff_of_not_owns hn]
  have hclash : h.Clashes c p y ↔
      (∃ e, h.Definer y p e) ∧ (∃ e, h.Definer y c e) ∧ h'.Ambiguous c y := by
    unfold Clashes Ambiguous
    simp only [hn, false_or, hvia, Definer.iff_of_not_owns hn]
  rw [Heap.mem_losers, he.conflicts, hvia, hclash, Heap.mem_losers, Heap.mem_losers]
  simp only [hn, not_false_eq_true, and_true]

end Extends

/-! ## Conflicts tell what is ambiguous -/

/-- The conflicts of `c` about `x` are those of all classes that define it, if these are many. -/
def Recorded (h : Heap) (c : ContainerId) (x : String) : Prop :=
  ∀ d, d ∈ h.losers c x ↔ h.Definer x c d ∧ h.Ambiguous c x

theorem Extends.recorded (he : h.Extends h' c p) (hl : h.Lineal) (hn : ¬ h.Owns c y)
    (hc : h.Recorded c y) (hp : ¬ h.Owns p y → h.Recorded p y) : h'.Recorded c y := by
  intro d
  rw [he.mem_losers hl hn, he.definer_self_iff hl hn, hc d]
  constructor
  · rintro (⟨hd, ha⟩ | ⟨hboth, hd⟩ | ⟨hd, hpn⟩)
    · exact ⟨.inl hd, (he.ambiguous_iff hl hn).2 (.inl ha)⟩
    · exact ⟨hd, hboth.2.2⟩
    · obtain ⟨hd, ha⟩ := (hp hpn d).1 hd
      exact ⟨.inr hd, (he.ambiguous_iff hl hn).2 (.inr (.inr ha))⟩
  · rintro ⟨hd, ha⟩
    by_cases hboth : (∃ e, h.Definer y p e) ∧ ∃ e, h.Definer y c e
    · exact .inr (.inl ⟨⟨hboth.1, hboth.2, ha⟩, hd⟩)
    · -- only one of the two brings definers, and it knew of the ambiguity before
      rcases (he.ambiguous_iff hl hn).1 ha with hac | hboth' | hap
      · have hd := hd.resolve_right fun hdp => hboth ⟨⟨d, hdp⟩, hac.exists_definer⟩
        exact .inl ⟨hd, hac⟩
      · exact absurd ⟨hboth'.1, hboth'.2.1⟩ hboth
      · have hd := hd.resolve_left fun hdc => hboth ⟨hap.exists_definer, d, hdc⟩
        exact .inr (.inr ⟨(hp hap.not_owns d).2 ⟨hd, hap⟩, hap.not_owns⟩)

theorem Extends.losers_ne_nil_iff (he : h.Extends h' c p) (hl : h.Lineal) (hn : ¬ h.Owns c y)
    (hc : h.losers c y ≠ [] ↔ h.Ambiguous c y)
    (hp : ¬ h.Owns p y → (h.losers p y ≠ [] ↔ h.Ambiguous p y)) :
    h'.losers c y ≠ [] ↔ h'.Ambiguous c y := by
  have hmem := fun d => he.mem_losers (d := d) hl hn
  constructor
  · intro hlost
    obtain ⟨d, hd⟩ := List.exists_mem_of_ne_nil _ hlost
    rcases (hmem d).1 hd with hd | ⟨hboth, -⟩ | ⟨hd, hpn⟩
    · exact (he.ambiguous_iff hl hn).2 (.inl (hc.1 (List.ne_nil_of_mem hd)))
    · exact hboth.2.2
    · exact (he.ambiguous_iff hl hn).2 (.inr (.inr ((hp hpn).1 (List.ne_nil_of_mem hd))))
  · intro ha
    rcases (he.ambiguous_iff hl hn).1 ha with hac | hboth | hap
    · obtain ⟨d, hd⟩ := List.exists_mem_of_ne_nil _ (hc.2 hac)
      exact List.ne_nil_of_mem ((hmem d).2 (.inl hd))
    · obtain ⟨d, hd⟩ := ha.exists_definer
      exact List.ne_nil_of_mem ((hmem d).2 (.inr (.inl ⟨hboth, hd⟩)))
    · obtain ⟨d, hd⟩ := List.exists_mem_of_ne_nil _ ((hp hap.not_owns).2 hap)
      exact List.ne_nil_of_mem ((hmem d).2 (.inr (.inr ⟨hd, hap.not_owns⟩)))

/-! ## What one operation does to one class -/

/-- To a class an operation does nothing, or makes it, or gives it a name or a parent. -/
theorem ClassStep.cases_class (hs : ClassStep h h') (hc : (h'.container c).isClass = true) :
    ((h.container c).isClass = true ∧ h.SameClass h' c) ∨
    (∀ x, h'.losers c x = [] ∧ ∀ d, ¬ h'.Definer x c d) ∨
    (∃ x, h.Declares h' c x) ∨ ∃ p, h.Extends h' c p := by
  cases hs with
  | same hs =>
    by_cases hold : (h.container c).isClass = true
    · exact .inl ⟨hold, hs.old c hold⟩
    · exact .inr (.inl fun x => hs.new_class hold hc)
  | @name e x hd =>
    by_cases he : c = e
    · subst he
      exact .inr (.inr (.inl ⟨x, hd⟩))
    · exact .inl ⟨(hd.others c he).isClass_eq ▸ hc, hd.others c he⟩
  | @parent e p hx =>
    by_cases he : c = e
    · subst he
      exact .inr (.inr (.inr ⟨p, hx⟩))
    · exact .inl ⟨(hx.others c he).isClass_eq ▸ hc, hx.others c he⟩

theorem ClassStep.isClass (hs : ClassStep h h') (hc : (h.container c).isClass = true) :
    (h'.container c).isClass = true := by
  cases hs with
  | same hs => exact (hs.old c hc).isClass_eq ▸ hc
  | @name e x hd =>
    by_cases he : c = e
    · exact he ▸ hd.isClass'
    · exact (hd.others c he).isClass_eq ▸ hc
  | @parent e p hx =>
    by_cases he : c = e
    · exact he ▸ hx.isClass'
    · exact (hx.others c he).isClass_eq ▸ hc

/-- A class with the names and the parents it had was left alone. -/
theorem ClassStep.sameClass (hs : ClassStep h h') (hc : (h.container c).isClass = true)
    (ha : (h'.container c).attrs = (h.container c).attrs) (hp : h'.parents c = h.parents c) :
    h.SameClass h' c := by
  cases hs with
  | same hs => exact hs.old c hc
  | @name e x hd =>
    refine hd.others c ?_
    rintro rfl
    refine hd.fresh ?_
    rw [Owns, ← ha]
    exact (hd.owns x).2 (.inl rfl)
  | @parent e p hx =>
    refine hx.others c ?_
    rintro rfl
    have hlen := congrArg List.length (hx.parents.symm.trans hp)
    simp at hlen

/-! ## Every store -/

theorem ClassOp.grows (ho : h.ClassOp h') : h.Grows h' := by
  cases ho with
  | step hs => exact hs.grows
  | alloc => exact grows_alloc h _
  | declare hok => exact grows_declare hok
  | ask => exact grows_setMemo h _

theorem Owns.mono (g : h.Grows h') (ho : h.Owns c x) : h'.Owns c x := by
  obtain ⟨s, hs⟩ := exists_slot_of_owns ho
  have hlt : c.index < h.containers.size := by
    by_contra hlt
    rw [container_of_size_le (Nat.not_lt.1 hlt)] at hs
    cases hs
  rw [Owns, OrderedMap.contains, (g.container c hlt).attrs x s hs]
  rfl

/-- What is kept of every class when each operation keeps it. -/
theorem Built.induction_class {P : Heap → ContainerId → Prop}
    (step : ∀ h h' c, h.Built → h.ClassOp h' → (∀ e, (h.container e).isClass = true → P h e) →
      (h'.container c).isClass = true → P h' c)
    (hb : h.Built) (hc : (h.container c).isClass = true) : P h c := by
  induction hb generalizing c with
  | refl => cases hc
  | tail hb ho ih => exact step _ _ c hb ho (fun e he => ih he) hc

theorem Built.nodup_conflicts (hb : h.Built) (hc : (h.container c).isClass = true) :
    (h.conflicts c).Nodup := by
  refine hb.induction_class (P := fun h c => (h.conflicts c).Nodup) ?_ hc
  intro h h' c hb ho ih hc
  rcases (ho.classStep hb.lineal).cases_class hc with ⟨hold, hs⟩ | hnew | ⟨x, hd⟩ | ⟨p, hx⟩
  · rw [hs.conflicts_eq]
    exact ih c hold
  · have hnone : h'.conflicts c = [] := by
      refine List.eq_nil_iff_forall_not_mem.2 ?_
      rintro ⟨d, x⟩ hm
      have hm := mem_losers.2 hm
      rw [(hnew x).1] at hm
      cases hm
    rw [hnone]
    exact List.nodup_nil
  · exact hd.nodup (ih c hd.isClass)
  · exact hx.nodup (ih c hx.isClass)

/-- A class has conflicts about a name only with ancestors that own it. -/
theorem Built.subclass_of_mem_losers (hb : h.Built) (hc : (h.container c).isClass = true)
    (hd : d ∈ h.losers c x) : h.Subclass c d ∧ h.Owns d x := by
  refine hb.induction_class
    (P := fun h c => ∀ d x, d ∈ h.losers c x → h.Subclass c d ∧ h.Owns d x) ?_ hc d x hd
  intro h h' c hb ho ih hc d x hd
  have g := ho.grows
  have hup : ∀ q, q ∈ h'.parents c → ∀ e, h.Subclass q e ∧ h.Owns e x →
      h'.Subclass c e ∧ h'.Owns e x :=
    fun q hq e he => ⟨.head hq (he.1.mono g), he.2.mono g⟩
  have hvia : ∀ e, h.DefinerVia x (h'.parents c) e → h'.Subclass c e ∧ h'.Owns e x := by
    rintro e ⟨q, hq, he⟩
    exact hup q hq e ⟨he.subclass, he.owns⟩
  have hkept : (h.container c).isClass = true → d ∈ h.losers c x →
      h'.Subclass c d ∧ h'.Owns d x := by
    intro hold hm
    obtain ⟨hsub, howns⟩ := ih c hold d x hm
    exact ⟨hsub.mono g, howns.mono g⟩
  rcases (ho.classStep hb.lineal).cases_class hc with ⟨hold, hs⟩ | hnew | ⟨y, hdec⟩ | ⟨p, hx⟩
  · exact hkept hold (hs.losers_eq ▸ hd)
  · rw [(hnew x).1] at hd
    cases hd
  · rcases (hdec.conflicts d x).1 (mem_losers.1 hd) with hm | ⟨rfl, hm⟩
    · exact hkept hdec.isClass (mem_losers.2 hm)
    · exact hvia d (hdec.parents ▸ hm)
  · rcases (hx.conflicts d x).1 (mem_losers.1 hd) with hm | ⟨-, hm⟩ | ⟨hm, -⟩
    · exact hkept hx.isClass (mem_losers.2 hm)
    · exact hvia d (hx.parents ▸ hm)
    · refine hup p ?_ d (ih p hx.parent_isClass d x (mem_losers.2 hm))
      rw [hx.parents]
      exact List.mem_append_right _ List.mem_cons_self

/-! ## Runs of operations -/

/-- Among the classes that an operation leaves alone, no name becomes ambiguous or ceases to be. -/
def KeepsAmbiguity (h h' : Heap) : Prop :=
  ∀ c, (h.container c).isClass = true → (h'.container c).attrs = (h.container c).attrs →
    h'.parents c = h.parents c → ∀ x, h'.Ambiguous c x ↔ h.Ambiguous c x

theorem NoSilentChoice.step_iff (hn : h.NoSilentChoice) (hl : h.Lineal) (hl' : h'.Lineal)
    (hs : ClassStep h h') : h'.NoSilentChoice ↔ h.KeepsAmbiguity h' := by
  have hold : ∀ c x, (h.container c).isClass = true → ¬ h.Owns c x →
      (h.losers c x ≠ [] ↔ h.Ambiguous c x) :=
    fun c x hc ho => (hl.choosesOpenly_iff hc ho).1 (hn c x hc ho)
  constructor
  · intro hn' c hc ha hp x
    have hsame := hs.sameClass hc ha hp
    by_cases ho : h.Owns c x
    · exact ⟨fun ham => absurd (hsame.owns_iff.2 ho) ham.not_owns,
        fun ham => absurd ho ham.not_owns⟩
    · have hc' := hs.isClass hc
      have ho' : ¬ h'.Owns c x := fun ho' => ho (hsame.owns_iff.1 ho')
      rw [← hold c x hc ho, ← hsame.losers_eq]
      exact ((hl'.choosesOpenly_iff hc' ho').1 (hn' c x hc' ho')).symm
  · intro hk c x hc' ho'
    rw [hl'.choosesOpenly_iff hc' ho']
    rcases hs.cases_class hc' with ⟨hc, hsame⟩ | hnew | ⟨y, hd⟩ | ⟨p, hx⟩
    · have ho : ¬ h.Owns c x := fun ho => ho' (hsame.owns_iff.2 ho)
      rw [hsame.losers_eq, hk c hc hsame.attrs hsame.parents_eq x]
      exact hold c x hc ho
    · obtain ⟨hlost, hno⟩ := hnew x
      refine ⟨fun hne => absurd hlost hne, fun ham => ?_⟩
      obtain ⟨d, hd⟩ := ham.exists_definer
      exact absurd hd (hno d)
    · -- what the class declares it owns now, and other names are as before
      have hne : x ≠ y := fun he => ho' ((hd.owns x).2 (.inl he))
      have ho : ¬ h.Owns c x := fun ho => ho' ((hd.owns x).2 (.inr ho))
      rw [ambiguous_congr fun d => hd.definer_iff_of_ne hne, ne_eq, hd.losers_eq hne]
      exact hold c x hd.isClass ho
    · have ho : ¬ h.Owns c x := fun ho => ho' (hx.owns_iff.2 ho)
      exact hx.losers_ne_nil_iff hl ho (hold c x hx.isClass ho) (hold p x hx.parent_isClass)

theorem noSilentChoice_run_iff (hb : h.Built) {run : List Heap}
    (hrun : (h :: run).IsChain ClassOp) :
    (∀ g ∈ h :: run, g.NoSilentChoice) ↔
      h.NoSilentChoice ∧ (h :: run).IsChain KeepsAmbiguity := by
  induction run generalizing h with
  | nil => simp
  | cons h' run ih =>
    rw [List.isChain_cons_cons] at hrun ⊢
    have hb' : h'.Built := Relation.ReflTransGen.tail hb hrun.1
    have hs := hrun.1.classStep hb.lineal
    rw [List.forall_mem_cons, ih hb' hrun.2]
    constructor
    · rintro ⟨hn, hn', hch⟩
      exact ⟨hn, (hn.step_iff hb.lineal hb'.lineal hs).1 hn', hch⟩
    · rintro ⟨hn, hk, hch⟩
      exact ⟨hn, (hn.step_iff hb.lineal hb'.lineal hs).2 hk, hch⟩

/-! ## Stores in which parents do not change -/

/-- No class that is a parent gets a name or a parent. -/
def ParentsKept (h h' : Heap) : Prop :=
  ∀ c p, p ∈ h.parents c →
    (h'.container p).attrs = (h.container p).attrs ∧ h'.parents p = h.parents p

/-- The stores that operations lead to which leave the parents of classes as they are. -/
inductive Orderly : Heap → Prop where
  | empty : Orderly .empty
  | op {h h' : Heap} : Orderly h → h.ClassOp h' → h.ParentsKept h' → Orderly h'

theorem Orderly.built (ho : h.Orderly) : h.Built := by
  induction ho with
  | empty => exact .refl
  | op _ hop _ ih => exact .tail ih hop

/-- Then a class that is left alone itself has the definers that it had. -/
theorem ParentsKept.definer_iff (hk : h.ParentsKept h') (hs : h.SameClass h' c) :
    h'.Definer x c d ↔ h.Definer x c d := by
  refine Definer.congr fun e he => ?_
  rcases Relation.ReflTransGen.cases_tail he with rfl | ⟨b, -, hb⟩
  · exact ⟨hs.owns_iff, hs.parents_eq⟩
  · obtain ⟨ha, hp⟩ := hk b e hb
    exact ⟨by rw [Owns, ha]; rfl, hp⟩

/-- In an orderly store the conflicts of a class are right for every name it does not own. -/
theorem Orderly.recorded (ho : h.Orderly) (hc : (h.container c).isClass = true)
    (hn : ¬ h.Owns c x) : h.Recorded c x := by
  induction ho generalizing c x with
  | empty => cases hc
  | @op h h' ho hop hk ih =>
    have hl := ho.built.lineal
    rcases (hop.classStep hl).cases_class hc with ⟨hold, hs⟩ | hnew | ⟨y, hd⟩ | ⟨p, hx⟩
    · have hdef := fun d => hk.definer_iff (x := x) (d := d) hs
      intro d
      rw [hs.losers_eq, hdef, ambiguous_congr hdef]
      exact ih hold (fun ho => hn (hs.owns_iff.2 ho)) d
    · obtain ⟨hlost, hno⟩ := hnew x
      intro d
      rw [hlost]
      exact ⟨fun hm => (nomatch hm), fun hd => absurd hd.1 (hno d)⟩
    · have hne : x ≠ y := fun he => hn ((hd.owns x).2 (.inl he))
      have hold := ih hd.isClass fun ho => hn ((hd.owns x).2 (.inr ho))
      have hdef := fun d => hd.definer_iff_of_ne (d := d) (e := c) hne
      intro d
      rw [mem_losers, hd.conflicts, hdef, ambiguous_congr hdef, ← hold d, mem_losers]
      simp [hne]
    · have hno : ¬ h.Owns c x := fun ho => hn (hx.owns_iff.2 ho)
      exact hx.recorded hl hno (ih hx.isClass hno) fun hp => ih hx.parent_isClass hp

theorem Orderly.losers_ne_nil_iff (ho : h.Orderly) (hc : (h.container c).isClass = true)
    (hn : ¬ h.Owns c x) : h.losers c x ≠ [] ↔ h.Ambiguous c x := by
  have hrec := ho.recorded hc hn
  constructor
  · intro hlost
    obtain ⟨d, hd⟩ := List.exists_mem_of_ne_nil _ hlost
    exact ((hrec d).1 hd).2
  · intro ha
    obtain ⟨d, hd⟩ := ha.exists_definer
    exact List.ne_nil_of_mem ((hrec d).2 ⟨hd, ha⟩)

/-! ## Qualified names -/

/-- The ancestors of `c` have names that tell them apart from each other and from attributes. -/
structure Qualifiable (h : Heap) (c : ContainerId) : Prop where
  named : ∀ a, a ≠ c → h.Subclass c a → ∃ n, (h.container a).name = some n
  distinct : ∀ a b, a ≠ c → h.Subclass c a → b ≠ c → h.Subclass c b →
    (h.container a).name = (h.container b).name → a = b
  free : ∀ a n, a ≠ c → h.Subclass c a → (h.container a).name = some n →
    ∀ d, h.Subclass c d → ¬ h.Owns d n

theorem Lineal.mem_tail_order (hl : h.Lineal) {a : ContainerId} :
    a ∈ (h.ancestry c).order.tail ↔ a ≠ c ∧ h.Subclass c a := by
  have hs := shallow_of_acyclic hl.acyclic c
  obtain ⟨l, henum, horder⟩ := order_plainAncestry hs
  have hmem := mem_order_plainAncestry (x := a) hs
  rw [hl.order_ancestry c]
  cases henum with
  | cons =>
    rw [List.eraseDups_cons] at horder
    rw [horder, List.mem_cons] at hmem
    rw [horder, List.tail_cons, ← hmem]
    simp only [List.mem_eraseDups, List.mem_filter]
    grind

theorem Lineal.qualifiable_of_order (hl : h.Lineal)
    (hq : ∀ a ∈ (h.ancestry c).order.tail, (h.container a).name.isSome ∧
      (∀ b ∈ (h.ancestry c).order.tail, (h.container a).name = (h.container b).name → a = b) ∧
      ∀ d ∈ c :: (h.ancestry c).order.tail, ¬ h.Owns d (h.nameOf a)) : h.Qualifiable c where
  named a hac hs := Option.isSome_iff_exists.1 (hq a (hl.mem_tail_order.2 ⟨hac, hs⟩)).1
  distinct a b hac hs hbc hbs hab :=
    (hq a (hl.mem_tail_order.2 ⟨hac, hs⟩)).2.1 b (hl.mem_tail_order.2 ⟨hbc, hbs⟩) hab
  free a n hac hs hname d hd := by
    have hfree := (hq a (hl.mem_tail_order.2 ⟨hac, hs⟩)).2.2 d
    rw [nameOf, Container.displayName, hname] at hfree
    refine hfree ?_
    by_cases hdc : d = c
    · exact hdc ▸ List.mem_cons_self
    · exact List.mem_cons_of_mem _ (hl.mem_tail_order.2 ⟨hdc, hd⟩)

/-- The name of an ancestor qualifies, if it is not ambiguous what it names. -/
theorem Orderly.classMember_name (ho : h.Orderly) (hc : (h.container c).isClass = true)
    (hq : h.Qualifiable c) {a : ContainerId} {n : String} (hac : a ≠ c) (hs : h.Subclass c a)
    (hname : (h.container a).name = some n) : h.classMember c n = .ok (.qualifier a) := by
  have hl := ho.built.lineal
  have hfree := hq.free a n hac hs hname
  have hnone : ¬ ∃ d, h.Definer n c d := by
    rintro ⟨d, hd⟩
    exact hfree d hd.subclass hd.owns
  have hlost : h.losers c n = [] := by
    by_contra hlost
    exact hnone ((ho.losers_ne_nil_iff hc (hfree c .refl)).1 hlost).exists_definer
  have hfind : ((h.ancestry c).order.tail.find? fun b => (h.container b).name == some n) =
      some a := by
    cases hb : (h.ancestry c).order.tail.find? fun b => (h.container b).name == some n with
    | none =>
      have hno := List.find?_eq_none.1 hb a (hl.mem_tail_order.2 ⟨hac, hs⟩)
      simp [hname] at hno
    | some b =>
      obtain ⟨hbc, hbs⟩ := hl.mem_tail_order.1 (List.mem_of_find?_eq_some hb)
      have hbn := List.find?_some hb
      rw [beq_iff_eq] at hbn
      rw [hq.distinct a b hac hs hbc hbs (hname.trans hbn.symm)]
  rw [hl.classMember_of_no_definer hc (hfree c .refl) hlost hnone, hfind]

end Heap
end Ditlang
