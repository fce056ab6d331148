import Ditlang.Proofs.Heap.Steps

/-!
# Ditlang.Proofs.Heap.Asking

The ancestries that operations ask for, and keep. Only classes are asked about (`Asks`), and keeping
their ancestries changes nothing but the memo. No check answers differently afterwards
(`Lineal.checkValue_warmAll`): it does not matter which of the ancestries that a check asks for are kept,
nor when.
-/

namespace Ditlang
namespace Heap

variable {h h' : Heap}

/-! ## Keeping ancestries -/

theorem warmAll_eq (asked : List ContainerId) :
    h.warmAll asked = { h with memo := (h.warmAll asked).memo } := by
  have hmemo (cs : List ContainerId) : ∀ h : Heap, ∃ memo, h.warmAll cs = { h with memo } := by
    induction cs with
    | nil => exact fun h => ⟨h.memo, rfl⟩
    | cons c cs ih => exact fun h => ih (h.warm c)
  obtain ⟨memo, hm⟩ := hmemo asked h
  rw [hm]

@[simp] theorem containers_warmAll (asked : List ContainerId) :
    (h.warmAll asked).containers = h.containers := by
  rw [warmAll_eq]

/-- Every one of some containers is a class. -/
def Asks (h : Heap) (asked : List ContainerId) : Prop :=
  ∀ c ∈ asked, h.IsKind .cls c

theorem Asks.nil : h.Asks [] :=
  fun _ hc => (List.not_mem_nil hc).elim

theorem Asks.single {c : ContainerId} (hc : h.IsKind .cls c) : h.Asks [c] := by
  rintro _ (_ | ⟨_, ⟨⟩⟩)
  exact hc

theorem Asks.steps {asked : List ContainerId} (ha : h.Asks asked) : h.Steps (h.warmAll asked) := by
  induction asked generalizing h with
  | nil => exact .refl
  | cons c cs ih =>
    obtain ⟨hc, hcs⟩ := List.forall_mem_cons.1 ha
    have htail : (h.warm c).Asks cs := hcs
    exact .head (.warm hc) (ih htail)

/-! ## What is asked about -/

/-- The class whose ancestry the lookup of a member takes into account. -/
def memberAsks (h : Heap) (base : Value) (qualifier : Option ContainerId) (name : String) :
    List ContainerId :=
  match h.lookupClass? base qualifier name with
  | some c => h.lookupAsks c name
  | none => []

theorem warmMember_eq (base : Value) (qualifier : Option ContainerId) (name : String) :
    h.warmMember base qualifier name = h.warmAll (h.memberAsks base qualifier name) := by
  unfold warmMember memberAsks
  cases h.lookupClass? base qualifier name <;> rfl

theorem isKind_classOf? (hc : h.Closed) {i cls : ContainerId} (hi : h.classOf? i = some cls) :
    h.IsKind .cls cls := by
  have hv := (hc.container i).kind
  unfold classOf? at hi
  split at hi
  · rename_i c hk
    cases hi
    rw [hk] at hv
    exact hv
  · cases hi

theorem asks_asksSubclass {c : ContainerId} (hc : h.IsKind .cls c) (ancestor : ContainerId) :
    h.Asks (asksSubclass c ancestor) := by
  unfold asksSubclass
  split
  · exact .nil
  · exact .single hc

theorem asks_scalarAsks (hc : h.Closed) (v : Value) (ty : TypeSpec) : h.Asks (h.scalarAsks v ty) := by
  unfold scalarAsks
  split
  · split
    · rename_i own ho
      exact asks_asksSubclass (isKind_classOf? hc ho) _
    · exact .nil
  · exact .nil

theorem asks_elemAsks {sub : TypeSpec} (hs : sub.Valid h) (sup : TypeSpec) :
    h.Asks (elemAsks sub sup) := by
  unfold elemAsks
  split
  · exact asks_asksSubclass hs _
  · exact .nil

theorem asks_listAsks (hc : h.Closed) (elem : TypeSpec) (n : Nat) (l : ListId) :
    h.Asks (h.listAsks elem n l) := by
  induction n generalizing l with
  | zero => exact .nil
  | succ n ih =>
    have hown : h.Asks (if (h.list l).elem = .thing then [] else elemAsks (h.list l).elem elem) := by
      split
      · exact .nil
      · exact asks_elemAsks (hc.list l).elem _
    rw [listAsks]
    dsimp only
    split
    · exact .nil
    · split
      · exact hown
      · refine List.forall_mem_append.2 ⟨hown, fun c hasked => ?_⟩
        obtain ⟨item, -, hitem⟩ := List.mem_flatMap.1 hasked
        split at hitem
        · exact ih _ c hitem
        · exact asks_scalarAsks hc _ _ c hitem

theorem asks_checkAsks (hc : h.Closed) (v : Value) (d : Declared) : h.Asks (h.checkAsks v d) := by
  unfold checkAsks
  split
  · exact .nil
  · split
    · exact asks_listAsks hc _ _ _
    · exact .nil
    · exact .nil
    · exact asks_scalarAsks hc _ _

theorem asks_assignAsks (hc : h.Closed) (s : SlotId) (v : Value) : h.Asks (h.assignAsks s v) := by
  unfold assignAsks
  dsimp only
  split
  · exact .nil
  · exact asks_checkAsks hc _ _

theorem asks_appendAsks (hc : h.Closed) (l : ListId) (v : Value) : h.Asks (h.appendAsks l v) := by
  unfold appendAsks
  dsimp only
  split
  · exact .nil
  · split
    · exact asks_listAsks hc _ _ _
    · exact asks_scalarAsks hc _ _

/-! ## Writes that keep what they asked for -/

theorem steps_assign (hc : h.Closed) {s : SlotId} (hs : h.HasSlot s) {v : Value} (hv : v.Valid h)
    (hok : h.assign s v = .ok h') : h.Steps (h'.warmAssign s v) := by
  have hassign : h.Step h' := .assign hs hv hok
  exact .head hassign (asks_assignAsks (hassign.closed hc) s v).steps

theorem steps_append (hc : h.Closed) {l : ListId} {v : Value} (hv : v.Valid h)
    (hok : h.append l v = .ok h') : h.Steps (h'.warmAppend l v) := by
  have happend : h.Step h' := .append hv hok
  exact .head happend (asks_appendAsks (happend.closed hc) l v).steps

/-- Nothing is asked about a JSON value. -/
theorem warmAssign_jsonRef (s : SlotId) (m : MapId) : h.warmAssign s (.jsonRef m) = h := by
  have hscalar (ty : TypeSpec) : h.scalarAsks (.jsonRef m) ty = [] := by
    cases ty <;> rfl
  have hnone (d : Declared) : h.checkAsks (.jsonRef m) d = [] := by
    unfold checkAsks
    split
    · rfl
    · cases d.list
      · exact hscalar d.ty
      · rfl
  rw [warmAssign, assignAsks, hnone, ite_self]
  rfl

/-! ## Checks do not answer differently -/

section Warmed

variable (hl : h.Lineal) {asked : List ContainerId} (ha : h.Asks asked)

include hl ha

theorem Lineal.isSubclass_warmAll (c ancestor : ContainerId) :
    (h.warmAll asked).isSubclass c ancestor = h.isSubclass c ancestor := by
  have hsame : (h.warmAll asked).Subclass c ancestor ↔ h.Subclass c ancestor := by
    rw [warmAll_eq]
    rfl
  rw [Bool.eq_iff_iff, (ha.steps.lineal hl).isSubclass_iff, hl.isSubclass_iff, hsame]

theorem Lineal.scalarFits_warmAll (v : Value) (ty : TypeSpec) :
    (h.warmAll asked).scalarFits v ty = h.scalarFits v ty := by
  have hclass (i : ContainerId) : (h.warmAll asked).classOf? i = h.classOf? i := by
    rw [warmAll_eq]
    rfl
  unfold scalarFits
  simp only [hclass, hl.isSubclass_warmAll ha]

theorem Lineal.elemFits_warmAll (sub sup : TypeSpec) :
    (h.warmAll asked).elemFits sub sup = h.elemFits sub sup := by
  unfold elemFits
  simp only [hl.isSubclass_warmAll ha]

omit hl ha in
theorem typeLabel_warmAll (ty : TypeSpec) : (h.warmAll asked).typeLabel ty = h.typeLabel ty := by
  rw [warmAll_eq]
  rfl

omit hl ha in
theorem valueLabel_warmAll (v : Value) : (h.warmAll asked).valueLabel v = h.valueLabel v := by
  rw [warmAll_eq]
  rfl

theorem Lineal.listMismatch?_warmAll (elem : TypeSpec) (n : Nat) (l : ListId) :
    (h.warmAll asked).listMismatch? elem n l = h.listMismatch? elem n l := by
  have hlist (l : ListId) : (h.warmAll asked).list l = h.list l := by
    rw [warmAll_eq]
    rfl
  induction n generalizing l with
  | zero => rfl
  | succ n ih =>
    rw [listMismatch?, listMismatch?]
    simp only [hlist, ih, hl.elemFits_warmAll ha, hl.scalarFits_warmAll ha, typeLabel_warmAll,
      valueLabel_warmAll]

/-- A check answers the same, whatever ancestries have been kept. -/
theorem Lineal.checkValue_warmAll (v : Value) (d : Declared) :
    (h.warmAll asked).checkValue v d = h.checkValue v d := by
  have hsize : (h.warmAll asked).lists.size = h.lists.size := by
    rw [warmAll_eq]
  have hlabel : (h.warmAll asked).declaredLabel d = h.declaredLabel d := by
    rw [warmAll_eq]
    rfl
  unfold checkValue checkList
  simp only [hsize, hlabel, hl.listMismatch?_warmAll ha, hl.scalarFits_warmAll ha,
    valueLabel_warmAll]

end Warmed

end Heap
end Ditlang
