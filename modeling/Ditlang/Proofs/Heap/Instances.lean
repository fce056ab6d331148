import Ditlang.Proofs.Heap.Conflicts
import Ditlang.Proofs.Heap.Writes

/-!
# Ditlang.Proofs.Heap.Instances

Instances read what they do not have from their class, and a write goes to a slot of their own. Two
facts keep a write to one of them away from classes and from other instances: the slots that are found
on those are not its own (`Reachable.not_own_of_member`), and they are found as before
(`Confined.member_eq`), since nothing but the attributes of the one instance has changed.
-/

namespace Ditlang

/-- The slot that a member is read from. -/
def Member.slot? : Member → Option SlotId
  | .slot s | .inherited s _ _ => some s
  | .qualifier _ _ => none

namespace Heap

variable {h h' : Heap} {c d i : ContainerId} {x : String} {us : SlotId → Prop} {ws : MapId → Prop}

/-! ## Where members are found -/

theorem Lineal.isClass_of_subclass (hl : h.Lineal) (hc : (h.container c).isClass = true)
    (hs : h.Subclass c d) : (h.container d).isClass = true := by
  rcases hs.cases_tail with rfl | ⟨b, -, hp⟩
  · exact hc
  · exact hl.parent_isClass b d hp

/-- A slot that is found on a class is an attribute of a class. -/
theorem Lineal.owner_of_classMember (hl : h.Lineal) (hc : (h.container c).isClass = true)
    {s : SlotId} (hs : h.classMember c x = .ok (.slot s)) :
    ∃ d, (h.container d).isClass = true ∧ (h.container d).attrs.get? x = some s := by
  by_cases ho : h.Owns c x
  · obtain ⟨t, ht⟩ := exists_slot_of_owns ho
    rw [classMember_of_get? ht] at hs
    cases hs
    exact ⟨c, hc, ht⟩
  · obtain ⟨-, d, hd, ht⟩ := hl.definer_of_classMember hc ho hs
    exact ⟨d, hl.isClass_of_subclass hc hd.subclass, ht⟩

/-- What a lookup on an instance finds: a slot of its own, or one that it inherits. -/
theorem instanceMember_cases {q : Option ContainerId} {m : Member} {s : SlotId}
    (hm : h.instanceMember i q x = .ok m) (hs : m.slot? = some s) :
    (m = .slot s ∧ (h.container i).attrs.get? (h.memberKey q x) = some s) ∨
    ((h.container i).attrs.get? (h.memberKey q x) = none ∧ m = .inherited s i (h.memberKey q x) ∧
      ∃ cls, h.classOf? i = some cls ∧ h.classMember (q.getD cls) x = .ok (.slot s)) := by
  unfold instanceMember at hm
  dsimp only at hm
  split at hm
  · rename_i t ht
    cases hm
    cases hs
    exact .inl ⟨rfl, ht⟩
  · rename_i hnone
    split at hm
    · cases hm
    · rename_i cls hcls
      cases hcm : h.classMember (q.getD cls) x with
      | error e =>
        rw [hcm] at hm
        cases hm
      | ok found =>
        rw [hcm] at hm
        cases found with
        | slot t =>
          cases hm
          cases hs
          exact .inr ⟨hnone, rfl, cls, hcls, hcm⟩
        | qualifier a =>
          cases hm
          cases hs
        | missing => cases hm

theorem memberOfClass_cases {q : Option ContainerId} {m : Member} {s : SlotId}
    (hm : h.memberOfClass c q x = .ok m) (hs : m.slot? = some s) :
    m = .slot s ∧ h.classMember (q.getD c) x = .ok (.slot s) := by
  unfold memberOfClass at hm
  dsimp only at hm
  cases hcm : h.classMember (q.getD c) x with
  | error e =>
    rw [hcm] at hm
    cases hm
  | ok found =>
    rw [hcm] at hm
    cases found with
    | slot t =>
      cases hm
      cases hs
      exact ⟨rfl, rfl⟩
    | qualifier a =>
      cases hm
      cases hs
    | missing => cases hm

theorem IsKind.not_isClass (hi : h.IsKind .inst i) : ¬ (h.container i).isClass = true := by
  intro hcls
  rw [IsKind] at hi
  rw [← isKind_cls_iff, IsKind, hi] at hcls
  cases hcls

/-- The key of a member is what it was, if the class that qualifies it has the name it had. -/
theorem memberKey_congr {q : Option ContainerId} (hq : ∀ a, q = some a → h'.nameOf a = h.nameOf a)
    (x : String) : h'.memberKey q x = h.memberKey q x := by
  cases q with
  | none => rfl
  | some a => rw [memberKey, memberKey, hq a rfl]

/-- A class, or an instance other than `i`. -/
def OtherThan (i : ContainerId) : Value → Prop
  | .classRef _ => True
  | .instanceRef j => j ≠ i
  | _ => False

/-- The slots that are found on classes and on other instances are not those of an instance. -/
theorem Reachable.not_own_of_member (hr : h.Reachable) (hi : h.IsKind .inst i) {base : Value}
    (hother : OtherThan i base) (hb : base.Valid h) {q : Option ContainerId}
    (hq : h.QualifierValid q) {m : Member} (hm : h.member base q x = .ok m) {s : SlotId}
    (hs : m.slot? = some s) (key : String) : (h.container i).attrs.get? key ≠ some s := by
  intro hown
  have hkind : ∀ d, (h.container d).isClass = true → d ≠ i := by
    rintro d hd rfl
    exact hi.not_isClass hd
  have hclass : ∀ c, h.IsKind .cls c → h.classMember (q.getD c) x ≠ .ok (.slot s) := by
    intro c hc hcm
    obtain ⟨d, hd, hds⟩ := hr.lineal.owner_of_classMember (isKind_cls_iff.1 (hq.getD hc)) hcm
    exact hkind d hd (hr.ownedOnce d i x key s hds hown)
  cases base with
  | classRef c => exact hclass c hb (memberOfClass_cases hm hs).2
  | instanceRef j =>
    obtain ⟨-, hj⟩ | ⟨-, -, cls, hcls, hcm⟩ := instanceMember_cases hm hs
    · exact hother (hr.ownedOnce j i _ key s hj hown)
    · exact hclass cls (isKind_classOf? hr.closed hcls) hcm
  | _ => exact hother

/-! ## Members are found as before -/

section

variable (hc : h.Confined h' i us ws) (hl : h.Lineal) (hl' : h'.Lineal) (hi : h.IsKind .inst i)

include hc hi

theorem Confined.container_of_isClass (hd : (h.container d).isClass = true) :
    h'.container d = h.container d := by
  refine hc.container d (lt_size_of_isClass hd) ?_
  rintro rfl
  exact hi.not_isClass hd

theorem Confined.memberKey_eq {q : Option ContainerId} (hq : h.QualifierValid q) (x : String) :
    h'.memberKey q x = h.memberKey q x := by
  refine memberKey_congr (fun a ha => ?_) x
  rw [nameOf, nameOf, hc.container_of_isClass hi (isKind_cls_iff.1 (hq a ha))]

theorem Confined.parents_eq (d : ContainerId) : h'.parents d = h.parents d := by
  by_cases hd : (h.container d).isClass = true
  · exact parents_of_kind (by rw [hc.container_of_isClass hi hd])
  · rw [parents_of_not_isClass hd, parents_of_not_isClass fun hd' => hd (hc.isClass d hd')]

include hl hl'

theorem Confined.ancestry_eq (hd : (h.container d).isClass = true) :
    h'.ancestry d = h.ancestry d := by
  have hd' : (h'.container d).isClass = true := by rw [hc.container_of_isClass hi hd, hd]
  rw [hl.ancestry_eq hd, hl'.ancestry_eq hd',
    plainAncestry_congr hl.parent_isClass (hc.parents_eq hi)
      (fun e he => by rw [hc.container_of_isClass hi he]) _ d hd]
  exact plainAncestry_of_shallow (shallow_of_acyclic hl.acyclic d)
    (Nat.succ_le_succ hc.grows.containers)

/-- What is inherited without ambiguity is what it was. -/
theorem Confined.inherited_eq (hd : (h.container d).isClass = true) (x : String) :
    (((h'.ancestry d).definers.definersOf x).head?.bind fun e => (h'.container e).attrs.get? x) =
      ((h.ancestry d).definers.definersOf x).head?.bind
        fun e => (h.container e).attrs.get? x := by
  rw [hc.ancestry_eq hl hl' hi hd]
  refine Option.bind_congr fun e he => ?_
  have hdef := (hl.mem_definers_iff hd).1 (List.mem_of_mem_head? he)
  rw [hc.container_of_isClass hi (hl.isClass_of_subclass hd hdef.subclass)]

/-- A slot that is found on a class is found there as before. -/
theorem Confined.classMember_eq (hd : (h.container d).isClass = true) {s : SlotId}
    (hs : h.classMember d x = .ok (.slot s)) : h'.classMember d x = .ok (.slot s) := by
  have hsame := hc.container_of_isClass hi hd
  have howns : h'.Owns d x ↔ h.Owns d x := (SameClass.of_container hsame).owns_iff
  by_cases ho : h.Owns d x
  · obtain ⟨t, ht⟩ := exists_slot_of_owns ho
    rw [classMember_of_get? ht] at hs
    cases hs
    exact classMember_of_get? (by rw [hsame, ht])
  · obtain ⟨hlost, -⟩ := hl.definer_of_classMember hd ho hs
    have hlost' : h'.losers d x = [] := by rw [(SameClass.of_container hsame).losers_eq, hlost]
    rw [classMember_of_losers_nil ho hlost] at hs
    rw [classMember_of_losers_nil (mt howns.1 ho) hlost', hc.inherited_eq hl hl' hi hd]
    split at hs
    · rw [hs]
    · split at hs <;> cases hs

/-- A slot that is found on a class or on another instance is found there as before. -/
theorem Confined.member_eq (hh : h.Closed) {base : Value} (hother : OtherThan i base)
    (hb : base.Valid h) {q : Option ContainerId} (hq : h.QualifierValid q) {m : Member}
    (hm : h.member base q x = .ok m) {s : SlotId} (hs : m.slot? = some s) :
    h'.member base q x = .ok m := by
  have hclass : ∀ c, h.IsKind .cls c → h.classMember (q.getD c) x = .ok (.slot s) →
      h'.classMember (q.getD c) x = .ok (.slot s) :=
    fun c hc' => hc.classMember_eq hl hl' hi (isKind_cls_iff.1 (hq.getD hc'))
  cases base with
  | classRef c =>
    obtain ⟨rfl, hcm⟩ := memberOfClass_cases hm hs
    change h'.memberOfClass c q x = _
    rw [memberOfClass, hclass c hb hcm]
    rfl
  | instanceRef j =>
    have hj : h'.container j = h.container j := hc.container j hb.lt_size hother
    have hkey : h'.memberKey q x = h.memberKey q x := hc.memberKey_eq hi hq x
    change h'.instanceMember j q x = _
    obtain ⟨rfl, hown⟩ | ⟨hnone, rfl, cls, hcls, hcm⟩ := instanceMember_cases hm hs
    · rw [instanceMember, hkey, hj, hown]
    · have hcls' : h'.classOf? j = some cls := by
        rw [← hcls, classOf?, classOf?, hj]
      rw [instanceMember, hkey, hj, hnone, hcls']
      dsimp only
      rw [hclass cls (isKind_classOf? hh hcls) hcm]
      rfl
  | _ => exact hother.elim

end

end Heap
end Ditlang
