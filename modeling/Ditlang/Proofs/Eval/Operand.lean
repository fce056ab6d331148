import Ditlang.Proofs.Eval.Reading

/-!
# Ditlang.Proofs.Eval.Operand

What a path leads to is there, and reading and writing there obeys the laws. A member that an instance
inherits is a slot of a class together with the instance it would be copied into, and the name of an
ancestor stands for a class: both come out of lookups in a closed store. A path through JSON has keys, so
that there is always a last one to write to.
-/

namespace Ditlang

def JsonRoot.Valid (h : Heap) : JsonRoot → Prop
  | .slot s => h.HasSlot s
  | .map m => m.index < h.maps.size

def Member.Valid (h : Heap) : Member → Prop
  | .slot s => h.HasSlot s
  | .inherited s i _ => h.HasSlot s ∧ h.IsKind .inst i
  | .qualifier base c => base.Valid h ∧ h.IsKind .cls c

def Operand.Valid (h : Heap) : Operand → Prop
  | .value v => v.Valid h
  | .slot s => h.HasSlot s
  | .member m => m.Valid h
  | .json root _ => root.Valid h

/-- A path through JSON goes at least one key far. -/
def Operand.Led : Operand → Prop
  | .json _ keys => keys ≠ []
  | _ => True

def ClassMember.Valid (h : Heap) : ClassMember → Prop
  | .slot s => h.HasSlot s
  | .qualifier c => h.IsKind .cls c
  | .missing => True

section Mono

variable {h h' : Heap} (g : h.Grows h')

include g

theorem JsonRoot.Valid.mono {r : JsonRoot} (hr : r.Valid h) : r.Valid h' := by
  cases r with
  | slot s => exact Heap.HasSlot.mono g hr
  | map m => exact Nat.lt_of_lt_of_le hr g.maps

theorem Operand.Valid.mono {o : Operand} (ho : o.Valid h) : o.Valid h' := by
  cases o with
  | value v => exact Value.Valid.mono g ho
  | slot s => exact Heap.HasSlot.mono g ho
  | member m =>
    cases m with
    | slot s => exact Heap.HasSlot.mono g ho
    | inherited s i key => exact ⟨Heap.HasSlot.mono g ho.1, Heap.IsKind.mono g ho.2⟩
    | qualifier base c => exact ⟨Value.Valid.mono g ho.1, Heap.IsKind.mono g ho.2⟩
  | json root keys => exact JsonRoot.Valid.mono g ho

end Mono

namespace Heap

variable {h h' : Heap}

/-! ## Members -/

theorem Lineal.isKind_of_mem_order (hl : h.Lineal) {c a : ContainerId} (hc : h.IsKind .cls c)
    (ha : a ∈ (h.ancestry c).order) : h.IsKind .cls a := by
  rw [hl.order_ancestry, mem_order_plainAncestry (shallow_of_acyclic hl.acyclic c)] at ha
  rcases ha.cases_tail with rfl | ⟨b, -, hp⟩
  · exact hc
  · exact isKind_cls_iff.2 (hl.parent_isClass b a hp)

theorem valid_classMember (hr : h.Reachable) {c : ContainerId} (hc : h.IsKind .cls c)
    {name : String} {m : ClassMember} (hm : h.classMember c name = .ok m) : m.Valid h := by
  have hattr : ∀ {d s}, (h.container d).attrs.get? name = some s → h.HasSlot s :=
    fun hs => (hr.closed.container _).attrs.get? hs
  unfold classMember at hm
  split at hm
  · rename_i s hs
    cases hm
    exact hattr hs
  · dsimp only at hm
    split at hm
    · cases hm
    · split at hm
      · rename_i s hs
        cases hm
        obtain ⟨definer, -, hs⟩ := Option.bind_eq_some_iff.1 hs
        exact hattr hs
      · split at hm
        · rename_i a ha
          cases hm
          exact hr.lineal.isKind_of_mem_order hc
            (List.mem_of_mem_tail (List.mem_of_find?_eq_some ha))
        · cases hm
          exact trivial

theorem valid_plainMember (hc : h.Closed) {base : Value} {c : ContainerId} {name : String}
    {m : Member} (hm : h.plainMember base c name = .ok m) : m.Valid h := by
  unfold plainMember at hm
  split at hm
  · rename_i s hs
    cases hm
    exact hc.hasSlot_findLocal? hs
  · cases hm

def QualifierValid (h : Heap) (qualifier : Option ContainerId) : Prop :=
  ∀ c, qualifier = some c → h.IsKind .cls c

theorem QualifierValid.getD {qualifier : Option ContainerId} (hq : h.QualifierValid qualifier)
    {c : ContainerId} (hc : h.IsKind .cls c) : h.IsKind .cls (qualifier.getD c) := by
  cases qualifier with
  | none => exact hc
  | some q => exact hq q rfl

theorem valid_instanceMember (hr : h.Reachable) {i : ContainerId} (hi : h.IsKind .inst i)
    {qualifier : Option ContainerId} (hq : h.QualifierValid qualifier) {name : String} {m : Member}
    (hm : h.instanceMember i qualifier name = .ok m) : m.Valid h := by
  unfold instanceMember at hm
  dsimp only at hm
  split at hm
  · rename_i s hs
    cases hm
    exact (hr.closed.container i).attrs.get? hs
  · split at hm
    · cases hm
    · rename_i cls hcls
      cases hcm : h.classMember (qualifier.getD cls) name with
      | error e =>
        rw [hcm] at hm
        cases hm
      | ok found =>
        have hv := valid_classMember hr (hq.getD (isKind_classOf? hr.closed hcls)) hcm
        rw [hcm] at hm
        cases found with
        | slot s =>
          cases hm
          exact ⟨hv, hi⟩
        | qualifier a =>
          cases hm
          exact ⟨hi, hv⟩
        | missing => cases hm

theorem valid_memberOfClass (hr : h.Reachable) {c : ContainerId} (hc : h.IsKind .cls c)
    {qualifier : Option ContainerId} (hq : h.QualifierValid qualifier) {name : String} {m : Member}
    (hm : h.memberOfClass c qualifier name = .ok m) : m.Valid h := by
  unfold memberOfClass at hm
  dsimp only at hm
  cases hcm : h.classMember (qualifier.getD c) name with
  | error e =>
    rw [hcm] at hm
    cases hm
  | ok found =>
    have hv := valid_classMember hr (hq.getD hc) hcm
    rw [hcm] at hm
    cases found with
    | slot s =>
      cases hm
      exact hv
    | qualifier a =>
      cases hm
      exact ⟨hc, hv⟩
    | missing => cases hm

theorem valid_member (hr : h.Reachable) {base : Value} (hb : base.Valid h)
    {qualifier : Option ContainerId} (hq : h.QualifierValid qualifier) {name : String} {m : Member}
    (hm : h.member base qualifier name = .ok m) : m.Valid h := by
  cases base with
  | ditRef c | langRef c | funcRef c => exact valid_plainMember hr.closed hm
  | classRef c => exact valid_memberOfClass hr hb hq hm
  | instanceRef i => exact valid_instanceMember hr hb hq hm
  | _ => cases hm

theorem isKind_lookupClass? (hc : h.Closed) {base : Value} (hb : base.Valid h)
    {qualifier : Option ContainerId} (hq : h.QualifierValid qualifier) {name : String}
    {c : ContainerId} (hlook : h.lookupClass? base qualifier name = some c) : h.IsKind .cls c := by
  cases base with
  | classRef d =>
    cases hlook
    exact hq.getD hb
  | instanceRef i =>
    unfold lookupClass? at hlook
    dsimp only at hlook
    split at hlook
    · cases hlook
    · obtain ⟨own, ho, rfl⟩ := Option.map_eq_some_iff.1 hlook
      exact hq.getD (isKind_classOf? hc ho)
  | _ => cases hlook

theorem asks_memberAsks (hc : h.Closed) {base : Value} (hb : base.Valid h)
    {qualifier : Option ContainerId} (hq : h.QualifierValid qualifier) (name : String) :
    h.Asks (h.memberAsks base qualifier name) := by
  unfold memberAsks
  split
  · rename_i c hlook
    unfold lookupAsks
    split
    · exact .single (isKind_lookupClass? hc hb hq hlook)
    · exact .nil
  · exact .nil

theorem hasSlot_materialize (hc : h.Closed) (inst : ContainerId) (key : String) (template : SlotId) :
    (h.materialize inst key template).2.HasSlot (h.materialize inst key template).1 := by
  rcases materialize_cases (h := h) inst key template with ⟨s, hs, hm⟩ | ⟨-, hm⟩
  · rw [hm]
    exact (hc.container inst).attrs.get? hs
  · rw [hm]
    simp [HasSlot, newSlot, attach]

/-! ## Paths through JSON -/

theorem valid_readKeys (hc : h.Closed) {v : Value} (hv : v.Valid h) {keys : List String} {w : Value}
    (hw : h.readKeys v keys = .ok w) : w.Valid h := by
  induction keys generalizing v with
  | nil =>
    unfold readKeys at hw
    cases hw
    exact hv
  | cons key keys ih =>
    cases v with
    | jsonRef m =>
      unfold readKeys at hw
      split at hw
      · rename_i u hu
        exact ih ((hc.map m).get? hu) hw
      · cases hw
    | _ => cases hw

theorem valid_rootValue (hc : h.Closed) {root : JsonRoot} (hr : root.Valid h) :
    (h.rootValue root).Valid h := by
  cases root with
  | slot s => exact (hc.slot s).value
  | map m => exact hr

theorem valid_readOperand (hc : h.Closed) {o : Operand} (ho : o.Valid h) {v : Value}
    (hv : h.readOperand o = .ok v) : v.Valid h := by
  cases o with
  | value w =>
    cases hv
    exact ho
  | slot s =>
    cases hv
    exact (hc.slot s).value
  | member m =>
    cases m with
    | slot s | inherited s i key =>
      cases hv
      exact (hc.slot s).value
    | qualifier base c =>
      cases hv
      exact ho.2
  | json root keys => exact valid_readKeys hc (valid_rootValue hc ho) hv

/-- Writing below a JSON map makes maps and puts entries. -/
theorem steps_storeKeys {m : MapId} {last : String} {v : Value} (hv : v.Valid h)
    {keys : List String} (hok : h.storeKeys m last v keys = .ok h') : h.Steps h' := by
  induction keys generalizing h m with
  | nil =>
    cases hok
    exact .single (.putEntry m last hv)
  | cons key keys ih =>
    unfold storeKeys at hok
    split at hok
    · exact ih hv hok
    · have hmap : h.Step (h.newMap .empty).2 := .newMap (.empty _)
      have hput : (h.newMap .empty).2.Step
          ((h.newMap .empty).2.putEntry m key (.jsonRef (h.newMap .empty).1)) :=
        .putEntry m key (by simp [Value.Valid, newMap])
      have hsteps : h.Steps _ := (Relation.ReflTransGen.single hmap).tail hput
      exact hsteps.trans (ih (hv.mono hsteps.grows) hok)
    · cases hok

end Heap

namespace Eval

variable {L : Law} {h : Heap}

theorem obeys_read {o : Operand} (ho : o.Valid h) :
    Obeys L h (read o) fun h' v => h' = h ∧ v.Valid h := by
  unfold read
  refine .of_reachable fun hr => .bind_heap ?_
  split
  · rename_i v hv
    exact .pure ⟨rfl, Heap.valid_readOperand hr.closed ho hv⟩
  · exact obeys_curr.bind_same fun _ ht => obeys_malformedAt _ ht.loc

theorem obeys_newMap {m : OrderedMap Value} (hm : m.All (Value.Valid h)) :
    Obeys L h (withHeap (·.newMap m)) fun h' i => (Value.jsonRef i).Valid h' := by
  refine (obeys_withHeap (.single (.newMap hm)) (.single (.other rfl))).mono ?_
  rintro _ _ - ⟨rfl, rfl⟩
  simp [Value.Valid, Heap.newMap]

theorem obeys_rootMap {root : JsonRoot} (hroot : root.Valid h) :
    Obeys L h (rootMap root) fun _ _ => True := by
  unfold rootMap
  split
  · exact .pure trivial
  · refine .bind_heap ?_
    split
    · exact .pure trivial
    · refine (obeys_newMap (.empty _)).bind ?_
      intro h' m hh' hm
      exact (obeys_assignSlot (Heap.HasSlot.mono hh'.grows hroot) hm).bind fun _ _ _ _ => .pure trivial

theorem obeys_store {o : Operand} (ho : o.Valid h) (hled : L.lenient ∨ o.Led) {v : Value}
    (hv : v.Valid h) : Obeys L h (store o v) fun _ _ => True := by
  have hassign : ∀ {h' : Heap} {s : SlotId}, h'.HasSlot s → v.Valid h' →
      Obeys L h' (assignSlot s v) fun _ _ => True := fun hs hv =>
    (obeys_assignSlot hs hv).mono fun _ _ _ _ => trivial
  unfold store
  split
  · exact hassign ho hv
  · exact hassign ho hv
  · rename_i s i key
    refine .of_reachable fun hr => ?_
    have hstep : h.Step (h.materialize i key s).2 := .materialize key s ho.2
    refine (obeys_withHeap (.single hstep) (.single (.materialize i key s))).bind ?_
    rintro _ own - ⟨rfl, rfl⟩
    exact hassign (Heap.hasSlot_materialize hr.closed i key s) (hv.mono hstep.grows)
  · rename_i root keys
    refine (obeys_rootMap ho).bind fun h₁ m hh₁ _ => ?_
    split
    · rename_i hnone
      refine obeys_raise ⟨rfl, nofun, hled.imp_right fun hled => ?_⟩
      exact absurd (List.getLast?_eq_none_iff.1 hnone) hled
    · refine .bind_heap ?_
      split
      · rename_i hok
        exact (obeys_setHeap (Heap.steps_storeKeys (hv.mono hh₁.grows) hok)
          (.single (.other (Heap.containers_storeKeys hok)))).mono fun _ _ _ _ => trivial
      · exact obeys_raise (Diagnostic.raisable_typeMismatch _)
  · exact obeys_curr.bind_same fun _ ht => obeys_malformedAt _ ht.loc
  · exact obeys_curr.bind_same fun _ ht => obeys_malformedAt _ ht.loc

end Eval
end Ditlang
