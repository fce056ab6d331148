import Mathlib.Data.List.Find
import Ditlang.Proofs.Heap.Assignability
import Ditlang.Proofs.Heap.Assignment
import Ditlang.Proofs.Heap.Instances
import Ditlang.Proofs.Heap.SlotNames

/-!
# Ditlang.Proofs.Heap.InstanceWrites

A write to a member of an instance. The instance gets a slot of its own under the key of the member,
if it has none yet, and the value is assigned to that slot (`Materialized`). Classes stay as they
are, and lookups on other instances, and on the same instance under other keys, give what they gave
before, a refusal as well as a slot (`OnlyMember`); and the member itself is found in the slot from
then on, whatever is written to attributes of classes (`member_own_of_classWrites`).
-/

namespace Ditlang
namespace Heap

variable {h h' g : Heap} {c d i j : ContainerId} {x y key : String} {s t own : SlotId}
  {us : SlotId → Prop} {ws : MapId → Prop}

/-! ## Lookups that nothing has happened to -/

section

variable (hc : h.Confined h' i us ws) (hl : h.Lineal) (hl' : h'.Lineal) (hi : h.IsKind .inst i)

include hc hi

theorem Confined.nameOf_eq (hd : (h.container d).isClass = true) : h'.nameOf d = h.nameOf d := by
  rw [nameOf, nameOf, hc.container_of_isClass hi hd]

include hl hl'

/-- What is found on a class, or keeps it from being found, is what it was. -/
theorem Confined.classMember_same (hb : h.Built) (hd : (h.container d).isClass = true)
    (x : String) : h'.classMember d x = h.classMember d x := by
  have hsame := SameClass.of_container (hc.container_of_isClass hi hd)
  have hup : ∀ e, h.Subclass d e → h'.container e = h.container e := fun e he =>
    hc.container_of_isClass hi (hl.isClass_of_subclass hd he)
  by_cases ho : h.Owns d x
  · obtain ⟨t, ht⟩ := exists_slot_of_owns ho
    rw [classMember_of_get? ht, classMember_of_get? (hsame.attrs.symm ▸ ht)]
  · have ho' : ¬ h'.Owns d x := mt hsame.owns_iff.1 ho
    by_cases hlost : h.losers d x = []
    · have hlost' : h'.losers d x = [] := hsame.losers_eq.trans hlost
      have hnamed : ((h.ancestry d).order.tail.find? fun a => (h'.container a).name == some x) =
          (h.ancestry d).order.tail.find? fun a => (h.container a).name == some x := by
        refine List.find?_congr fun a ha => ?_
        rw [hup a (hl.mem_tail_order.1 ha).2]
      rw [classMember_of_losers_nil ho hlost, classMember_of_losers_nil ho' hlost',
        hc.inherited_eq hl hl' hi hd, hc.ancestry_eq hl hl' hi hd, hnamed]
    · rw [classMember_of_losers ho hlost, classMember_of_losers ho' (hsame.losers_eq.symm ▸ hlost),
        hsame.losers_eq, hc.nameOf_eq hi hd]
      have hnames : (h.losers d x).map h'.nameOf = (h.losers d x).map h.nameOf := by
        refine List.map_congr_left fun e he => ?_
        rw [nameOf, nameOf, hup e (hb.subclass_of_mem_losers hd he).1]
      rw [hnames]

/-- What is found on an instance, or keeps it from being found, is what it was, if the instance has
under the key what it had. -/
theorem Confined.instanceMember_same (hr : h.Reachable) {q : Option ContainerId}
    (hq : h.QualifierValid q)
    (hattr : (h'.container j).attrs.get? (h.memberKey q x) =
      (h.container j).attrs.get? (h.memberKey q x))
    (hkind : (h'.container j).kind = (h.container j).kind)
    (hname : (h'.container j).name = (h.container j).name) :
    h'.member (.instanceRef j) q x = h.member (.instanceRef j) q x := by
  change h'.instanceMember j q x = h.instanceMember j q x
  have hcls : h'.classOf? j = h.classOf? j := by rw [classOf?, classOf?, hkind]
  rw [instanceMember, instanceMember, hc.memberKey_eq hi hq, hattr, hcls]
  split
  · rfl
  · cases hown : h.classOf? j with
    | none =>
      dsimp only
      rw [nameOf, nameOf, Container.displayName, Container.displayName, hname]
    | some cls =>
      have hkind := isKind_classOf? hr.closed hown
      dsimp only
      rw [hc.classMember_same hl hl' hi hr.built (isKind_cls_iff.1 (hq.getD hkind)) x,
        hc.nameOf_eq hi (isKind_cls_iff.1 hkind)]

end

/-! ## The slot of its own -/

/-- From `h` to `g` instance `i` has got slot `own` under a key, a copy of slot `t` if it had none, and
nothing else has changed. -/
structure Materialized (h g : Heap) (i : ContainerId) (key : String) (t own : SlotId) : Prop where
  confined : h.Confined g i (fun _ => False) fun _ => False
  lists : g.lists = h.lists
  kind : (g.container i).kind = (h.container i).kind
  name : (g.container i).name = (h.container i).name
  attr : (g.container i).attrs.get? key = some own
  others : ∀ other, other ≠ key →
    (g.container i).attrs.get? other = (h.container i).attrs.get? other
  slot : g.slot own = { h.slot t with name := key }

/-- The slot of a member is made the instance's own by materializing it, also if it is that already. -/
theorem materialized_of_member (hr : h.Reachable) (hi : h.IsKind .inst i)
    {q : Option ContainerId} {m : Member} (hm : h.member (.instanceRef i) q x = .ok m)
    (ht : m.slot? = some t) :
    h.Materialized (h.materialize i (h.memberKey q x) t).2 i (h.memberKey q x) t
      (h.materialize i (h.memberKey q x) t).1 := by
  rcases materialize_cases (h := h) i (h.memberKey q x) t with ⟨s, hs, he⟩ | ⟨hnew, he⟩
  · rw [he]
    obtain ⟨-, hown⟩ | ⟨hnone, -, -⟩ := instanceMember_cases hm ht
    · cases hs.symm.trans hown
      refine ⟨.refl h i _ _, rfl, rfl, rfl, hs, fun _ _ => rfl, ?_⟩
      rw [← hr.named i _ _ hs]
    · cases hs.symm.trans hnone
  · have hconfined : h.Confined (h.materialize i (h.memberKey q x) t).2 i (fun _ => False)
        fun _ => False := confined_materialize _ t
    rw [he] at hconfined ⊢
    have hcontainer : ((h.newSlot { h.slot t with name := h.memberKey q x }).2.attach i
        (h.memberKey q x) ⟨h.slots.size⟩).container i =
        { h.container i with
          attrs := (h.container i).attrs.insert (h.memberKey q x) ⟨h.slots.size⟩ } := by
      rw [attach, container_modifyContainer, if_pos ⟨rfl, hi.lt_size⟩]
      rfl
    refine ⟨hconfined, rfl, by rw [hcontainer], by rw [hcontainer], ?_, fun other hne => ?_, ?_⟩
    · rw [hcontainer]
      exact (OrderedMap.get?_insert ..).trans (if_pos rfl)
    · rw [hcontainer]
      exact (OrderedMap.get?_insert ..).trans (if_neg hne)
    · exact (slot_newSlot h _ _).trans (if_pos rfl)

/-! ## Whose slots are found -/

/-- A slot that is found on an instance belongs to it under the key of the member, or to a class. -/
theorem Reachable.owner_of_instanceMember (hr : h.Reachable) {q : Option ContainerId}
    (hq : h.QualifierValid q) {m : Member} (hm : h.member (.instanceRef j) q x = .ok m)
    (hs : m.slot? = some s) :
    (h.container j).attrs.get? (h.memberKey q x) = some s ∨
      ∃ d key, (h.container d).isClass = true ∧ (h.container d).attrs.get? key = some s := by
  obtain ⟨-, hown⟩ | ⟨-, -, cls, hcls, hcm⟩ := instanceMember_cases hm hs
  · exact .inl hown
  · have hkind := isKind_cls_iff.1 (hq.getD (isKind_classOf? hr.closed hcls))
    obtain ⟨d, hd, hds⟩ := hr.lineal.owner_of_classMember hkind hcm
    exact .inr ⟨d, x, hd, hds⟩

/-! ## What a write to a member leaves alone -/

/-- The lookup of a member of an instance gives what it gave, and if that is a slot, it is unchanged and
its value looks as before. -/
def SameMember (h h' : Heap) (j : ContainerId) (q : Option ContainerId) (x : String) : Prop :=
  h'.member (.instanceRef j) q x = h.member (.instanceRef j) q x ∧
    ∀ m s, h.member (.instanceRef j) q x = .ok m → m.slot? = some s →
      h'.slot s = h.slot s ∧ h.LooksSame h' (h.value s)

/-- From `h` to `h'` all classes and their slots are as they were, and so are all members of instances
but the one of instance `i` under a key. -/
structure OnlyMember (h h' : Heap) (i : ContainerId) (key : String) : Prop where
  classes : ∀ c, (h.container c).isClass = true → h'.container c = h.container c
  classSlots : ∀ c x s, (h.container c).isClass = true → (h.container c).attrs.get? x = some s →
    h'.slot s = h.slot s ∧ h.LooksSame h' (h.value s)
  instances : ∀ j, h.IsKind .inst j → j ≠ i → ∀ q, h.QualifierValid q → ∀ x, h.SameMember h' j q x
  keys : ∀ q, h.QualifierValid q → ∀ x, h.memberKey q x ≠ key → h.SameMember h' i q x

namespace Materialized

variable (hi : h.IsKind .inst i) (hm : h.Materialized g i key t own) (hg : g.Reachable)
  (hwrite : g.Confined h' i (· = own) fun _ => False)

include hm hwrite

theorem confined_write : h.Confined h' i (· = own) fun _ => False := by
  have hcopy : h.Confined g i (· = own) fun _ => False :=
    { hm.confined with slot := fun s hs _ => hm.confined.slot s hs id }
  exact hcopy.trans hwrite (fun _ _ => id) fun _ _ => id

include hg

/-- The attributes of a container that are not the slot of the instance's own stay as they are. -/
theorem slot_of_attr (hr : h.Reachable) (hne : ¬ (c = i ∧ x = key))
    (hs : (h.container c).attrs.get? x = some s) :
    h'.slot s = h.slot s ∧ h.LooksSame h' (h.value s) := by
  have hconfined := hm.confined_write hwrite
  have hin : h.HasSlot s := (hr.closed.container c).attrs.get? hs
  refine ⟨hconfined.slot s hin ?_, ?_⟩
  · rintro rfl
    -- The container has the slot after the copy as well, and so it is the instance.
    have hlt : c.index < h.containers.size := by
      by_contra hlt
      rw [container_of_size_le (Nat.not_lt.1 hlt)] at hs
      cases hs
    exact hne (hg.attr_unique ((hm.confined.grows.container c hlt).attrs x s hs) hm.attr)
  · exact hconfined.looksSame hr.closed (hr.closed.slot s).value fun _ hw => hw.elim

include hi

theorem sameMember (hr : h.Reachable) (hr' : h'.Reachable) {q : Option ContainerId}
    (hq : h.QualifierValid q) (hne : ¬ (j = i ∧ h.memberKey q x = key))
    (hattr : (h'.container j).attrs.get? (h.memberKey q x) =
      (h.container j).attrs.get? (h.memberKey q x))
    (hkind : (h'.container j).kind = (h.container j).kind)
    (hname : (h'.container j).name = (h.container j).name) : h.SameMember h' j q x := by
  have hconfined := hm.confined_write hwrite
  refine ⟨?_, fun m s hfound hs => ?_⟩
  · exact hconfined.instanceMember_same hr.lineal hr'.lineal hi hr hq hattr hkind hname
  · rcases hr.owner_of_instanceMember hq hfound hs with hown | ⟨d, y, hd, hds⟩
    · exact hm.slot_of_attr hg hwrite hr hne hown
    · refine hm.slot_of_attr hg hwrite hr ?_ hds
      rintro ⟨rfl, -⟩
      exact hi.not_isClass hd

/-- A write to the slot of its own is seen nowhere else. -/
theorem onlyMember (hr : h.Reachable) (hr' : h'.Reachable)
    (hkept : h'.container i = g.container i) : h.OnlyMember h' i key := by
  have hconfined := hm.confined_write hwrite
  refine ⟨fun c => hconfined.container_of_isClass hi, ?_, ?_, ?_⟩
  · intro c x s hc hs
    refine hm.slot_of_attr hg hwrite hr ?_ hs
    rintro ⟨rfl, -⟩
    exact hi.not_isClass hc
  · intro j hj hji q hq x
    have hsame := hconfined.container j hj.lt_size hji
    exact hm.sameMember hi hg hwrite hr hr' hq (fun he => hji he.1) (by rw [hsame])
      (by rw [hsame]) (by rw [hsame])
  · intro q hq x hkey
    refine hm.sameMember hi hg hwrite hr hr' hq (fun he => hkey he.2) ?_ ?_ ?_
    · rw [hkept, hm.others _ hkey]
    · rw [hkept, hm.kind]
    · rw [hkept, hm.name]

end Materialized

/-- From `h` to `h'` something has been written to a member of instance `i`: slot `own` is its own under
the key, and nothing else has changed. -/
structure Written (h h' : Heap) (i : ContainerId) (key : String) (own : SlotId) : Prop where
  reachable : h'.Reachable
  grows : h.Grows h'
  attr : (h'.container i).attrs.get? key = some own
  only : h.OnlyMember h' i key

theorem Materialized.written (hm : h.Materialized g i key t own) (hr : h.Reachable)
    (hi : h.IsKind .inst i) (hg : g.Reachable) (hr' : h'.Reachable)
    (hwrite : g.Confined h' i (· = own) fun _ => False)
    (hkept : h'.container i = g.container i) : h.Written h' i key own :=
  ⟨hr', hm.confined.grows.trans hwrite.grows, hkept ▸ hm.attr,
    hm.onlyMember hi hg hwrite hr hr' hkept⟩

theorem Written.memberKey_eq (hw : h.Written h' i key own) {q : Option ContainerId}
    (hq : h.QualifierValid q) (x : String) : h'.memberKey q x = h.memberKey q x := by
  refine memberKey_congr (fun a ha => ?_) x
  rw [nameOf, nameOf, hw.only.classes a (isKind_cls_iff.1 (hq a ha))]

/-- The slot of its own is found by every lookup that asks for its key. -/
theorem Written.member_eq (hw : h.Written h' i key own) {q : Option ContainerId}
    (hq : h.QualifierValid q) (hkey : h.memberKey q x = key) :
    h'.member (.instanceRef i) q x = .ok (.slot own) := by
  change h'.instanceMember i q x = _
  rw [instanceMember, hw.memberKey_eq hq, hkey, hw.attr]

/-! ## What is read back -/

/-- A write to an attribute of a class, or of an entry into a JSON map, with the making of the map. -/
inductive ClassWrite (h : Heap) : Heap → Prop where
  | assign {c : ContainerId} {x : String} {s : SlotId} {v : Value} {h' : Heap} :
      (h.container c).isClass = true → (h.container c).attrs.get? x = some s → v.Valid h →
      h.assign s v = .ok h' → ClassWrite h h'
  | putEntry (m : MapId) (key : String) {v : Value} : v.Valid h → ClassWrite h (h.putEntry m key v)
  | newMap : ClassWrite h (h.newMap .empty).2

theorem ClassWrite.step (hw : h.ClassWrite h') (hc : h.Closed) : h.Step h' := by
  cases hw with
  | @assign c _ _ _ _ _ hs hv hok => exact .assign ((hc.container c).attrs.get? hs) hv hok
  | putEntry m key hv => exact .putEntry m key hv
  | newMap => exact .newMap (.empty _)

theorem ClassWrite.container_eq (hw : h.ClassWrite h') (hc : h.Closed)
    (hlt : c.index < h.containers.size) : h'.container c = h.container c := by
  cases hw with
  | @assign d _ _ _ _ _ hs _ hok =>
    exact (onlySlot_assign hc ((hc.container d).attrs.get? hs) hok).container c hlt
  | putEntry => rfl
  | newMap => rfl

theorem ClassWrite.slot_eq (hw : h.ClassWrite h') (hr : h.Reachable) (hi : h.IsKind .inst i)
    (hown : (h.container i).attrs.get? key = some own) : h'.slot own = h.slot own := by
  cases hw with
  | @assign d _ s _ _ hd hs _ hok =>
    have hin := (hr.closed.container d).attrs.get? hs
    refine (onlySlot_assign hr.closed hin hok).slot own ((hr.closed.container i).attrs.get? hown) ?_
    rintro rfl
    obtain ⟨rfl, -⟩ := hr.attr_unique hown hs
    exact hi.not_isClass hd
  | putEntry => rfl
  | newMap => rfl

/-- A slot of an instance is found under its key, and holds what it holds, after any writes to
attributes of classes. -/
theorem member_own_of_classWrites (hr : h.Reachable) (hi : h.IsKind .inst i)
    {q : Option ContainerId} (hq : h.QualifierValid q)
    (hown : (h.container i).attrs.get? (h.memberKey q x) = some own)
    (hw : Relation.ReflTransGen ClassWrite h h') :
    h'.member (.instanceRef i) q x = .ok (.slot own) ∧ h'.slot own = h.slot own := by
  have hkept : h'.Reachable ∧ h.Grows h' ∧ h'.slot own = h.slot own ∧
      ∀ c, c.index < h.containers.size → h'.container c = h.container c := by
    induction hw with
    | refl => exact ⟨hr, .refl h, rfl, fun _ _ => rfl⟩
    | tail _ hw ih =>
      obtain ⟨hr₁, g₁, hslot, hcontainer⟩ := ih
      have hstep := hw.step hr₁.closed
      have hown₁ := (g₁.container i hi.lt_size).attrs _ _ hown
      refine ⟨hr₁.step hstep, g₁.trans hstep.grows, ?_, fun c hc => ?_⟩
      · exact (hw.slot_eq hr₁ (hi.mono g₁) hown₁).trans hslot
      · exact (hw.container_eq hr₁.closed (Nat.lt_of_lt_of_le hc g₁.containers)).trans
          (hcontainer c hc)
  obtain ⟨-, -, hslot, hcontainer⟩ := hkept
  have hkey : h'.memberKey q x = h.memberKey q x := memberKey_congr (fun a ha => by
    rw [nameOf, nameOf, hcontainer a (hq a ha).lt_size]) x
  refine ⟨?_, hslot⟩
  change h'.instanceMember i q x = _
  rw [instanceMember, hkey, hcontainer i hi.lt_size, hown]

end Heap
end Ditlang
