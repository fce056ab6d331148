import Ditlang.Proofs.Heap.InstanceWrites
import Ditlang.Proofs.Heap.QualifiedNames
import Ditlang.Proofs.Session.Assignment
import Ditlang.Proofs.Session.CopyOnWrite

/-!
# Ditlang.Proofs.Session.InstanceWrites

Writing to a member of an instance and reading it back. What is written is read back on the instance,
under the name and the qualifier it was written under, and neither classes nor other instances nor
other members of the instance see it.

Attributes of ancestors are written behind their names, as `i.P.x` or `i.R.Q.x`, and the instance keeps what
is written there under the name of the class and the name of the attribute. So two classes of different
names do not share anything on an instance, and two of the same name do: what is written to the attribute
of the one is read as that of the other, and even its type is that of the one.
-/

namespace Ditlang

open Heap

/-- A member of an instance is written by assigning to the slot of the instance's own. -/
theorem Eval.store_member_apply {st : EvalState} {i : ContainerId} {q : Option ContainerId}
    {x : String} {m : Member} {t : SlotId}
    (hm : st.session.heap.member (.instanceRef i) q x = .ok m) (ht : m.slot? = some t) (v : Value) :
    Eval.store m.operand v st =
      Eval.assignSlot (st.session.heap.materialize i (st.session.heap.memberKey q x) t).1 v
        { st with session := { st.session with
          heap := (st.session.heap.materialize i (st.session.heap.memberKey q x) t).2 } } := by
  obtain ⟨rfl, hown⟩ | ⟨-, rfl, -⟩ := instanceMember_cases hm ht
  · rw [materialize, hown]
    rfl
  · rfl

/-- How a write to a member of an instance ends. The instance has a slot of its own for the member then,
a copy of the one the member is inherited from. A value that fits has been assigned to it; a value that
does not fit has been refused after the copy was made. -/
theorem Eval.store_member_cases {h : Heap} (hr : h.Reachable) {i : ContainerId}
    {q : Option ContainerId} {x : String} {v : Value} {m : Member} {t : SlotId}
    (hi : h.IsKind .inst i) (hv : v.Valid h) (hm : h.member (.instanceRef i) q x = .ok m)
    (ht : m.slot? = some t) {st : EvalState} (hst : st.session.heap = h) :
    ∃ (h' g : Heap) (own : SlotId), h.materialize i (h.memberKey q x) t = (own, g) ∧
      g.slot own = { h.slot t with name := h.memberKey q x } ∧
      h.Written h' i (h.memberKey q x) own ∧
      ((Eval.store m.operand v st =
            .done () { st with session := { st.session with heap := h' } } ∧
          h'.slot own = { g.slot own with value := h'.value own } ∧ g.Stored h' own v) ∨
        (h.checkValue v (h.slot t).declared ≠ none ∧ h' = g ∧ ∃ e, Eval.store m.operand v st =
          .failed e { st with session := { st.session with heap := h' } })) := by
  subst hst
  have hmat := materialized_of_member hr hi hm ht
  have hg : (st.session.heap.materialize i (st.session.heap.memberKey q x) t).2.Reachable :=
    hr.step (.materialize _ t hi)
  rw [Eval.store_member_apply hm ht, Eval.assignSlot_apply]
  generalize st.session.heap.materialize i (st.session.heap.memberKey q x) t = p at hmat hg ⊢
  obtain ⟨own, g⟩ := p
  dsimp only at hmat hg ⊢
  have hgrows := hmat.confined.grows
  have hin : g.HasSlot own := (hg.closed.container i).attrs.get? hmat.attr
  obtain ⟨-, h', hok⟩ | ⟨e, he, hok⟩ := hg.wellTyped.assign_cases own v
  · have hr' := hg.steps (steps_assign hg.closed hin (hv.mono hgrows) hok)
    have honly := (onlySlot_assign hg.closed hin hok).warmAll (h'.assignAsks own v)
    have hkept := honly.container i (Nat.lt_of_lt_of_le hi.lt_size hgrows.containers)
    rw [hok]
    exact ⟨h'.warmAssign own v, g, own, rfl, hmat.slot,
      hmat.written hr hi hg hr' ((confined_assign hok).warmAll _) hkept,
      .inl ⟨rfl, honly.target, (assign_stored hg hin hok).warmAll _⟩⟩
  · rw [hok]
    refine ⟨g, g, own, rfl, hmat.slot, hmat.written hr hi hg hg (.refl g i _ _) rfl,
      .inr ⟨fun hcheck => ?_, rfl, _, rfl⟩⟩
    -- The lists are what they were, so what fits the attribute fits the copy.
    have hfits := hgrows.checkValue_eq_none hr.lineal hr.untangled hg.lineal
      (listsKept_of_lists hmat.lists v) hcheck
    rw [hmat.slot] at he
    cases hfits.symm.trans he

/-- In every reachable store, and so in every session, a value that fits the declared type of a member
of an instance can be written to it. The instance then has a slot of its own for the member, if it was
inherited a copy of the attribute it was inherited from, and what has been stored of the value is in
it; the member is read from there, also after any writes to attributes of classes or below them. All
classes and all slots of classes are as they were, and so are all other members: those of other
instances, and those of this one whose keys are others. -/
theorem instance_member_write_reads_back :
    (∀ s : Session, s.Reached → s.heap.Reachable) ∧ ∀ h : Heap, h.Reachable →
      ∀ (i : ContainerId) (q : Option ContainerId) (x : String) (v : Value) (m : Member)
        (t : SlotId), h.IsKind .inst i → h.QualifierValid q → v.Valid h →
      h.member (.instanceRef i) q x = .ok m → m.slot? = some t →
      h.checkValue v (h.slot t).declared = none →
      ∀ st : EvalState, st.session.heap = h →
      ∃ (h' g : Heap) (own : SlotId),
        Eval.store m.operand v st = .done () { st with session := { st.session with heap := h' } } ∧
        h.OnlyMember h' i (h.memberKey q x) ∧
        h.materialize i (h.memberKey q x) t = (own, g) ∧
        g.slot own = { h.slot t with name := h.memberKey q x } ∧
        h'.slot own = { g.slot own with value := h'.value own } ∧ g.Stored h' own v ∧
        ∀ h'', Relation.ReflTransGen ClassWrite h' h'' →
          h''.member (.instanceRef i) q x = .ok (.slot own) ∧ h''.slot own = h'.slot own := by
  refine ⟨fun s hs => hs.sound.heap, ?_⟩
  intro h hr i q x v m t hi hq hv hm ht hcheck st hst
  obtain ⟨h', g, own, hmat, hcopy, hwritten, hend⟩ :=
    Eval.store_member_cases hr hi hv hm ht hst
  obtain ⟨hstore, hslot, hstored⟩ | ⟨hrefused, -⟩ := hend
  · refine ⟨h', g, own, hstore, hwritten.only, hmat, hcopy, hslot, hstored, fun h'' hlater => ?_⟩
    have hgrows := hwritten.grows
    refine member_own_of_classWrites hwritten.reachable (hi.mono hgrows)
      (fun a ha => (hq a ha).mono hgrows) ?_ hlater
    rw [hwritten.memberKey_eq hq]
    exact hwritten.attr
  · exact absurd hcheck hrefused

/-- A program with a class and two instances that inherit its attribute. -/
def inheritingProgram : String :=
  "class A \x7b Num n = 1; \x7d A x = A(); A y = A();"

/-- One instance gets another value for the attribute, and then the class gets a third one. -/
theorem instance_member_write_reads_back_after_class_write :
    ∃ (s : Session) (h' h'' : Heap) (own : SlotId),
      Session.bare.evalSource inheritingProgram = some (.ok (), s) ∧
      s.heap.member (.instanceRef ⟨9⟩) none "n" = .ok (.inherited ⟨28⟩ ⟨9⟩ "n") ∧
      Eval.store (.member (.inherited ⟨28⟩ ⟨9⟩ "n")) (.num (.ofInt 2))
        ⟨s, .start s.main s.mainPath (.ofText "") false⟩ =
        .done () ⟨{ s with heap := h' }, .start s.main s.mainPath (.ofText "") false⟩ ∧
      h'.value ⟨28⟩ = .num (.ofInt 1) ∧
      h'.member (.instanceRef ⟨10⟩) none "n" = .ok (.inherited ⟨28⟩ ⟨10⟩ "n") ∧
      h'.assign ⟨28⟩ (.num (.ofInt 3)) = .ok h'' ∧
      h''.member (.instanceRef ⟨9⟩) none "n" = .ok (.slot own) ∧
      h''.value own = .num (.ofInt 2) := by
  obtain ⟨s, hrun, hs, hp⟩ := Session.exists_reached inheritingProgram
    (p := fun s => decide (s.heap.member (.instanceRef ⟨9⟩) none "n" =
        .ok (.inherited ⟨28⟩ ⟨9⟩ "n") ∧
      s.heap.member (.instanceRef ⟨10⟩) none "n" = .ok (.inherited ⟨28⟩ ⟨10⟩ "n") ∧
      (s.heap.container ⟨8⟩).isClass = true ∧
      (s.heap.container ⟨8⟩).attrs.get? "n" = some ⟨28⟩ ∧
      (s.heap.slot ⟨28⟩).declared = .scalar .num ∧ s.heap.value ⟨28⟩ = .num (.ofInt 1) ∧
      (s.heap.container ⟨9⟩).kind.valueKind? = some .inst ∧
      (s.heap.container ⟨10⟩).kind.valueKind? = some .inst))
    (by decide +kernel)
  obtain ⟨hx, hy, hcls, hattr, hd, hv, hkx, hky⟩ := of_decide_eq_true hp
  have hr := hs.sound.heap
  have hcheck : ∀ (h : Heap) (n : Number), h.checkValue (.num n) (.scalar .num) = none :=
    fun _ _ => rfl
  obtain ⟨h', g, own, hstore, honly, -, -, -, hstored, hlater⟩ :=
    instance_member_write_reads_back.2 s.heap (instance_member_write_reads_back.1 s hs) ⟨9⟩ none "n"
      (.num (.ofInt 2)) _ ⟨28⟩ hkx Eval.qualifierValid_none trivial hx rfl (hd ▸ hcheck _ _)
      ⟨s, .start s.main s.mainPath (.ofText "") false⟩ rfl
  have hclass := honly.classSlots ⟨8⟩ "n" ⟨28⟩ hcls hattr
  have hval : h'.value own = .num (.ofInt 2) := by
    cases hstored with
    | same _ _ hval => exact hval
  have hcls' : (h'.container ⟨8⟩).isClass = true ∧
      (h'.container ⟨8⟩).attrs.get? "n" = some ⟨28⟩ := by
    rw [honly.classes ⟨8⟩ hcls]
    exact ⟨hcls, hattr⟩
  have hassign : ∃ h'', h'.assign ⟨28⟩ (.num (.ofInt 3)) = .ok h'' := by
    have hgeneric : h'.slot ⟨28⟩ = s.heap.slot ⟨28⟩ := hclass.1
    unfold assign
    dsimp only
    rw [hgeneric, hd, hcheck]
    split <;> exact ⟨_, rfl⟩
  obtain ⟨h'', hok⟩ := hassign
  have hvalid : Value.Valid h' (.num (.ofInt 3)) := trivial
  have hwrite : h'.ClassWrite h'' := .assign hcls'.1 hcls'.2 hvalid hok
  obtain ⟨hread, hslot⟩ := hlater h'' (.single hwrite)
  refine ⟨s, h', h'', own, hrun, hx, hstore, ?_, ?_, hok, hread, ?_⟩
  · exact (congrArg Slot.value hclass.1).trans hv
  · exact (honly.instances ⟨10⟩ hky (by decide) none Eval.qualifierValid_none "n").1.trans hy
  · exact (congrArg Slot.value hslot).trans hval

/-! ## Attributes behind names -/

/-- In a reachable store, as that of every session is, let paths of names lead from an instance to two
classes that have an attribute `x`. A value can be written to that of the first class if it fits, and in
any case the instance has a slot of its own for it then. What is read behind the path to the second
class stays what it was exactly when that path does not ask for the key of the write, which no path of
names without dots does, and the classes have different names, or what is in the slot is what was read
there before. If the names differ, the attribute of the second class is found where it was and looks as
before; if they do not, it is found in the slot of the first. -/
theorem qualified_write_unseen_iff {h : Heap} (hr : h.Reachable) {i c d : ContainerId}
    (hi : h.IsKind .inst i) {toC toD : List String} (hc : h.qualify? i none toC = some c)
    (hd : h.qualify? i none toD = some d) {x : String} (hoc : h.Owns c x) (hod : h.Owns d x)
    {v : Value} (hv : v.Valid h) {st : EvalState} (hst : st.session.heap = h) :
    ∃ (m : Member) (t own : SlotId) (h' : Heap),
      h.member (.instanceRef i) (some c) x = .ok m ∧ m.slot? = some t ∧
      (∃ g, h.materialize i (h.memberKey (some c) x) t = (own, g) ∧
        ((Eval.store m.operand v st =
              .done () { st with session := { st.session with heap := h' } } ∧
            g.Stored h' own v) ∨
          (h.checkValue v (h.slot t).declared ≠ none ∧ h' = g ∧ ∃ e, Eval.store m.operand v st =
            .failed e { st with session := { st.session with heap := h' } }))) ∧
      h'.member (.instanceRef i) (some c) x = .ok (.slot own) ∧
      (h'.readQualified? i toD x = h.readQualified? i toD x ↔
        h.memberKey (some c) x ∉ h.askedKeys i none toD ∧
          (h.nameOf c = h.nameOf d → h.readQualified? i toD x = some (h'.value own))) ∧
      ((∀ n ∈ toD, '.' ∉ n.toList) → h.memberKey (some c) x ∉ h.askedKeys i none toD) ∧
      (h.nameOf c ≠ h.nameOf d → h.SameMember h' i (some d) x) ∧
      (h.nameOf c = h.nameOf d → h'.member (.instanceRef i) (some d) x = .ok (.slot own)) := by
  have hnone : h.QualifierValid none := Eval.qualifierValid_none
  have hqc := qualifierValid_some (hr.isClass_of_qualify? hnone hc)
  have hqd := qualifierValid_some (hr.isClass_of_qualify? hnone hd)
  obtain ⟨m, t, hm, ht⟩ := exists_member_of_owns hi hoc
  obtain ⟨h', g, own, hmat, -, hw, hend⟩ := Eval.store_member_cases hr hi hv hm ht hst
  refine ⟨m, t, own, h', hm, ht, ⟨g, hmat, hend.imp_left fun hdone => ⟨hdone.1, hdone.2.2⟩⟩,
    hw.member_eq hqc rfl, hw.readQualified?_eq_iff hr hi hd hod, fun hdots => ?_, fun hname => ?_,
    fun hname => hw.member_eq hqd (memberKey_eq_iff.2 hname.symm)⟩
  · exact hr.not_mem_askedKeys hnone hdots nofun hd hod c
  · exact hw.only.keys (some d) hqd x fun hkey => hname (memberKey_eq_iff.1 hkey).symm

/-- A program with two classes of different names that both have an attribute, and an instance of both. -/
def twoNamesProgram : String :=
  "class P \x7b Num x; \x7d class Q \x7b Num x; \x7d class C extends P, Q \x7b\x7d C c = C();"

/-- What is written behind the one name is not read behind the other. -/
theorem qualified_write_unseen_iff_of_two_names :
    ∃ (s : Session) (h' : Heap), Session.bare.evalSource twoNamesProgram = some (.ok (), s) ∧
      s.heap.member (.instanceRef ⟨11⟩) (some ⟨8⟩) "x" = .ok (.inherited ⟨28⟩ ⟨11⟩ "P.x") ∧
      Eval.store (.member (.inherited ⟨28⟩ ⟨11⟩ "P.x")) (.num (.ofInt 1))
        ⟨s, .start s.main s.mainPath (.ofText "") false⟩ =
        .done () ⟨{ s with heap := h' }, .start s.main s.mainPath (.ofText "") false⟩ ∧
      s.heap.readQualified? ⟨11⟩ ["Q"] "x" = some .null ∧
      h'.readQualified? ⟨11⟩ ["Q"] "x" = some .null := by
  obtain ⟨s, hrun, hs, hp⟩ := Session.exists_reached twoNamesProgram
    (p := fun s => decide ((s.heap.container ⟨11⟩).kind.valueKind? = some .inst ∧
      s.heap.qualify? ⟨11⟩ none ["P"] = some ⟨8⟩ ∧ s.heap.qualify? ⟨11⟩ none ["Q"] = some ⟨9⟩ ∧
      s.heap.Owns ⟨8⟩ "x" ∧ s.heap.Owns ⟨9⟩ "x" ∧
      s.heap.member (.instanceRef ⟨11⟩) (some ⟨8⟩) "x" = .ok (.inherited ⟨28⟩ ⟨11⟩ "P.x") ∧
      s.heap.checkValue (.num (.ofInt 1)) (s.heap.slot ⟨28⟩).declared = none ∧
      s.heap.nameOf ⟨8⟩ ≠ s.heap.nameOf ⟨9⟩ ∧
      s.heap.readQualified? ⟨11⟩ ["Q"] "x" = some .null))
    (by decide +kernel)
  obtain ⟨hi, hc, hd, hoc, hod, hm, hfits, hnames, hread⟩ := of_decide_eq_true hp
  have hnum : Value.Valid s.heap (.num (.ofInt 1)) := trivial
  let st : EvalState := ⟨s, .start s.main s.mainPath (.ofText "") false⟩
  have hst : st.session.heap = s.heap := rfl
  obtain ⟨m, t, own, h', hm', ht, ⟨g, -, hend⟩, -, hiff, hdots, -⟩ :=
    qualified_write_unseen_iff hs.sound.heap hi hc hd hoc hod hnum hst
  cases hm'.symm.trans hm
  cases ht
  have hasked := hdots (by decide)
  obtain ⟨hstore, -⟩ | ⟨hrefused, -⟩ := hend
  · refine ⟨s, h', hrun, hm, hstore, hread, ?_⟩
    exact (hiff.2 ⟨hasked, fun he => absurd he hnames⟩).trans hread
  · exact absurd hfits hrefused

/-- A program with two classes of the same name, one inside another class, and an instance of both. -/
def namesakesProgram : String :=
  "class P \x7b Num x; \x7d class A \x7b class P \x7b Str x; \x7d \x7d " ++
    "class R extends A.P \x7b\x7d class C extends P, R \x7b\x7d C c = C();"

/-- What is written to the attribute of the one is read as that of the other, a number as a string. -/
theorem qualified_write_seen_by_namesake :
    ∃ s s' : Session, Session.bare.evalSource namesakesProgram = some (.ok (), s) ∧
      s.evalSource "c.P.x = 1;" = some (.ok (), s') ∧
      s.heap.qualify? ⟨13⟩ none ["P"] = some ⟨8⟩ ∧
      s.heap.qualify? ⟨13⟩ none ["R", "P"] = some ⟨10⟩ ∧
      s.heap.Owns ⟨8⟩ "x" ∧ s.heap.Owns ⟨10⟩ "x" ∧
      s.heap.readQualified? ⟨13⟩ ["R", "P"] "x" = some .null ∧
      s'.heap.readQualified? ⟨13⟩ ["R", "P"] "x" = some (.num (.ofInt 1)) := by
  obtain ⟨s, hrun, -, hp⟩ := Session.exists_reached namesakesProgram
    (p := fun s => (s.evalSource "c.P.x = 1;").any fun (r : _ × Session) =>
      r.1.isOk &&
      decide (s.heap.qualify? ⟨13⟩ none ["P"] = some ⟨8⟩ ∧
        s.heap.qualify? ⟨13⟩ none ["R", "P"] = some ⟨10⟩ ∧
        s.heap.Owns ⟨8⟩ "x" ∧ s.heap.Owns ⟨10⟩ "x" ∧
        s.heap.readQualified? ⟨13⟩ ["R", "P"] "x" = some .null ∧
        r.2.heap.readQualified? ⟨13⟩ ["R", "P"] "x" = some (.num (.ofInt 1))))
    (by decide +kernel)
  obtain ⟨⟨result, s'⟩, hrun', hand⟩ := (Option.any_eq_true _ _).1 hp
  obtain ⟨hok, hdecide⟩ := Bool.and_eq_true_iff.1 hand
  cases result with
  | error e => cases hok
  | ok => exact ⟨s, s', hrun, hrun', of_decide_eq_true hdecide⟩

end Ditlang
