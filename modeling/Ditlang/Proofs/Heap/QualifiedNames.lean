import Mathlib.Data.List.Basic
import Ditlang.Proofs.Heap.InstanceWrites

/-!
# Ditlang.Proofs.Heap.QualifiedNames

Members of an instance behind the names of ancestors. A path of such names leads from one class to an
ancestor of it (`qualify?`), and the last name is looked up on the class the path leads to. The
instance is asked first at every step, under the name of the class so far and the next name
(`askedKeys`).

A write to a member of the instance leaves every path alone that does not ask for the key of that
member, and breaks the others (`OnlyMember.qualify?_eq`, `OnlyMember.qualify?_eq_none`). A path of names
without dots to a class that has an attribute never asks for a key of that attribute
(`Reachable.not_mem_askedKeys`).
-/

namespace Ditlang
namespace Heap

variable {h h' : Heap} {i a b c d : ContainerId} {q : Option ContainerId} {x n key : String}
  {own : SlotId} {path : List String}

/-- The class to which names of ancestors lead on an instance, from the class `q` or, with none, from
the class of the instance; none if one of them is not the name of an ancestor. -/
def qualify? (h : Heap) (i : ContainerId) : Option ContainerId → List String → Option ContainerId
  | q, [] => q
  | q, n :: path =>
    match h.member (.instanceRef i) q n with
    | .ok (.qualifier _ a) => h.qualify? i (some a) path
    | _ => none

/-- The keys under which the instance is asked while names of ancestors are followed. -/
def askedKeys (h : Heap) (i : ContainerId) : Option ContainerId → List String → List String
  | _, [] => []
  | q, n :: path => h.memberKey q n ::
    match h.member (.instanceRef i) q n with
    | .ok (.qualifier _ a) => h.askedKeys i (some a) path
    | _ => []

/-- What is read under a name behind names of ancestors. -/
def readQualified? (h : Heap) (i : ContainerId) (path : List String) (x : String) : Option Value :=
  match h.qualify? i none path with
  | none => none
  | some c =>
    match h.member (.instanceRef i) (some c) x with
    | .ok m => m.slot?.map h.value
    | .error _ => none

/-! ## One name of an ancestor -/

/-- Where some class above defines a name, a class inherits it. -/
theorem exists_definer_of_owns (hs : h.Subclass c d) (ho : h.Owns d x) : ∃ e, h.Definer x c e := by
  induction hs using Relation.ReflTransGen.head_induction_on with
  | refl => exact ⟨d, .own ho⟩
  | @head c p hp _ ih =>
    obtain ⟨e, he⟩ := ih
    by_cases hc : h.Owns c x
    · exact ⟨c, .own hc⟩
    · exact ⟨e, .up hc hp he⟩

/-- A name that qualifies on a class is that of an ancestor, and nobody above the class has an attribute
of that name. -/
theorem Lineal.classMember_qualifier (hl : h.Lineal) (hc : (h.container c).isClass = true)
    (hm : h.classMember c n = .ok (.qualifier a)) :
    h.Subclass c a ∧ (h.container a).name = some n ∧ ∀ d, h.Subclass c d → ¬ h.Owns d n := by
  have ho : ¬ h.Owns c n := by
    intro ho
    obtain ⟨s, hs⟩ := exists_slot_of_owns ho
    cases hm.symm.trans (classMember_of_get? hs)
  have hlost : h.losers c n = [] := by
    by_contra hlost
    cases hm.symm.trans (classMember_of_losers ho hlost)
  have hnone : ¬ ∃ d, h.Definer n c d := by
    intro hdef
    obtain ⟨d, s, -, -, hs⟩ := hl.classMember_of_definer hc ho hlost hdef
    cases hm.symm.trans hs
  rw [hl.classMember_of_no_definer hc ho hlost hnone] at hm
  split at hm
  · rename_i b hfind
    cases hm
    refine ⟨(hl.mem_tail_order.1 (List.mem_of_find?_eq_some hfind)).2, ?_, fun d hd hown => ?_⟩
    · simpa using List.find?_some hfind
    · exact hnone (exists_definer_of_owns hd hown)
  · cases hm

theorem qualifierValid_some (ha : (h.container a).isClass = true) : h.QualifierValid (some a) := by
  rintro _ ⟨⟩
  exact isKind_cls_iff.2 ha

/-- A step of a path goes from a class to an ancestor of it that bears the name. -/
theorem Reachable.qualifier_step (hr : h.Reachable) (hq : h.QualifierValid q) {base : Value}
    (hm : h.member (.instanceRef i) q n = .ok (.qualifier base a)) :
    h.QualifierValid (some a) ∧ (h.container a).name = some n ∧
      ∀ c, q = some c → h.Subclass c a ∧ ∀ d, h.Subclass c d → ¬ h.Owns d n := by
  change h.instanceMember i q n = _ at hm
  unfold instanceMember at hm
  dsimp only at hm
  split at hm
  · cases hm
  · split at hm
    · cases hm
    · rename_i cls hcls
      have hcls := isKind_cls_iff.1 (hq.getD (isKind_classOf? hr.closed hcls))
      cases hcm : h.classMember (q.getD cls) n with
      | error e =>
        rw [hcm] at hm
        cases hm
      | ok found =>
        rw [hcm] at hm
        cases found with
        | slot s => cases hm
        | missing => cases hm
        | qualifier b =>
          cases hm
          obtain ⟨hsub, hname, hfree⟩ := hr.lineal.classMember_qualifier hcls hcm
          refine ⟨qualifierValid_some (hr.lineal.isClass_of_subclass hcls hsub), hname, ?_⟩
          rintro c rfl
          exact ⟨hsub, hfree⟩

/-! ## Paths of names -/

theorem Reachable.isClass_of_qualify? (hr : h.Reachable) (hq : h.QualifierValid q)
    (hpath : h.qualify? i q path = some c) : (h.container c).isClass = true := by
  induction path generalizing q with
  | nil => exact isKind_cls_iff.1 (hq c hpath)
  | cons n path ih =>
    rw [qualify?] at hpath
    split at hpath
    · rename_i a hm
      exact ih (hr.qualifier_step hq hm).1 hpath
    · cases hpath

theorem Reachable.subclass_of_qualify? (hr : h.Reachable) (hc : h.QualifierValid (some c))
    (hpath : h.qualify? i (some c) path = some d) : h.Subclass c d := by
  induction path generalizing c with
  | nil =>
    cases hpath
    exact .refl
  | cons n path ih =>
    rw [qualify?] at hpath
    split at hpath
    · rename_i a hm
      obtain ⟨ha, -, hstep⟩ := hr.qualifier_step hc hm
      exact (hstep c rfl).1.trans (ih ha hpath)
    · cases hpath

/-- A path to a class that has an attribute asks for no key of that attribute, qualified by whatever
class, if its names have no dots: no step can bear the name of the attribute. -/
theorem Reachable.not_mem_askedKeys (hr : h.Reachable) (hq : h.QualifierValid q)
    (hdots : ∀ n ∈ path, '.' ∉ n.toList) (hname : ∀ c, q = some c → '.' ∉ (h.nameOf c).toList)
    (hpath : h.qualify? i q path = some d) (ho : h.Owns d x) (p : ContainerId) :
    h.memberKey (some p) x ∉ h.askedKeys i q path := by
  induction path generalizing q with
  | nil => exact List.not_mem_nil
  | cons n path ih =>
    have hn : '.' ∉ n.toList := hdots n List.mem_cons_self
    rw [qualify?] at hpath
    rw [askedKeys, List.mem_cons, not_or]
    split at hpath
    · rename_i a hm
      obtain ⟨ha, hnamed, hstep⟩ := hr.qualifier_step hq hm
      have hnameOf : h.nameOf a = n := by rw [nameOf, Container.displayName, hnamed]; rfl
      refine ⟨fun hkey => ?_, ?_⟩
      · cases q with
        | none =>
          -- A name without dots is not a qualified key.
          have hn' : n = h.nameOf p ++ "." ++ x := hkey.symm
          exact hn (by simp [hn'])
        | some c =>
          have hsplit : (h.nameOf c).toList ++ '.' :: n.toList =
              (h.nameOf p).toList ++ '.' :: x.toList := by
            simpa [memberKey] using congrArg String.toList hkey.symm
          obtain ⟨-, -, hx⟩ := (List.append_cons_inj_of_notMem (hname c rfl) hn).1 hsplit
          have hxn : n = x := String.toList_inj.1 hx
          obtain ⟨hsub, hfree⟩ := hstep c rfl
          exact hfree d (hsub.trans (hr.subclass_of_qualify? ha hpath)) (hxn ▸ ho)
      · refine ih ha (fun n hn => hdots n (List.mem_cons_of_mem _ hn)) ?_ hpath
        rintro _ ⟨⟩
        exact hnameOf ▸ hn
    · cases hpath

/-! ## Paths after a write -/

namespace Written

variable (hw : h.Written h' i key own) (hr : h.Reachable)

include hw hr

theorem qualify?_eq (hq : h.QualifierValid q) (hkey : key ∉ h.askedKeys i q path) :
    h'.qualify? i q path = h.qualify? i q path := by
  induction path generalizing q with
  | nil => rfl
  | cons n path ih =>
    rw [askedKeys, List.mem_cons, not_or] at hkey
    rw [qualify?, qualify?, (hw.only.keys q hq n (Ne.symm hkey.1)).1]
    split
    · rename_i a hm
      rw [hm] at hkey
      exact ih (hr.qualifier_step hq hm).1 hkey.2
    · rfl

/-- Where a path asks for the key, there is a slot then and no class. -/
theorem qualify?_eq_none (hq : h.QualifierValid q) (hkey : key ∈ h.askedKeys i q path) :
    h'.qualify? i q path = none := by
  induction path generalizing q with
  | nil => cases hkey
  | cons n path ih =>
    rw [qualify?]
    by_cases hhead : h.memberKey q n = key
    · rw [hw.member_eq hq hhead]
    · rw [(hw.only.keys q hq n hhead).1]
      have htail := (List.mem_cons.1 hkey).resolve_left (Ne.symm hhead)
      split
      · rename_i a hm
        rw [hm] at htail
        exact ih (hr.qualifier_step hq hm).1 htail
      · rfl

end Written

/-! ## What is read at the end of a path -/

/-- An instance has every attribute of a class behind the class. -/
theorem exists_member_of_owns (hi : h.IsKind .inst i) (ho : h.Owns c x) :
    ∃ m s, h.member (.instanceRef i) (some c) x = .ok m ∧ m.slot? = some s := by
  obtain ⟨s, hs⟩ := exists_slot_of_owns ho
  cases hown : (h.container i).attrs.get? (h.memberKey (some c) x) with
  | some t =>
    refine ⟨.slot t, t, ?_, rfl⟩
    change h.instanceMember i (some c) x = _
    rw [instanceMember, hown]
  | none =>
    obtain ⟨cls, hcls⟩ : ∃ cls, h.classOf? i = some cls := by
      unfold IsKind at hi
      unfold classOf?
      cases hk : (h.container i).kind with
      | inst cls => exact ⟨cls, rfl⟩
      | _ =>
        rw [hk] at hi
        cases hi
    refine ⟨.inherited s i (h.memberKey (some c) x), s, ?_, rfl⟩
    change h.instanceMember i (some c) x = _
    rw [instanceMember, hown, hcls]
    dsimp only
    rw [Option.getD_some, classMember_of_get? hs]
    rfl

theorem readQualified?_of_member (hpath : h.qualify? i none path = some c) {m : Member} {s : SlotId}
    (hm : h.member (.instanceRef i) (some c) x = .ok m) (hs : m.slot? = some s) :
    h.readQualified? i path x = some (h.value s) := by
  rw [readQualified?, hpath]
  dsimp only
  rw [hm]
  dsimp only
  rw [hs]
  rfl

/-- Two classes qualify a name to the same key exactly if they have the same name. -/
theorem memberKey_eq_iff :
    h.memberKey (some c) x = h.memberKey (some d) x ↔ h.nameOf c = h.nameOf d := by
  constructor
  · intro hkey
    have hkey := congrArg String.toList hkey
    simp only [memberKey, String.toList_append] at hkey
    exact String.toList_inj.1 (List.append_cancel_right (List.append_cancel_right hkey))
  · intro hname
    rw [memberKey, memberKey, hname]

/-- What is read behind a path to class `d` after a write to the member `x` of class `c`: what was read
before, unless the path asks for the key of the write or the two classes have the same name. -/
theorem Written.readQualified?_eq_iff (hw : h.Written h' i (h.memberKey (some c) x) own)
    (hr : h.Reachable) (hi : h.IsKind .inst i) (hpath : h.qualify? i none path = some d)
    (ho : h.Owns d x) :
    h'.readQualified? i path x = h.readQualified? i path x ↔
      h.memberKey (some c) x ∉ h.askedKeys i none path ∧
        (h.nameOf c = h.nameOf d → h.readQualified? i path x = some (h'.value own)) := by
  have hnone : h.QualifierValid none := fun _ hc => nomatch hc
  have hd := qualifierValid_some (hr.isClass_of_qualify? hnone hpath)
  obtain ⟨m, s, hm, hs⟩ := exists_member_of_owns hi ho
  rw [readQualified?_of_member hpath hm hs]
  by_cases hasked : h.memberKey (some c) x ∈ h.askedKeys i none path
  · have hlost : h'.readQualified? i path x = none := by
      rw [readQualified?, hw.qualify?_eq_none hr hnone hasked]
    rw [hlost]
    exact ⟨nofun, fun he => absurd hasked he.1⟩
  · have hpath' : h'.qualify? i none path = some d :=
      (hw.qualify?_eq hr hnone hasked).trans hpath
    by_cases hname : h.nameOf c = h.nameOf d
    · have hread := hw.member_eq hd (memberKey_eq_iff.2 hname.symm)
      rw [readQualified?_of_member hpath' hread rfl]
      exact ⟨fun he => ⟨hasked, fun _ => he.symm⟩, fun he => (he.2 hname).symm⟩
    · obtain ⟨hread, hkept⟩ := hw.only.keys (some d) hd x
        fun hkey => hname (memberKey_eq_iff.1 hkey).symm
      have hslot := (hkept m s hm hs).1
      rw [readQualified?_of_member hpath' (hread.trans hm) hs, value, value, hslot]
      exact ⟨fun _ => ⟨hasked, fun he => absurd he hname⟩, fun _ => rfl⟩

end Heap
end Ditlang
