import Ditlang.Heap.Assign
import Ditlang.Heap.Classes
import Ditlang.Heap.Member

/-!
# Ditlang.Proofs.Heap.Inversion

What an operation on the store did when it succeeded: which checks it passed, and how the new store
is written from the old one. Facts about operations are derived from these lemmas and not from the
definitions.
-/

namespace Ditlang
namespace Heap

variable {h h' : Heap}

/-- The container with one more parent, if it is a class. -/
def withParent (parent : ContainerId) (c : Container) : Container :=
  match c.kind with
  | .cls data => { c with kind := .cls { data with parents := data.parents ++ [parent] } }
  | _ => c

theorem declare_inv {owner : ContainerId} {name : String} {d : Declared} {s : SlotId}
    (hd : h.declare owner name d = .ok (s, h')) :
    h.findLocal? owner name = none ∧ s = ⟨h.slots.size⟩ ∧
      (((h.container owner).isClass = false ∧
          h' = (h.newSlot (.declare name d)).2.attach owner name s) ∨
        ((h.container owner).isClass = true ∧ ∃ found,
          found = (h.newSlot (.declare name d)).2.overrideConflicts owner name ∧
          h' = (((h.newSlot (.declare name d)).2.addConflicts owner found).attach owner name
            s).forgetAncestries)) := by
  unfold declare at hd
  split at hd
  · cases hd
  · rename_i hfree
    rw [Bool.not_eq_true, Option.isSome_eq_false_iff, Option.isNone_iff_eq_none] at hfree
    dsimp only at hd
    split at hd <;> rename_i hc
    · cases hd
      exact ⟨hfree, rfl, .inr ⟨hc, _, rfl, rfl⟩⟩
    · cases hd
      exact ⟨hfree, rfl, .inl ⟨Bool.not_eq_true _ ▸ hc, rfl⟩⟩

theorem insertAlias_inv {c : ContainerId} {name : String} {s : SlotId}
    (ha : h.insertAlias c name s = .ok h') :
    h.findLocal? c name = none ∧
      h' = h.modifyContainer c fun x => { x with aliases := x.aliases.insert name s } := by
  unfold insertAlias at ha
  split at ha
  · cases ha
  · rename_i hfree
    rw [Bool.not_eq_true, Option.isSome_eq_false_iff, Option.isNone_iff_eq_none] at hfree
    cases ha
    exact ⟨hfree, rfl⟩

theorem addParent_inv {c parent : ContainerId} (ha : h.addParent c parent = .ok h') :
    (h.container parent).isClass = true ∧ h.isSubclass parent c = false ∧
      parent ∉ h.parents c ∧
      ∃ found, found = ((h.ancestry parent).definers.entries.flatMap fun (name, defs) =>
          h.conflictsOfName c (h.parentDefiners c) name defs) ++ h.inheritedConflicts c parent ∧
        h' = ((h.addConflicts c found).modifyContainer c (withParent parent)).forgetAncestries := by
  unfold addParent at ha
  split at ha
  · cases ha
  · rename_i hclass
    split at ha
    · cases ha
    · rename_i hsub
      split at ha
      · cases ha
      · rename_i hnew
        cases ha
        exact ⟨by simpa using hclass, by simpa using hsub, by simpa using hnew, _, rfl, rfl⟩

/-- The value a slot takes is the one assigned, a merged Lang, or a committed copy of a list. -/
theorem settle_cases (d : Declared) (old new : Value) :
    h.settle d old new = (new, h) ∨
    (∃ a b, new = .langRef b ∧ d.list = false ∧
      h.settle d old new = (.langRef (h.mergeLangs a b).1, (h.mergeLangs a b).2) ∧
      old = .langRef a) ∨
    (∃ l, new = .listRef l ∧ d.list = true ∧ d.ty ≠ .thing ∧ (h.list l).elem = .thing ∧
      h.settle d old new = (.listRef (h.newList d.ty (h.list l).items).1,
        (h.newList d.ty (h.list l).items).2)) := by
  unfold settle
  split
  · rename_i a b
    split
    · exact .inl rfl
    · rename_i hd
      simp only [Bool.or_eq_true, not_or, Bool.not_eq_true] at hd
      exact .inr (.inl ⟨a, b, rfl, hd.1, rfl, rfl⟩)
  · rename_i l
    split
    · rename_i hd
      simp only [Bool.and_eq_true, decide_eq_true_eq] at hd
      exact .inr (.inr ⟨l, rfl, hd.1.1, hd.1.2, hd.2, rfl⟩)
    · exact .inl rfl
  · exact .inl rfl

/-- A list that a slot with an element type keeps as it is was committed before. -/
theorem settle_list_same {d : Declared} {old : Value} {l : ListId} (hd : d.list = true)
    (ht : d.ty ≠ .thing) (hs : h.settle d old (.listRef l) = (.listRef l, h)) :
    (h.list l).elem ≠ .thing := by
  intro he
  have hcommit : h.settle d old (.listRef l) = (.listRef (h.newList d.ty (h.list l).items).1,
      (h.newList d.ty (h.list l).items).2) := by
    unfold settle
    cases old <;> simp [hd, ht, he]
  rw [hcommit] at hs
  have hsize := congrArg (fun g : Value × Heap => g.2.lists.size) hs
  simp [newList] at hsize

theorem assign_inv {s : SlotId} {v : Value} (ha : h.assign s v = .ok h') :
    ((h.slot s).generic = true ∧ h' = h.setValue s v) ∨
    ((h.slot s).generic = false ∧ h.checkValue v (h.slot s).declared = none ∧
      h' = (h.settle (h.slot s).declared (h.slot s).value v).2.setValue s
        (h.settle (h.slot s).declared (h.slot s).value v).1) := by
  unfold assign at ha
  dsimp only at ha
  split at ha
  · rename_i hg
    cases ha
    exact .inl ⟨hg, rfl⟩
  · rename_i hg
    split at ha
    · cases ha
    · rename_i hc
      cases ha
      exact .inr ⟨by simpa using hg, hc, rfl⟩

theorem append_inv {l : ListId} {v : Value} (ha : h.append l v = .ok h') :
    h.closesCycle l v = false ∧
      ((h.list l).elem ≠ .thing → h.elementFits v (h.list l).elem = true) ∧
      h' = h.setList l { h.list l with items := (h.list l).items ++ [v] } := by
  unfold append at ha
  dsimp only at ha
  split at ha
  · cases ha
  · rename_i hcycle
    split at ha
    · cases ha
    · rename_i hfits
      cases ha
      refine ⟨by simpa using hcycle, ?_, rfl⟩
      intro he
      cases hf : h.elementFits v (h.list l).elem with
      | true => rfl
      | false => exact absurd ⟨he, by simp [hf]⟩ hfits

theorem materialize_cases (inst : ContainerId) (key : String) (template : SlotId) :
    (∃ s, (h.container inst).attrs.get? key = some s ∧
      h.materialize inst key template = (s, h)) ∨
    ((h.container inst).attrs.get? key = none ∧
      h.materialize inst key template = (⟨h.slots.size⟩,
        (h.newSlot { h.slot template with name := key }).2.attach inst key ⟨h.slots.size⟩)) := by
  unfold materialize
  split
  · rename_i s hs
    exact .inl ⟨s, hs, rfl⟩
  · rename_i hn
    exact .inr ⟨hn, rfl⟩

end Heap
end Ditlang
