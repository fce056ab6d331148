import Ditlang.Proofs.Heap.Assignability
import Ditlang.Proofs.Heap.StrayLeaves
import Ditlang.Proofs.Session.Reached

/-!
# Ditlang.Proofs.Session.Typing

The types of a program in every session. The law of the slots and of the direct items of lists has no
exception. The law of the lists inside of lists has: a list is checked through every level of nesting
when it is assigned or appended, but only the outermost one commits to the element type. An untyped
list in a committed one can get leaves of any type through another name for it. What the law says is
left of it as long as nothing is appended that does not fit around there.

Which values may be assigned where follows from the order of the types by which may stand for which:
what is accepted for a type is accepted for every type above it, and what was accepted once stays
accepted, however the program goes on, for as long as the lists of the value are left as they are.
-/

namespace Ditlang

open Heap

/-- In every reachable store, and so in every session, slots and lists hold what their types say: a
slot for a single value null or a value of its type, a slot for a list null or a list that is
committed to a type that may stand for its element type, and a committed list nulls, lists and values
of its element type. -/
theorem slots_and_lists_typed :
    (∀ s : Session, s.Reached → s.heap.Reachable) ∧ ∀ h : Heap, h.Reachable →
      (∀ s, (h.slot s).declared.list = false → (h.slot s).declared.isGeneric = false →
        h.value s = .null ∨ h.Fits (h.value s) (h.slot s).declared.ty) ∧
      (∀ s, (h.slot s).declared.list = true → h.value s = .null ∨ ∃ l, h.value s = .listRef l ∧
        ((h.slot s).declared.ty ≠ .thing → (h.list l).elem ≠ .thing ∧
          h.elemFits (h.list l).elem (h.slot s).declared.ty = true)) ∧
      ∀ l, (h.list l).elem ≠ .thing → ∀ v ∈ (h.list l).items,
        v = .null ∨ (∃ k, v = .listRef k) ∨ h.Fits v (h.list l).elem := by
  refine ⟨fun s hs => hs.sound.heap, fun h hr => ⟨fun s hl hg => ?_, fun s hl => ?_, fun l he => ?_⟩⟩
  · exact (hr.wellTyped.slot s).value.scalar hl hg
  · refine ((hr.wellTyped.slot s).value.list hl).imp_right ?_
    rintro ⟨l, hv, hfit⟩
    refine ⟨l, hv, fun ht => ?_⟩
    exact (hfit ht).imp_right hr.lineal.elemFits_iff.2
  · exact hr.wellTyped.list l he

/-- A program that shares a list between an untyped name and one with a class for its element type,
and then appends to it through the untyped name. -/
def sharingProgram : String :=
  "class A \x7b\x7d class B extends A \x7b\x7d " ++
    "listOf Thing t = [B()]; listOf A xs = t; append(t, 1);"

theorem slots_and_lists_typed_after_sharing :
    ∃ s, Session.bare.evalSource sharingProgram = some (.ok (), s) ∧ s.Reached ∧
      (s.heap.slot ⟨29⟩).declared = .listOf (.of ⟨8⟩) ∧ s.heap.value ⟨29⟩ = .listRef ⟨1⟩ ∧
      (s.heap.list ⟨1⟩).elem ≠ .thing ∧ s.heap.elemFits (s.heap.list ⟨1⟩).elem (.of ⟨8⟩) = true ∧
      (s.heap.list ⟨1⟩).items = [.instanceRef ⟨10⟩] ∧
      s.heap.Fits (.instanceRef ⟨10⟩) (s.heap.list ⟨1⟩).elem := by
  obtain ⟨s, hrun, hs, hp⟩ := Session.exists_reached sharingProgram
    (p := fun s => decide ((s.heap.slot ⟨29⟩).declared = .listOf (.of ⟨8⟩) ∧
      s.heap.value ⟨29⟩ = .listRef ⟨1⟩ ∧ (s.heap.list ⟨1⟩).items = [.instanceRef ⟨10⟩]))
    (by decide +kernel)
  obtain ⟨hd, hv, hi⟩ := of_decide_eq_true hp
  obtain ⟨-, hslot, hlist⟩ := slots_and_lists_typed.2 s.heap (slots_and_lists_typed.1 s hs)
  have hcommit : (s.heap.list ⟨1⟩).elem ≠ .thing ∧
      s.heap.elemFits (s.heap.list ⟨1⟩).elem (.of ⟨8⟩) = true := by
    rcases hslot ⟨29⟩ (by rw [hd]; rfl) with hn | ⟨l, hl, hfit⟩
    · rw [hv] at hn
      cases hn
    · rw [hv] at hl
      cases hl
      rw [hd] at hfit
      exact hfit nofun
  refine ⟨s, hrun, hs, hd, hv, hcommit.1, hcommit.2, hi, ?_⟩
  rcases hlist ⟨1⟩ hcommit.1 (.instanceRef ⟨10⟩) (hi ▸ List.mem_cons_self) with hn | ⟨_, hl⟩ | hf
  · cases hn
  · cases hl
  · exact hf

/-- All along a run the leaves of lists inside of committed lists are of their element types, exactly
when each value that is appended fits all committed lists around the list it is appended to. Without
any condition they are as far as the lists on the way to them are committed as well; and of all lists
inside of a committed one, those that are committed to a type that may stand for its element type are
the ones whose leaves stay of that type whatever is done. -/
theorem nested_leaves_typed_iff {h : Heap} (hr : h.Reachable) {run : List Heap}
    (hrun : (h :: run).IsChain Step) :
    ((∀ g ∈ h :: run, g.NestedTyped) ↔ h.NestedTyped ∧ (h :: run).IsChain Sheltered) ∧
    ∀ l, (h.list l).elem ≠ .thing →
      (∀ m, h.NestedCommitted l m → h.LeavesFit m (h.list l).elem) ∧
      ∀ m, h.Nested l m → ((∀ h', h.Steps h' → h'.LeavesFit m (h.list l).elem) ↔
        (h.list m).elem ≠ .thing ∧ h.elemFits (h.list m).elem (h.list l).elem = true) := by
  refine ⟨nestedTyped_run_iff hr hrun, fun l hl => ⟨fun m hm => ?_, fun m hm => ?_⟩⟩
  · obtain ⟨hne, hfit⟩ := elemFits_of_nestedCommitted hr.coherent hl hm
    exact leavesFit_of_elemFits hr.wellTyped hne hfit
  · rw [hr.lineal.elemFits_iff]
    exact leavesFit_forever_iff hr (hm.lt_size hr.closed) (hr.closed.list l).elem hl

/-- A program that puts a list of numbers and an untyped list into a list of numbers. -/
def nestingProgram : String :=
  "listOf Num inner = [1]; Thing x = [2]; listOf Num outer = [inner, x];"

theorem nested_leaves_typed_iff_beside_untyped :
    ∃ s h', Session.bare.evalSource nestingProgram = some (.ok (), s) ∧ s.Reached ∧
      (s.heap.list ⟨4⟩).items = [.listRef ⟨1⟩, .listRef ⟨2⟩] ∧
      (∀ g, s.heap.Steps g → g.LeavesFit ⟨1⟩ .num) ∧
      s.heap.append ⟨2⟩ (.str "a") = .ok h' ∧ ¬ ∀ g ∈ [s.heap, h'], g.NestedTyped := by
  obtain ⟨s, hrun, hs, hp⟩ := Session.exists_reached nestingProgram
    (p := fun s => decide ((s.heap.list ⟨4⟩).elem = .num ∧
      (s.heap.list ⟨4⟩).items = [.listRef ⟨1⟩, .listRef ⟨2⟩] ∧
      (s.heap.list ⟨1⟩).elem = .num ∧ (s.heap.list ⟨2⟩).elem = .thing))
    (by decide +kernel)
  obtain ⟨he, hi, he₁, he₂⟩ := of_decide_eq_true hp
  have hr := hs.sound.heap
  have hl : (s.heap.list ⟨4⟩).elem ≠ .thing := by rw [he]; nofun
  have h₁ : s.heap.Nested ⟨4⟩ ⟨1⟩ := .single (by rw [Holds, hi]; simp)
  have h₂ : s.heap.Nested ⟨4⟩ ⟨2⟩ := .single (by rw [Holds, hi]; simp)
  have hok := append_leaf (m := ⟨2⟩) (v := .str "a") hr.lineal trivial fun hne => absurd he₂ hne
  have hstep := Step.append (v := .str "a") trivial hok
  obtain ⟨hlaw, hforever⟩ := nested_leaves_typed_iff hr
    (List.isChain_cons_cons.2 ⟨hstep, .singleton _⟩)
  refine ⟨s, _, hrun, hs, hi, ?_, hok, fun hall => ?_⟩
  · rw [← he]
    exact ((hforever ⟨4⟩ hl).2 ⟨1⟩ h₁).2 (by rw [he₁, he]; exact ⟨nofun, rfl⟩)
  · have hsh := (List.isChain_cons_cons.1 (hlaw.1 hall).2).1
    have hfit := (hsh ⟨2⟩ (.str "a") hok ⟨4⟩ hl h₂).1 trivial
    rw [he] at hfit
    cases hfit

/-- A program that puts an untyped list into a list of numbers, and then appends a text to it. -/
def strayProgram : String :=
  "Thing x = [1]; listOf Num outer = [x]; append(x, \"a\");"

theorem nested_leaf_of_another_type :
    ∃ s, Session.bare.evalSource strayProgram = some (.ok (), s) ∧ s.Reached ∧
      (s.heap.list ⟨2⟩).elem = .num ∧ s.heap.Nested ⟨2⟩ ⟨0⟩ ∧ ¬ s.heap.LeavesFit ⟨0⟩ .num := by
  obtain ⟨s, hrun, hs, hp⟩ := Session.exists_reached strayProgram
    (p := fun s => decide ((s.heap.list ⟨2⟩).elem = .num ∧
      .listRef ⟨0⟩ ∈ (s.heap.list ⟨2⟩).items ∧ .str "a" ∈ (s.heap.list ⟨0⟩).items))
    (by decide +kernel)
  obtain ⟨he, hn, hi⟩ := of_decide_eq_true hp
  refine ⟨s, hrun, hs, he, .single hn, fun hfit => ?_⟩
  cases hfit _ hi trivial

/-! ## Assignability -/

/-- In every reachable store, and so in every session, one element type may stand for itself, and for
what another one may stand for that it may stand for. A list and a single value that are accepted for
a type are accepted for every type it may stand for. A check against a declared type accepts exactly
null, anything if the type is `Thing`, values of the type, and lists all of whose lists are untyped or
committed to a type that may stand for the element type and hold nothing of another type. A value that
it accepts it accepts after any declarations, new parents of classes, new containers and new
instances, and after any operations whatever that leave the lists of the value as they were. -/
theorem assignability_stable_subtyping :
    (∀ s : Session, s.Reached → s.heap.Reachable) ∧ ∀ h : Heap, h.Reachable →
      (∀ a, h.elemFits a a = true) ∧
      (∀ a b c, h.elemFits a b = true → h.elemFits b c = true → h.elemFits a c = true) ∧
      (∀ l a b, h.checkList l a = none → h.elemFits a b = true → h.checkList l b = none) ∧
      (∀ v a b, h.scalarFits v a = true → h.elemFits a b = true → h.scalarFits v b = true) ∧
      (∀ v d, h.checkValue v d = none ↔ h.Accepts v d) ∧
      (∀ h', Relation.ReflTransGen Extension h h' → ∀ v d,
        h.checkValue v d = none → h'.checkValue v d = none) ∧
      ∀ h', Relation.ReflTransGen ClassOp h h' → ∀ v d, h.ListsKept h' v →
        h.checkValue v d = none → h'.checkValue v d = none := by
  refine ⟨fun s hs => hs.sound.heap, fun h hr => ?_⟩
  have hl := hr.lineal
  have hu := hr.untangled
  refine ⟨fun a => hl.elemFits_iff.2 (.refl a), ?_, ?_, ?_, ?_, ?_, ?_⟩
  · intro a b c hab hbc
    rw [hl.elemFits_iff] at hab hbc ⊢
    exact hab.trans hbc
  · intro l a b hlist hab
    rw [hl.elemFits_iff] at hab
    rw [checkList_eq_none_iff hl hu] at hlist ⊢
    rcases hlist with rfl | hfits
    · -- Nothing but `Thing` is above `Thing`.
      cases hab
      exact .inl rfl
    · exact .inr (hfits.trans hab)
  · intro v a b hv hab
    rw [hl.elemFits_iff] at hab
    rw [hl.scalarFits_iff] at hv ⊢
    exact hv.trans hab
  · exact fun v d => checkValue_eq_none_iff hl hu
  · intro h' hext v d hc
    obtain ⟨g, hl', hlists⟩ := extensions_keep hext hl
    exact g.checkValue_eq_none hl hu hl' (listsKept_of_lists hlists v) hc
  · intro h' hops v d hkept hc
    obtain ⟨g, hl'⟩ := classOps_keep hops hl
    exact g.checkValue_eq_none hl hu hl' hkept hc

/-- A program with a list of a class that holds another such list. -/
def nestedClassListProgram : String :=
  "class A \x7b\x7d class B extends A \x7b\x7d " ++
    "listOf B inner = [B()]; listOf B outer = [inner, null];"

/-- The list may be assigned to a list of the parent class, also when the parent class has another
instance. -/
theorem assignability_stable_subtyping_of_nested_list :
    ∃ s, Session.bare.evalSource nestedClassListProgram = some (.ok (), s) ∧ s.Reached ∧
      (s.heap.list ⟨3⟩).items = [.listRef ⟨1⟩, .null] ∧
      s.heap.elemFits (.of ⟨9⟩) (.of ⟨8⟩) = true ∧ s.heap.elemFits (.of ⟨9⟩) .inst = true ∧
      s.heap.checkList ⟨3⟩ (.of ⟨8⟩) = none ∧ s.heap.checkList ⟨3⟩ .inst = none ∧
      s.heap.scalarFits (.instanceRef ⟨10⟩) (.of ⟨8⟩) = true ∧
      (s.heap.newInstance ⟨8⟩).2.checkValue (.listRef ⟨3⟩) (.listOf (.of ⟨8⟩)) = none := by
  obtain ⟨s, hrun, hs, hp⟩ := Session.exists_reached nestedClassListProgram
    (p := fun s => decide ((s.heap.list ⟨3⟩).items = [.listRef ⟨1⟩, .null] ∧
      s.heap.elemFits (.of ⟨9⟩) (.of ⟨8⟩) = true ∧
      s.heap.checkList ⟨3⟩ (.of ⟨9⟩) = none ∧
      s.heap.scalarFits (.instanceRef ⟨10⟩) (.of ⟨9⟩) = true))
    (by decide +kernel)
  obtain ⟨hitems, hsub, hlist, hinst⟩ := of_decide_eq_true hp
  obtain ⟨-, -, hlists, hscalars, -, hextended, -⟩ :=
    assignability_stable_subtyping.2 s.heap (assignability_stable_subtyping.1 s hs)
  have hlistA := hlists ⟨3⟩ _ _ hlist hsub
  exact ⟨s, hrun, hs, hitems, hsub, rfl, hlistA, hlists ⟨3⟩ _ _ hlist rfl,
    hscalars _ _ _ hinst hsub,
    hextended _ (.single (.newInstance ⟨8⟩)) (.listRef ⟨3⟩) (.listOf (.of ⟨8⟩)) hlistA⟩

end Ditlang
