import Ditlang.Proofs.Heap.Assignment
import Ditlang.Proofs.Session.Reached

/-!
# Ditlang.Proofs.Session.Assignment

Assignment to a slot, whatever the slot and the value share with the rest of the session. A value
that does not fit is refused, and nothing has changed then. A value that fits goes into the one slot,
and everything else in the session is as it was, however it is reached.
-/

namespace Ditlang

open Heap

theorem Eval.assignSlot_apply (s : SlotId) (v : Value) (st : EvalState) :
    Eval.assignSlot s v st = match st.session.heap.assign s v with
      | .ok h => .done () { st with session := { st.session with heap := h.warmAssign s v } }
      | .error fault => .failed (.diagnostic fault.diagnostic) st := by
  unfold Eval.assignSlot
  simp only [Eval.bind_apply, Eval.bind, Eval.heap, Eval.gets]
  cases st.session.heap.assign s v with
  | ok h => rfl
  | error fault => rfl

/-- In every reachable store, and so in every session, an assignment to a slot either is refused with
what keeps the value out of the declared type, and the session is as before; or the value fits, and
then only the slot has changed. The slot holds the value itself, except that an untyped list comes
into a slot with an element type as a new list with the same items, committed to that type, and that
a Lang and a different one that the slot holds, unless it takes everything, become a new merged Lang.
If nothing holds the untyped list, committing it where it is would give slots that look the same. -/
theorem assignment_touches_only_target :
    (∀ s : Session, s.Reached → s.heap.Reachable) ∧ ∀ h : Heap, h.Reachable →
      ∀ (s : SlotId) (v : Value), h.HasSlot s → v.Valid h →
      ∀ st : EvalState, st.session.heap = h →
      match Eval.assignSlot s v st with
      | .failed e t => t = st ∧ ∃ m, h.checkValue v (h.slot s).declared = some m ∧
          e = .diagnostic (HeapFault.mismatch m).diagnostic
      | .done _ t => ∃ h', t = { st with session := { st.session with heap := h' } } ∧
          h.checkValue v (h.slot s).declared = none ∧
          h'.Reachable ∧ h.OnlySlot h' s ∧ h.Stored h' s v ∧
          ∀ l, v = .listRef l → h.Unheld l → h.Commits s l → ∀ u, h.HasSlot u → ∀ n,
            (h.commitInPlace s l).unfold n ((h.commitInPlace s l).value u) =
              h'.unfold n (h'.value u)
      | .outOfFuel => False := by
  refine ⟨fun s hs => hs.sound.heap, ?_⟩
  rintro _ hr s v hs hv st rfl
  rw [Eval.assignSlot_apply]
  rcases hr.wellTyped.assign_cases s v with ⟨hcheck, h', hok⟩ | ⟨m, hcheck, hok⟩
  · rw [hok]
    refine ⟨h'.warmAssign s v, rfl, hcheck, hr.steps (steps_assign hr.closed hs hv hok),
      (onlySlot_assign hr.closed hs hok).warmAll _, (assign_stored hr hs hok).warmAll _, ?_⟩
    rintro l rfl hu hcommit u hin n
    have hvalue : (h'.warmAssign s (.listRef l)).value u = h'.value u := by
      rw [warmAssign, warmAll_eq]
      rfl
    rw [hvalue, warmAssign, unfold_warmAll]
    exact looksSame_commitInPlace hr hs hv hu hcommit hok hin n
  · rw [hok]
    exact ⟨rfl, m, hcheck, rfl⟩

/-- A program with an untyped list, and a name for a list of numbers that holds null. -/
def untypedListProgram : String :=
  "listOf Thing t = [1]; listOf Num n;"

/-- The untyped list is assigned to the other name, which gets a list of numbers, and stays untyped
itself. -/
theorem assignment_touches_only_target_of_shared_list :
    ∃ (s : Session) (t : EvalState) (k : ListId),
      Session.bare.evalSource untypedListProgram = some (.ok (), s) ∧
      Eval.assignSlot ⟨27⟩ (.listRef ⟨0⟩)
        ⟨s, .start s.main s.mainPath (.ofText "") false⟩ = .done () t ∧
      t.session.heap.value ⟨26⟩ = .listRef ⟨0⟩ ∧
      t.session.heap.list ⟨0⟩ = ⟨.thing, [.num (.ofInt 1)]⟩ ∧
      k ≠ ⟨0⟩ ∧ t.session.heap.value ⟨27⟩ = .listRef k ∧
      t.session.heap.list k = ⟨.num, [.num (.ofInt 1)]⟩ := by
  obtain ⟨s, hrun, hs, hp⟩ := Session.exists_reached untypedListProgram
    (p := fun s => decide (s.heap.value ⟨26⟩ = .listRef ⟨0⟩ ∧
      (s.heap.slot ⟨27⟩).declared = .listOf .num ∧ 27 < s.heap.slots.size ∧
      0 < s.heap.lists.size ∧ (s.heap.list ⟨0⟩).elem = .thing ∧
      (s.heap.list ⟨0⟩).items = [.num (.ofInt 1)] ∧
      s.heap.checkValue (.listRef ⟨0⟩) (.listOf .num) = none))
    (by decide +kernel)
  obtain ⟨hv, hd, hslot, hlist, helem, hitems, hcheck⟩ := of_decide_eq_true hp
  have hdata : s.heap.list ⟨0⟩ = ⟨.thing, [.num (.ofInt 1)]⟩ := by
    rw [← helem, ← hitems]
  have h26 : s.heap.HasSlot ⟨26⟩ := Nat.lt_trans (Nat.lt_succ_self 26) hslot
  have hassign := assignment_touches_only_target.2 s.heap (assignment_touches_only_target.1 s hs)
    ⟨27⟩ (.listRef ⟨0⟩) hslot hlist ⟨s, .start s.main s.mainPath (.ofText "") false⟩ rfl
  split at hassign
  · obtain ⟨-, m, hm, -⟩ := hassign
    rw [hd, hcheck] at hm
    cases hm
  · rename_i t ht
    obtain ⟨h', rfl, -, -, honly, hstored, -⟩ := hassign
    cases hstored with
    | @committed _ k _ hk hlist' hval =>
      refine ⟨s, _, k, hrun, ht, ?_, (honly.list ⟨0⟩ hlist).trans hdata, ?_, hval, ?_⟩
      · have hkept : h'.value ⟨26⟩ = s.heap.value ⟨26⟩ :=
          congrArg Slot.value (honly.slot ⟨26⟩ h26 (by decide))
        exact hkept.trans hv
      · rintro rfl
        exact absurd hlist (Nat.not_lt.2 hk)
      · refine hlist'.trans ?_
        rw [hd, hitems]
        rfl
    | same hno =>
      refine absurd ⟨?_, ?_, helem⟩ (hno ⟨0⟩ rfl)
      · rw [hd]
        rfl
      · rw [hd]
        nofun
  · exact hassign.elim

end Ditlang
