import Ditlang.Proofs.Heap.ListSearch
import Ditlang.Proofs.Session.Reached

/-!
# Ditlang.Proofs.Session.Lists

Lists inside of lists, in the sessions that programs lead to. However lists are shared, copied and put
into each other, none contains itself, and so every search through them comes to an end. It is
appending that sees to it, by refusing what would close a cycle and nothing else.
-/

namespace Ditlang

open Heap

/-- In every reachable store, and so in every session, no list lies inside itself, and from list to
item every way comes to an end. The check of a list and the search inside a list give what looking
through all levels gives. Appending refuses a value as self-containing exactly when the list is the
value or lies inside of it, which is when putting the value there would close a cycle. Committing a
list where it is leaves what holds what. -/
theorem lists_never_contain_themselves :
    (∀ s : Session, s.Reached → s.heap.Reachable) ∧ ∀ h : Heap, h.Reachable →
      (∀ l, ¬ h.Nested l l) ∧ (WellFounded fun b a => h.Holds a b) ∧
      (∀ elem, h.Settles (h.checkLevel elem) fun l => h.checkList l elem) ∧
      (∀ needle, h.Settles (h.searchLevel needle) fun l => h.listContains l needle) ∧
      ∀ l : ListId, l.index < h.lists.size →
        (∀ v, h.append l v = .error .selfContaining ↔ ∃ k, v = .listRef k ∧ h.Within k l) ∧
        (∀ v, h.append l v = .error .selfContaining ↔ ¬ (h.push l v).Untangled) ∧
        ∀ s, (h.commitInPlace s l).Holds = h.Holds := by
  refine ⟨fun s hs => hs.sound.heap, fun h hr => ?_⟩
  have hu := hr.untangled
  refine ⟨hu.not_transGen, hu.wellFounded, hu.settles_checkList, hu.settles_listContains,
    fun l hl => ?_⟩
  have hrefused : ∀ v, h.append l v = .error .selfContaining ↔
      ∃ k, v = .listRef k ∧ h.Within k l :=
    fun v => append_eq_selfContaining_iff.trans (closesCycle_iff hu)
  refine ⟨hrefused, fun v => ?_, fun s => holds_commitInPlace s hl⟩
  rw [hrefused, untangled_push_iff hu hl, not_not]

/-- A list, one that holds it twice, and one that holds that one. -/
def threeLevels : String :=
  "listOf Thing a = [1]; listOf Thing b = [a, a]; listOf Thing c = [b];"

/-- The innermost list may be appended to the outermost once more, and not the other way around. -/
theorem lists_never_contain_themselves_on_three_levels :
    ∃ s : Session, Session.bare.evalSource threeLevels = some (.ok (), s) ∧
      s.heap.Within ⟨2⟩ ⟨0⟩ ∧ ¬ s.heap.Within ⟨0⟩ ⟨2⟩ ∧
      s.heap.append ⟨0⟩ (.listRef ⟨2⟩) = .error .selfContaining ∧
      (s.heap.push ⟨2⟩ (.listRef ⟨0⟩)).Untangled := by
  obtain ⟨s, hrun, hs, hp⟩ := Session.exists_reached threeLevels
    (p := fun s => decide (2 < s.heap.lists.size ∧ (.listRef ⟨1⟩) ∈ (s.heap.list ⟨2⟩).items ∧
      (.listRef ⟨0⟩) ∈ (s.heap.list ⟨1⟩).items) &&
      (s.heap.append ⟨2⟩ (.listRef ⟨0⟩)).isOk)
    (by decide +kernel)
  obtain ⟨hlists, happended⟩ := Bool.and_eq_true_iff.1 hp
  obtain ⟨hsize, houter, hinner⟩ := of_decide_eq_true hlists
  have hlaw := lists_never_contain_themselves.2 s.heap (lists_never_contain_themselves.1 s hs)
  obtain ⟨-, -, -, -, hlists⟩ := hlaw
  obtain ⟨hdown, -, -⟩ := hlists ⟨0⟩ (Nat.zero_lt_of_lt hsize)
  obtain ⟨hup, hpush, -⟩ := hlists ⟨2⟩ hsize
  have hway : s.heap.Within ⟨2⟩ ⟨0⟩ := .head houter (.single hinner)
  have hfine : s.heap.append ⟨2⟩ (.listRef ⟨0⟩) ≠ .error .selfContaining := by
    intro he
    rw [he] at happended
    cases happended
  refine ⟨s, hrun, hway, fun hback => hfine ((hup _).2 ⟨⟨0⟩, rfl, hback⟩),
    (hdown _).2 ⟨⟨2⟩, rfl, hway⟩, ?_⟩
  by_contra hcycle
  exact hfine ((hpush _).2 hcycle)

end Ditlang
