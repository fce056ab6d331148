import Mathlib.Data.Finset.Card
import Mathlib.Data.Finset.Preimage
import Mathlib.Data.Finset.Range
import Mathlib.Logic.Relation

/-!
# Ditlang.Proofs.Graph

Graphs without cycles. Two graphs of a store grow while a program runs and must not close a cycle:
the classes under their parents, and the lists under the lists inside of them. Both get their edges
one at a time, and both are searched with a bound on the depth.

* `Acyclic.antisymm`: reachability is a partial order.
* `Acyclic.addEdge`: an edge without a way back closes no cycle.
* `Acyclic.exists_rank`: the nodes can be ranked below the number of those that have edges, so that
  every edge goes down. A search that goes as deep misses nothing.
-/

namespace Ditlang
namespace Graph

open Relation (ReflTransGen)

variable {α : Type} {r r' : α → α → Prop}

/-- No edge has a way back. -/
def Acyclic (r : α → α → Prop) : Prop :=
  ∀ a b, r a b → ¬ ReflTransGen r b a

/-- A path in a graph with one more edge either is an old path or passes the new edge. -/
theorem reflTransGen_of_addEdge {c d : α} (hr : ∀ x y, r' x y → r x y ∨ (x = c ∧ y = d)) {x y : α}
    (hxy : ReflTransGen r' x y) :
    ReflTransGen r x y ∨ (ReflTransGen r x c ∧ ReflTransGen r d y) := by
  induction hxy with
  | refl => exact .inl .refl
  | tail _ hedge ih =>
    rcases hr _ _ hedge with hold | ⟨rfl, rfl⟩
    · rcases ih with hx | ⟨hx, hy⟩
      · exact .inl (.tail hx hold)
      · exact .inr ⟨hx, .tail hy hold⟩
    · rcases ih with hx | ⟨hx, _⟩
      · exact .inr ⟨hx, .refl⟩
      · exact .inr ⟨hx, .refl⟩

namespace Acyclic

theorem mono (ha : Acyclic r) (hr : ∀ x y, r' x y → r x y) : Acyclic r' :=
  fun x y hxy hyx => ha x y (hr x y hxy) (ReflTransGen.mono hr y x hyx)

theorem not_transGen (ha : Acyclic r) (x : α) : ¬ Relation.TransGen r x x := by
  intro hcycle
  obtain ⟨y, hxy, hyx⟩ := Relation.TransGen.head'_iff.1 hcycle
  exact ha x y hxy hyx

/-- Two nodes on a way to each other are the same. -/
theorem antisymm (ha : Acyclic r) {x y : α} (hxy : ReflTransGen r x y) (hyx : ReflTransGen r y x) :
    x = y := by
  rcases ReflTransGen.cases_head hxy with rfl | ⟨z, hxz, hzy⟩
  · rfl
  · exact absurd (hzy.trans hyx) (ha x z hxz)

theorem addEdge (ha : Acyclic r) {c d : α} (hnew : ¬ ReflTransGen r d c)
    (hr : ∀ x y, r' x y → r x y ∨ (x = c ∧ y = d)) : Acyclic r' := by
  intro x y hxy hcycle
  have hor := reflTransGen_of_addEdge hr hcycle
  rcases hr x y hxy with hold | ⟨rfl, rfl⟩
  · rcases hor with hyx | ⟨hyc, hdx⟩
    · exact ha x y hold hyx
    · exact hnew ((hdx.tail hold).trans hyc)
  · rcases hor with hyx | ⟨_, hyx⟩
    · exact hnew hyx
    · exact hnew hyx

/-- A graph in which one can only go on for so long has no cycle. -/
theorem of_wellFounded (hw : WellFounded fun b a => r a b) : Acyclic r := by
  intro a b hab hba
  have hcycle : Relation.TransGen r a a := .head' hab hba
  rw [← Relation.transGen_swap] at hcycle
  exact hw.transGen.irrefl.irrefl a hcycle

open Classical in
/-- The nodes of a set that can be reached from a node. -/
noncomputable def reachedFrom (r : α → α → Prop) (sources : Finset α) (a : α) : Finset α :=
  sources.filter fun x => ReflTransGen r a x

theorem mem_reachedFrom {sources : Finset α} {a x : α} :
    x ∈ reachedFrom r sources a ↔ x ∈ sources ∧ ReflTransGen r a x := by
  simp only [reachedFrom, Finset.mem_filter]

/-- Nodes are ranked by how many of those with edges can be reached. -/
theorem exists_rank_of_sources (ha : Acyclic r) (sources : Finset α)
    (hs : ∀ a b, r a b → a ∈ sources) :
    ∃ rank : α → Nat, (∀ a, rank a ≤ sources.card) ∧ ∀ a b, r a b → rank b < rank a := by
  refine ⟨fun a => (reachedFrom r sources a).card, fun a => ?_, fun a b hab => ?_⟩
  · exact Finset.card_le_card fun x hx => (mem_reachedFrom.1 hx).1
  · have hsub : reachedFrom r sources b ⊆ reachedFrom r sources a := by
      intro x hx
      obtain ⟨hmem, hbx⟩ := mem_reachedFrom.1 hx
      exact mem_reachedFrom.2 ⟨hmem, .head hab hbx⟩
    have hself : a ∈ reachedFrom r sources a := mem_reachedFrom.2 ⟨hs a b hab, .refl⟩
    have hnot : a ∉ reachedFrom r sources b := fun hmem => ha a b hab (mem_reachedFrom.1 hmem).2
    exact Finset.card_lt_card ⟨hsub, fun hsup => hnot (hsup hself)⟩

/-- Nodes that are numbered are ranked below the number of those that have edges. -/
theorem exists_rank (ha : Acyclic r) (index : α → Nat) (hinj : ∀ a b, index a = index b → a = b)
    {n : Nat} (hn : ∀ a b, r a b → index a < n) :
    ∃ rank : α → Nat, (∀ a, rank a ≤ n) ∧ ∀ a b, r a b → rank b < rank a := by
  have hon : Set.InjOn index (Set.preimage index (Finset.range n)) := fun a _ b _ => hinj a b
  obtain ⟨rank, hle, hlt⟩ := ha.exists_rank_of_sources ((Finset.range n).preimage index hon)
    fun a b hab => Finset.mem_preimage.2 (Finset.mem_range.2 (hn a b hab))
  have hcard : ((Finset.range n).preimage index hon).card ≤ (Finset.range n).card :=
    Finset.card_le_card_of_injOn index (fun _ hx => Finset.mem_preimage.1 hx) fun a _ b _ => hinj a b
  rw [Finset.card_range] at hcard
  exact ⟨rank, fun a => (hle a).trans hcard, hlt⟩

end Acyclic
end Graph
end Ditlang
