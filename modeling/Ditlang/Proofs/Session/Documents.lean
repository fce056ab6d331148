import Ditlang.Proofs.Heap.Documents
import Ditlang.Proofs.Session.Reached

/-!
# Ditlang.Proofs.Session.Documents

JSON between a program and its guests. What a guest is told about a value and what is made of its
answer are two conversions, and each undoes the other: a value that a document can stand for comes back
as an equal value, and a document comes back with the same items, keys and numbers.
-/

namespace Ditlang

open Heap

/-- A portable value, which is built of null, texts, Booleans, finite numbers, untyped lists and JSON maps
without containing itself, has a document, and the value of this document equals it. A document in
which no object has a key twice and all numbers are finite is the same as the document of its value;
that one has its keys in order, and is the very same document if the first one has as well and none of
its numbers is an integer. -/
theorem json_documents_round_trip (h : Heap) :
    (∀ v, h.Portable v → ∃ j, h.toJson? v = some j ∧ (h.ofJson j).2.tree v = h.tree v ∧
      ((h.ofJson j).2.tree (h.ofJson j).1).same (h.tree v) = true) ∧
    ∀ j : Json, j.finite = true → j.keyed = true →
      ∃ j', (h.ofJson j).2.toJson? (h.ofJson j).1 = some j' ∧ j'.same j = true ∧ j'.sorted = true ∧
        (j.sorted = true → j.fractional = true → j' = j) := by
  refine ⟨fun v hv => ⟨_, hv.toJson?_eq, ?_, hv.same_ofJson⟩, fun j hf hk => ?_⟩
  · exact hv.tree_keptIn (reads_ofJson _ h).larger
  · refine ⟨_, toJson?_ofJson j h, j.same_toJson_tree _ hf hk, j.sorted_toJson_tree _ hk, ?_⟩
    exact fun hs hr => j.toJson_tree_eq _ hf hs hr

/-- A program that puts a list into a JSON map and another map into the list. -/
def documentProgram : String :=
  "JSON j = \x7b\"b\": [1, null, \x7b\"a\": \"x\"\x7d], a: true\x7d;"

/-- A document in which the keys of an object are not in order. -/
def unorderedDocument : Json :=
  .obj [("b", .arr [.null, .real (.ofInt 2)]), ("a", .int 3)]

theorem json_documents_round_trip_of_nested :
    ∃ s, Session.bare.evalSource documentProgram = some (.ok (), s) ∧ s.Reached ∧
      s.heap.value ⟨26⟩ = .jsonRef ⟨1⟩ ∧ s.heap.Portable (.jsonRef ⟨1⟩) ∧
      (∃ j, s.heap.toJson? (.jsonRef ⟨1⟩) = some j ∧
        (s.heap.ofJson j).2.tree (.jsonRef ⟨1⟩) = s.heap.tree (.jsonRef ⟨1⟩) ∧
        ((s.heap.ofJson j).2.tree (s.heap.ofJson j).1).same (s.heap.tree (.jsonRef ⟨1⟩)) = true) ∧
      unorderedDocument.finite = true ∧ unorderedDocument.keyed = true ∧
      ∃ j', (s.heap.ofJson unorderedDocument).2.toJson? (s.heap.ofJson unorderedDocument).1 = some j' ∧
        j'.same unorderedDocument = true ∧ j'.sorted = true := by
  obtain ⟨s, hrun, hs, hp⟩ := Session.exists_reached documentProgram
    (p := fun s => decide (s.heap.value ⟨26⟩ = .jsonRef ⟨1⟩ ∧ s.heap.lists.size = 1 ∧
      s.heap.maps.size = 2 ∧ (s.heap.list ⟨0⟩).elem = .thing ∧
      (s.heap.list ⟨0⟩).items = [.num (.ofInt 1), .null, .jsonRef ⟨0⟩] ∧
      (s.heap.map ⟨0⟩).entries = [("a", .str "x")] ∧
      (s.heap.map ⟨1⟩).entries = [("b", .listRef ⟨0⟩), ("a", .bool true)]))
    (by decide +kernel)
  obtain ⟨hv, hlists, hmaps, he, hitems, hinner, houter⟩ := of_decide_eq_true hp
  have hleaf : s.heap.Portable (.jsonRef ⟨0⟩) := by
    refine .json (by rw [hmaps]; decide) (by rw [OrderedMap.keys, hinner]; decide) ?_
    rw [hinner, List.forall_mem_singleton]
    exact .str _
  have hlist : s.heap.Portable (.listRef ⟨0⟩) := by
    refine .list (by rw [hlists]; decide) he ?_
    rw [hitems, List.forall_mem_cons, List.forall_mem_cons, List.forall_mem_singleton]
    exact ⟨.num (by decide +kernel), .null, hleaf⟩
  have hportable : s.heap.Portable (.jsonRef ⟨1⟩) := by
    refine .json (by rw [hmaps]; decide) (by rw [OrderedMap.keys, houter]; decide) ?_
    rw [houter, List.forall_mem_cons, List.forall_mem_singleton]
    exact ⟨hlist, .bool _⟩
  have hf : unorderedDocument.finite = true := by decide +kernel
  have hk : unorderedDocument.keyed = true := by decide +kernel
  obtain ⟨j', hback, hsame, hsorted, -⟩ :=
    (json_documents_round_trip s.heap).2 unorderedDocument hf hk
  exact ⟨s, hrun, hs, hv, hportable, (json_documents_round_trip s.heap).1 _ hportable, hf, hk, j', hback,
    hsame, hsorted⟩

end Ditlang
