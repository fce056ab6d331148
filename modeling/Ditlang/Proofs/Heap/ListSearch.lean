import Ditlang.Proofs.Heap.Assignment
import Ditlang.Proofs.Heap.ListGraph

/-!
# Ditlang.Proofs.Heap.ListSearch

The two searches through lists inside of lists: the check of a list against an element type, and the
search for one list inside another. Both are cut after as many levels as there are lists. Lists do
not contain themselves, so the cut changes nothing: the searches are what the same recursions without
a cut give (`Settles`), and these recursions end.

Then what appending refuses. It searches the value for the list, and so refuses exactly the values
that would put the list inside itself (`closesCycle_iff`, `untangled_push_iff`).
-/

namespace Ditlang
namespace Heap

variable {h : Heap} {α : Type}

/-! ## Searches level by level -/

/-- One level of the check of a list, where `inner` tells about the lists inside of it. -/
def checkLevel (h : Heap) (elem : TypeSpec) (inner : ListId → Option Mismatch) (l : ListId) :
    Option Mismatch :=
  let data := h.list l
  if elem = .thing then
    none
  else if data.elem ≠ .thing ∧ !h.elemFits data.elem elem then
    some (.element (h.typeLabel elem) (h.typeLabel data.elem))
  else
    data.items.findSome? fun item =>
      match item with
      | .null => none
      | .listRef k => inner k
      | _ =>
        if h.scalarFits item elem then none
        else some (.element (h.typeLabel elem) (h.valueLabel item))

/-- One level of the search for a list, where `inner` tells about the lists inside. -/
def searchLevel (h : Heap) (needle : ListId) (inner : ListId → Bool) (l : ListId) : Bool :=
  (h.list l).items.any fun item =>
    match item with
    | .listRef k => k == needle || inner k
    | _ => false

/-- A search that goes `n` levels deep, and takes `cut` for what lies below. -/
def deepen (level : (ListId → α) → ListId → α) (cut : α) : Nat → ListId → α
  | 0, _ => cut
  | n + 1, l => level (deepen level cut n) l

theorem listMismatch?_eq_deepen (elem : TypeSpec) (n : Nat) :
    h.listMismatch? elem n = deepen (h.checkLevel elem) none n := by
  induction n with
  | zero => rfl
  | succ n ih =>
    funext l
    rw [deepen, ← ih]
    rfl

theorem reachesWithin_eq_deepen (needle : ListId) (n : Nat) :
    h.reachesWithin needle n = deepen (h.searchLevel needle) false n := by
  induction n with
  | zero => rfl
  | succ n ih =>
    funext l
    rw [deepen, ← ih]
    rfl

/-- A search asks about no lists but those that are items of the list. -/
def AsksItems (h : Heap) (level : (ListId → α) → ListId → α) : Prop :=
  ∀ f g l, (∀ k, h.Holds l k → f k = g k) → level f l = level g l

theorem findSome?_congr {f g : Value → Option Mismatch} {items : List Value}
    (hfg : ∀ item ∈ items, f item = g item) : items.findSome? f = items.findSome? g := by
  induction items with
  | nil => rfl
  | cons item items ih =>
    rw [List.forall_mem_cons] at hfg
    rw [List.findSome?_cons, List.findSome?_cons, hfg.1, ih hfg.2]

theorem asksItems_checkLevel (elem : TypeSpec) : h.AsksItems (h.checkLevel elem) := by
  intro f g l hfg
  simp only [checkLevel]
  congr 2
  refine findSome?_congr fun item hitem => ?_
  cases item with
  | listRef k => exact hfg k hitem
  | _ => rfl

theorem asksItems_searchLevel (needle : ListId) : h.AsksItems (h.searchLevel needle) := by
  intro f g l hfg
  rw [searchLevel, searchLevel, Bool.eq_iff_iff, List.any_eq_true, List.any_eq_true]
  refine exists_congr fun item => and_congr_right fun hitem => ?_
  cases item with
  | listRef k => simp only [hfg k hitem]
  | _ => rfl

/-- A search that asks about items alone, on and on, has answers, and these are the only ones. -/
structure Settles (h : Heap) (level : (ListId → α) → ListId → α) (answer : ListId → α) : Prop where
  asks : h.AsksItems level
  iff : ∀ f : ListId → α, (∀ l, f l = level f l) ↔ f = answer

/-- From list to item a search goes down, and so it comes to an end. -/
theorem Untangled.wellFounded (hu : h.Untangled) : WellFounded fun b a => h.Holds a b := by
  obtain ⟨rank, -, hlt⟩ := hu.exists_rank
  exact Subrelation.wf (fun {b a} hab => hlt a b hab) (InvImage.wf rank Nat.lt_wfRel.wf)

section

variable {level : (ListId → α) → ListId → α}

/-- Beyond the rank of a list, a search that goes deeper finds nothing else. -/
theorem AsksItems.deepen_eq (ha : h.AsksItems level) {rank : ListId → Nat}
    (hlt : ∀ a b, h.Holds a b → rank b < rank a) (cut : α) {n m : Nat} {l : ListId}
    (hn : rank l < n) (hm : rank l < m) : deepen level cut n l = deepen level cut m l := by
  -- On the one depth, with the other depth free: both shrink by one, and so does the rank of an item.
  induction n generalizing m l with
  | zero => cases hn
  | succ n ih =>
    cases m with
    | zero => cases hm
    | succ m =>
      refine ha _ _ l fun k hk => ?_
      have hrank := hlt l k hk
      exact ih (by omega) (by omega)

/-- A search that goes as deep as there are lists is not cut. -/
theorem Untangled.settles (hu : h.Untangled) (ha : h.AsksItems level) (cut : α) :
    h.Settles level (deepen level cut (h.lists.size + 1)) := by
  obtain ⟨rank, hle, hlt⟩ := hu.exists_rank
  refine ⟨ha, fun f => ⟨fun hf => ?_, ?_⟩⟩
  · funext l
    induction l using hu.wellFounded.induction with
    | _ l ih =>
      calc f l = level f l := hf l
        _ = level (deepen level cut (h.lists.size + 1)) l := ha _ _ l ih
        _ = deepen level cut (h.lists.size + 2) l := rfl
        _ = deepen level cut (h.lists.size + 1) l :=
          ha.deepen_eq hlt cut (Nat.lt_succ_of_lt (hle l)) (hle l)
  · rintro rfl l
    exact ha.deepen_eq hlt cut (hle l) (Nat.lt_succ_of_lt (hle l))

end

/-- The check of a list is the one that looks through every list inside of it. -/
theorem Untangled.settles_checkList (hu : h.Untangled) (elem : TypeSpec) :
    h.Settles (h.checkLevel elem) fun l => h.checkList l elem := by
  have hsettles := hu.settles (asksItems_checkLevel elem) none
  rw [← listMismatch?_eq_deepen] at hsettles
  exact hsettles

/-- The search for a list is the one that looks through every list on the way. -/
theorem Untangled.settles_listContains (hu : h.Untangled) (needle : ListId) :
    h.Settles (h.searchLevel needle) fun l => h.listContains l needle := by
  have hsettles := hu.settles (asksItems_searchLevel needle) false
  rw [← reachesWithin_eq_deepen] at hsettles
  exact hsettles

/-- What a list holds does not depend on whether lists are committed where they are. -/
theorem holds_commitInPlace (s : SlotId) {l : ListId} (hl : l.index < h.lists.size) :
    (h.commitInPlace s l).Holds = h.Holds := by
  funext a b
  rw [Holds, list_commitInPlace hl]
  split
  · rename_i ha
    rw [← ha]
    rfl
  · rfl

/-! ## What may not be appended -/

theorem nested_of_reachesWithin {needle : ListId} {n : Nat} {l : ListId}
    (hl : h.reachesWithin needle n l = true) : h.Nested l needle := by
  induction n generalizing l with
  | zero => cases hl
  | succ n ih =>
    rw [reachesWithin, List.any_eq_true] at hl
    obtain ⟨item, hitem, hfound⟩ := hl
    cases item with
    | listRef k =>
      rcases Bool.or_eq_true_iff.1 hfound with heq | hdeep
      · exact .single (beq_iff_eq.1 heq ▸ hitem)
      · exact .head hitem (ih hdeep)
    | _ => cases hfound

/-- A value closes a cycle when it is the list, or a list that it lies inside of. -/
theorem closesCycle_iff (hu : h.Untangled) {l : ListId} {v : Value} :
    h.closesCycle l v = true ↔ ∃ k, v = .listRef k ∧ h.Within k l := by
  constructor
  · intro hc
    cases v with
    | listRef k =>
      rw [closesCycle, Bool.or_eq_true] at hc
      rcases hc with heq | hdeep
      · exact ⟨k, rfl, beq_iff_eq.1 heq ▸ .refl⟩
      · exact ⟨k, rfl, (nested_of_reachesWithin hdeep).to_reflTransGen⟩
    | _ => cases hc
  · rintro ⟨k, rfl, hkl⟩
    by_contra hc
    exact not_within_of_closesCycle hu (Bool.eq_false_iff.2 hc) hkl

theorem append_eq_selfContaining_iff {l : ListId} {v : Value} :
    h.append l v = .error .selfContaining ↔ h.closesCycle l v = true := by
  unfold append
  constructor
  · intro he
    by_contra hc
    simp only [if_neg hc] at he
    split at he
    · cases he
    · cases he
  · intro hc
    simp only [if_pos hc]

/-- The store after a value has been put at the end of a list, whatever the value is. -/
def push (h : Heap) (l : ListId) (v : Value) : Heap :=
  h.setList l { h.list l with items := (h.list l).items ++ [v] }

theorem holds_push_iff {l : ListId} (hl : l.index < h.lists.size) {v : Value} {a b : ListId} :
    (h.push l v).Holds a b ↔ h.Holds a b ∨ (a = l ∧ v = .listRef b) := by
  unfold Holds push
  rw [list_setList_eq]
  split
  · rename_i ha
    rw [← ha.1]
    simp [eq_comm]
  · rename_i ha
    refine ⟨.inl, fun hor => hor.resolve_right ?_⟩
    rintro ⟨rfl, -⟩
    exact ha ⟨rfl, hl⟩

/-- A value at the end of a list closes a cycle when the list lies inside of the value. -/
theorem untangled_push_iff (hu : h.Untangled) {l : ListId} (hl : l.index < h.lists.size) {v : Value} :
    (h.push l v).Untangled ↔ ¬ ∃ k, v = .listRef k ∧ h.Within k l := by
  constructor
  · rintro hpush ⟨k, rfl, hkl⟩
    have hback : (h.push l (.listRef k)).Within k l :=
      Relation.ReflTransGen.mono (fun _ _ hab => (holds_push_iff hl).2 (.inl hab)) _ _ hkl
    exact hpush l k ((holds_push_iff hl).2 (.inr ⟨rfl, rfl⟩)) hback
  · intro hno
    -- A list is one more edge, which closes no cycle; any other value is no edge at all.
    by_cases hlist : ∃ k, v = .listRef k
    · obtain ⟨k, rfl⟩ := hlist
      refine Graph.Acyclic.addEdge hu (fun hkl => hno ⟨k, rfl, hkl⟩) fun x y hxy => ?_
      exact ((holds_push_iff hl).1 hxy).imp_right fun hnew =>
        ⟨hnew.1, (Value.listRef.inj hnew.2).symm⟩
    · refine Graph.Acyclic.mono hu fun x y hxy => ?_
      exact ((holds_push_iff hl).1 hxy).resolve_right fun hnew => hlist ⟨y, hnew.2⟩

end Heap
end Ditlang
