import Ditlang.Heap.Tree
import Ditlang.Proofs.Graph
import Ditlang.Proofs.Heap.Properties
import Ditlang.Proofs.Json.Documents

/-!
# Ditlang.Proofs.Heap.Documents

Values and JSON documents. Both are read through trees: a document has a tree (`Json.tree`), which is
the tree of the value that is made of it (`tree_ofJson`), and the document of that tree is the document
again, with its fields in order (`same_toJson_tree`). A `Portable` value is one that a document can stand
for. It does not contain itself, so that nothing of it is cut (`Portable.complete`), and the tree of its
document is the same as its own (`Portable.same_unfold`).
-/

namespace Ditlang

theorem Number.same_self {x : Number} (hx : x.isFinite = true) : x.same x = true := by
  have hlt : x.unsignedBits < 2047 * Number.twoTo 52 := of_decide_eq_true hx
  have hn : x.isNaN = false := decide_eq_false (by omega)
  simp [Number.same, hn]

/-! ## Entries with other values -/

section

variable {α β : Type} (f : α → β)

theorem map_fst_map (es : List (String × α)) :
    (es.map fun e => (e.1, f e.2)).map Prod.fst = es.map Prod.fst := by
  rw [List.map_map]
  rfl

namespace OrderedMap

theorem insertInto_map (key : String) (value : α) (es : List (String × α)) :
    insertInto key (f value) (es.map fun e => (e.1, f e.2)) =
      (insertInto key value es).map fun e => (e.1, f e.2) := by
  induction es with
  | nil => rfl
  | cons e es ih =>
    rw [List.map_cons, insertInto, insertInto, ih]
    split <;> rfl

theorem entries_ofList_map (es : List (String × α)) :
    (ofList (es.map fun e => (e.1, f e.2))).entries =
      (ofList es).entries.map fun e => (e.1, f e.2) := by
  induction es using List.reverseRecOn with
  | nil => rfl
  | append_singleton es e ih =>
    rw [List.map_append, List.map_singleton, ofList_concat, ofList_concat]
    exact (congrArg (insertInto e.1 (f e.2)) ih).trans (insertInto_map f _ _ _)

end OrderedMap

end

/-! ## Trees -/

namespace Tree

theorem completeAll_iff {ts : List Tree} : completeAll ts = true ↔ ∀ t ∈ ts, t.complete = true := by
  induction ts with
  | nil => simp [completeAll]
  | cons t ts ih => rw [completeAll, Bool.and_eq_true, ih, List.forall_mem_cons]

theorem completeEntries_iff {es : List (String × Tree)} :
    completeEntries es = true ↔ ∀ e ∈ es, e.2.complete = true := by
  induction es with
  | nil => simp [completeEntries]
  | cons e es ih => rw [completeEntries, Bool.and_eq_true, ih, List.forall_mem_cons]

theorem itemsToJson_eq_map (h : Heap) (ts : List Tree) : itemsToJson h ts = ts.map (toJson h) := by
  induction ts with
  | nil => rfl
  | cons t ts ih => rw [itemsToJson, ih, List.map_cons]

theorem entriesToJson_eq_map (h : Heap) (es : List (String × Tree)) :
    entriesToJson h es = es.map fun e => (e.1, e.2.toJson h) := by
  induction es with
  | nil => rfl
  | cons e es ih => rw [entriesToJson, ih, List.map_cons]

theorem sameItems_map {α : Type} {f g : α → Tree} {xs : List α}
    (hfg : ∀ x ∈ xs, (f x).same (g x) = true) : sameItems (xs.map f) (xs.map g) = true := by
  induction xs with
  | nil => rfl
  | cons x xs ih =>
    rw [List.forall_mem_cons] at hfg
    rw [List.map_cons, List.map_cons, sameItems, hfg.1, ih hfg.2, Bool.and_self]

theorem sameEntries_of_lookup {as bs : List (String × Tree)}
    (hab : ∀ e ∈ as, ∃ b, bs.lookup e.1 = some b ∧ e.2.same b = true) :
    sameEntries as bs = true := by
  induction as with
  | nil => rfl
  | cons e as ih =>
    rw [List.forall_mem_cons] at hab
    obtain ⟨⟨b, hb, hsame⟩, hrest⟩ := hab
    simp only [sameEntries, hb, hsame, ih hrest, Bool.and_self]

end Tree

/-! ## The tree of a document -/

namespace Json

mutual

/-- The tree of the value of a document. -/
def tree : Json → Tree
  | .null => .null
  | .bool b => .bool b
  | .int n => .num (.ofInt n)
  | .real x => .num x
  | .str s => .str s
  | .arr items => .list .thing (itemTrees items)
  | .obj fields => .json (OrderedMap.ofList (fieldTrees fields)).entries

def itemTrees : List Json → List Tree
  | [] => []
  | j :: rest => j.tree :: itemTrees rest

def fieldTrees : List (String × Json) → List (String × Tree)
  | [] => []
  | (k, j) :: rest => (k, j.tree) :: fieldTrees rest

end

theorem itemTrees_eq_map (items : List Json) : itemTrees items = items.map tree := by
  induction items with
  | nil => rfl
  | cons j rest ih => rw [itemTrees, ih, List.map_cons]

theorem fieldTrees_eq_map (fields : List (String × Json)) :
    fieldTrees fields = fields.map fun f => (f.1, f.2.tree) := by
  induction fields with
  | nil => rfl
  | cons f rest ih => rw [fieldTrees, ih, List.map_cons]

theorem tree_arr (items : List Json) : (arr items).tree = .list .thing (items.map tree) := by
  rw [tree, itemTrees_eq_map]

theorem tree_obj {fields : List (String × Json)} (hn : (fields.map Prod.fst).Nodup) :
    (obj fields).tree = .json (fields.map fun f => (f.1, f.2.tree)) := by
  have hkeys : (OrderedMap.mk (fields.map fun f => (f.1, f.2.tree))).keys.Nodup := by
    rwa [OrderedMap.keys, map_fst_map]
  rw [tree, fieldTrees_eq_map, OrderedMap.ofList_entries hkeys]

theorem complete_tree (j : Json) : j.tree.complete = true := by
  induction j using nestedInduction with
  | arr items ih =>
    rw [tree_arr, Tree.complete, Tree.completeAll_iff]
    exact List.forall_mem_map.2 ih
  | obj fields ih =>
    have hall : (OrderedMap.ofList (fieldTrees fields)).All fun t => t.complete = true := by
      rw [fieldTrees_eq_map]
      exact .ofList (List.forall_mem_map.2 ih)
    rw [tree, Tree.complete, Tree.completeEntries_iff]
    exact hall
  | _ => rfl

end Json

/-! ## The document of the tree of a document -/

namespace Tree

/-- The entries of a map with different keys become the fields of its document. -/
theorem exists_toJson_json (h : Heap) {es : List (String × Tree)} (hn : (es.map Prod.fst).Nodup) :
    ∃ fields, (json es).toJson h = .obj fields ∧
      (fields.map Prod.fst).Pairwise (· < ·) ∧
      fields.Perm (es.map fun e => (e.1, e.2.toJson h)) := by
  have hkeys : ((es.map fun e => (e.1, e.2.toJson h)).map Prod.fst).Nodup := by
    rwa [map_fst_map]
  refine ⟨Json.sortFields (es.map fun e => (e.1, e.2.toJson h)), ?_, Json.pairwise_sortFields _,
    Json.sortFields_perm hkeys⟩
  rw [toJson, entriesToJson_eq_map, Json.object_eq]

end Tree

namespace Json

theorem toJson_num_of_finite {x : Number} (h : Heap) (hx : x.isFinite = true) :
    (Tree.num x).toJson h = .real x := by
  rw [Tree.toJson, if_pos hx]

/-- What comes back for a document without a key twice and with finite numbers is the same document. -/
theorem same_toJson_tree (h : Heap) {j : Json} (hf : j.finite = true) (hk : j.keyed = true) :
    (j.tree.toJson h).same j = true := by
  induction j using nestedInduction with
  | null => rfl
  | bool b => simp [tree, Tree.toJson, same]
  | str s => simp [tree, Tree.toJson, same]
  | int n =>
    have hn : (Number.ofInt n).isFinite = true := hf
    simp [tree, Tree.toJson, hn, same, number?]
  | real x =>
    have hx : x.isFinite = true := hf
    simp [tree, Tree.toJson, hx, same, number?]
  | arr items ih =>
    have hf := (all_arr_iff.1 hf).2
    have hk := (all_arr_iff.1 hk).2
    rw [tree_arr, Tree.toJson, Tree.itemsToJson_eq_map, List.map_map, same]
    have hitems := sameItems_map (g := id) fun i hi => ih i hi (hf i hi) (hk i hi)
    rwa [List.map_id] at hitems
  | obj fields ih =>
    obtain ⟨hn, hk⟩ := all_obj_iff.1 hk
    have hn := of_decide_eq_true hn
    have hf := (all_obj_iff.1 hf).2
    have hn' : ((fields.map fun f => (f.1, f.2.tree)).map Prod.fst).Nodup := by
      rwa [map_fst_map]
    obtain ⟨back, he, -, hperm⟩ := Tree.exists_toJson_json h hn'
    rw [tree_obj hn, he, same, Bool.and_eq_true]
    refine ⟨by simp [hperm.length_eq], sameFields_of_lookup fun g hg => ?_⟩
    obtain ⟨f, hfmem, rfl⟩ : ∃ f ∈ fields, (f.1, f.2.tree.toJson h) = g := by
      simpa using hperm.mem_iff.1 hg
    exact ⟨f.2, OrderedMap.get?_of_mem (m := ⟨fields⟩) hn hfmem, ih f hfmem (hf f hfmem) (hk f hfmem)⟩

/-- What comes back for a document in which keys are in order and numbers are not integers is that
document. -/
theorem toJson_tree_eq (h : Heap) {j : Json} (hf : j.finite = true) (hs : j.sorted = true)
    (hr : j.fractional = true) : j.tree.toJson h = j := by
  induction j using nestedInduction with
  | null => rfl
  | bool b => rfl
  | str s => rfl
  | int n => cases hr
  | real x => exact toJson_num_of_finite h hf
  | arr items ih =>
    have hf := (all_arr_iff.1 hf).2
    have hs := (all_arr_iff.1 hs).2
    have hr := (all_arr_iff.1 hr).2
    rw [tree_arr, Tree.toJson, Tree.itemsToJson_eq_map, List.map_map]
    congr 1
    exact (List.map_congr_left fun i hi => ih i hi (hf i hi) (hs i hi) (hr i hi)).trans (List.map_id _)
  | obj fields ih =>
    obtain ⟨hp, hs⟩ := all_obj_iff.1 hs
    have hp := of_decide_eq_true hp
    have hf := (all_obj_iff.1 hf).2
    have hr := (all_obj_iff.1 hr).2
    have hback : (fields.map fun f => (f.1, f.2.tree)).map (fun e => (e.1, e.2.toJson h)) = fields := by
      rw [List.map_map]
      refine (List.map_congr_left fun f hm => ?_).trans (List.map_id _)
      exact congrArg (Prod.mk f.1) (ih f hm (hf f hm) (hs f hm) (hr f hm))
    rw [tree_obj (nodup_of_pairwise hp), Tree.toJson, Tree.entriesToJson_eq_map, hback, object_eq,
      sortFields_of_pairwise hp]

/-- The document of a value has the keys of every object in order. -/
theorem sorted_toJson_tree (h : Heap) {j : Json} (hk : j.keyed = true) :
    (j.tree.toJson h).sorted = true := by
  induction j using nestedInduction with
  | int n =>
    rw [tree, Tree.toJson]
    split <;> rfl
  | real x =>
    rw [tree, Tree.toJson]
    split <;> rfl
  | arr items ih =>
    have hk := (all_arr_iff.1 hk).2
    rw [tree_arr, Tree.toJson, Tree.itemsToJson_eq_map, List.map_map]
    refine all_arr_iff.2 ⟨rfl, List.forall_mem_map.2 fun i hi => ih i hi (hk i hi)⟩
  | obj fields ih =>
    obtain ⟨hn, hk⟩ := all_obj_iff.1 hk
    have hn := of_decide_eq_true hn
    have hn' : ((fields.map fun f => (f.1, f.2.tree)).map Prod.fst).Nodup := by
      rwa [map_fst_map]
    obtain ⟨back, he, hp, hperm⟩ := Tree.exists_toJson_json h hn'
    rw [tree_obj hn, he]
    refine all_obj_iff.2 ⟨decide_eq_true hp, fun g hg => ?_⟩
    obtain ⟨f, hmem, rfl⟩ : ∃ f ∈ fields, (f.1, f.2.tree.toJson h) = g := by
      simpa using hperm.mem_iff.1 hg
    exact ih f hmem (hk f hmem)
  | _ => rfl

end Json

namespace Heap

variable {h h' g : Heap}

/-! ## Portable values -/

/-- A value a JSON document can stand for: null, a text, a Boolean, a finite number, or an untyped
list or a JSON map of such values. A list or map is there, and a map has no key twice. Values are
portable by a finite argument, so none contains itself. -/
inductive Portable (h : Heap) : Value → Prop where
  | null : Portable h .null
  | str (s : String) : Portable h (.str s)
  | bool (b : Bool) : Portable h (.bool b)
  | num {x : Number} : x.isFinite = true → Portable h (.num x)
  | list {l : ListId} : l.index < h.lists.size → (h.list l).elem = .thing →
      (∀ v ∈ (h.list l).items, Portable h v) → Portable h (.listRef l)
  | json {m : MapId} : m.index < h.maps.size → (h.map m).keys.Nodup →
      (∀ e ∈ (h.map m).entries, Portable h e.2) → Portable h (.jsonRef m)

/-- Value `w` is an item of the list `v`, or stands in the JSON map `v`. -/
def Contains (h : Heap) : Value → Value → Prop
  | .listRef l, w => w ∈ (h.list l).items
  | .jsonRef m, w => w ∈ (h.map m).entries.map Prod.snd
  | _, _ => False

/-- How many lists and maps there are. -/
def nodes (h : Heap) : Nat :=
  h.lists.size + h.maps.size

theorem tree_eq (v : Value) : h.tree v = h.unfold (h.nodes + 1) v := rfl

/-- The lists and maps that are there. -/
def shared (h : Heap) : Finset Value :=
  (Finset.range h.lists.size).image (fun n => .listRef ⟨n⟩) ∪
    (Finset.range h.maps.size).image fun n => .jsonRef ⟨n⟩

theorem card_shared_le (h : Heap) : h.shared.card ≤ h.nodes := by
  refine (Finset.card_union_le _ _).trans (Nat.add_le_add ?_ ?_)
  · exact Finset.card_image_le.trans (Finset.card_range _).le
  · exact Finset.card_image_le.trans (Finset.card_range _).le

namespace Portable

theorem mem_shared {v w : Value} (hv : h.Portable v) (hw : h.Contains v w) : v ∈ h.shared := by
  cases hv with
  | list hl => exact Finset.mem_union_left _ (Finset.mem_image.2 ⟨_, Finset.mem_range.2 hl, rfl⟩)
  | json hm => exact Finset.mem_union_right _ (Finset.mem_image.2 ⟨_, Finset.mem_range.2 hm, rfl⟩)
  | _ => cases hw

/-- Whoever goes into a portable value, and on into what is in there, comes to an end. -/
theorem acc {v : Value} (hv : h.Portable v) :
    Acc (fun w v => h.Portable v ∧ h.Contains v w) v := by
  induction hv with
  | list _ _ _ ih => exact ⟨_, fun w hw => ih w hw.2⟩
  | json _ _ _ ih =>
    refine ⟨_, fun w hw => ?_⟩
    obtain ⟨e, he, rfl⟩ := List.mem_map.1 hw.2
    exact ih e he
  | _ => exact ⟨_, fun w hw => nomatch hw.2⟩

theorem acyclic (h : Heap) : Graph.Acyclic fun v w => h.Portable v ∧ h.Contains v w := by
  refine .of_wellFounded ⟨fun v => ?_⟩
  by_cases hv : h.Portable v
  · exact hv.acc
  · exact ⟨_, fun w hw => absurd hw.1 hv⟩

theorem exists_rank (h : Heap) :
    ∃ rank : Value → Nat, (∀ v, rank v ≤ h.nodes) ∧
      ∀ v w, h.Portable v → h.Contains v w → rank w < rank v := by
  obtain ⟨rank, hle, hlt⟩ := (acyclic h).exists_rank_of_sources h.shared
    fun v w hvw => hvw.1.mem_shared hvw.2
  exact ⟨rank, fun v => (hle v).trans h.card_shared_le, fun v w hv hvw => hlt v w ⟨hv, hvw⟩⟩

/-- What is unfolded completely is unfolded by at least one level. -/
theorem exists_succ_of_complete {v : Value} {n : Nat} (hn : (h.unfold n v).complete = true) :
    ∃ k, n = k + 1 := by
  cases n with
  | zero => cases hn
  | succ n => exact ⟨n, rfl⟩

/-- What is unfolded completely is the same however much deeper one goes. -/
theorem unfold_of_complete {v : Value} {n m : Nat} (hn : (h.unfold n v).complete = true)
    (hm : n ≤ m) : h.unfold m v = h.unfold n v := by
  induction n generalizing m v with
  | zero => cases hn
  | succ n ih =>
    obtain ⟨m, rfl⟩ : ∃ k, m = k + 1 := ⟨m - 1, by omega⟩
    cases v with
    | listRef l =>
      rw [unfold, Tree.complete, Tree.completeAll_iff, List.forall_mem_map] at hn
      exact congrArg (Tree.list _) (List.map_congr_left fun w hw => ih (hn w hw) (by omega))
    | jsonRef k =>
      rw [unfold, Tree.complete, Tree.completeEntries_iff, List.forall_mem_map] at hn
      exact congrArg Tree.json
        (List.map_congr_left fun e he => congrArg (Prod.mk e.1) (ih (hn e he) (by omega)))
    | _ => rfl

/-- A portable value is unfolded completely when one goes deeper than its rank. -/
theorem complete_unfold {rank : Value → Nat}
    (hrank : ∀ v w, h.Portable v → h.Contains v w → rank w < rank v) {v : Value} (hv : h.Portable v)
    {n : Nat} (hn : rank v < n) : (h.unfold n v).complete = true := by
  obtain ⟨n, rfl⟩ : ∃ k, n = k + 1 := ⟨n - 1, by omega⟩
  induction hv generalizing n with
  | list hl he hi ih =>
    rw [unfold, Tree.complete, Tree.completeAll_iff]
    refine List.forall_mem_map.2 fun w hw => ?_
    have hlt := hrank _ w (.list hl he hi) hw
    obtain ⟨k, rfl⟩ : ∃ k, n = k + 1 := ⟨n - 1, by omega⟩
    exact ih w hw k (by omega)
  | json hm hk hi ih =>
    rw [unfold, Tree.complete, Tree.completeEntries_iff]
    refine List.forall_mem_map.2 fun e he => ?_
    have hlt := hrank _ e.2 (.json hm hk hi) (List.mem_map_of_mem he)
    obtain ⟨k, rfl⟩ : ∃ k, n = k + 1 := ⟨n - 1, by omega⟩
    exact ih e he k (by omega)
  | _ => rfl

/-- Nothing is cut from a portable value. -/
theorem complete {v : Value} (hv : h.Portable v) : (h.tree v).complete = true := by
  obtain ⟨rank, hle, hrank⟩ := exists_rank h
  exact hv.complete_unfold hrank (Nat.lt_succ_of_le (hle v))

/-- The value that comes back for the document of a portable value has the same tree. -/
theorem same_unfold {v : Value} (hv : h.Portable v) {n : Nat} (hn : (h.unfold n v).complete = true)
    (g : Heap) : ((h.unfold n v).toJson g).tree.same (h.unfold n v) = true := by
  obtain ⟨n, rfl⟩ := exists_succ_of_complete hn
  induction hv generalizing n with
  | null => rfl
  | str s => simp [unfold, Tree.toJson, Json.tree, Tree.same]
  | bool b => simp [unfold, Tree.toJson, Json.tree, Tree.same]
  | num hx => rw [unfold, Json.toJson_num_of_finite g hx, Json.tree, Tree.same, Number.same_self hx]
  | list _ he _ ih =>
    rw [unfold, Tree.complete, Tree.completeAll_iff, List.forall_mem_map] at hn
    rw [unfold, he, Tree.toJson, Tree.itemsToJson_eq_map, List.map_map, Json.tree_arr, List.map_map,
      Tree.same, Bool.and_eq_true]
    refine ⟨beq_self_eq_true _, Tree.sameItems_map fun w hw => ?_⟩
    obtain ⟨k, rfl⟩ := exists_succ_of_complete (hn w hw)
    exact ih w hw k (hn w hw)
  | @json m _ hk _ ih =>
    rw [unfold, Tree.complete, Tree.completeEntries_iff, List.forall_mem_map] at hn
    have hkeys : (((h.map m).entries.map fun e => (e.1, h.unfold n e.2)).map Prod.fst).Nodup := by
      rwa [map_fst_map]
    obtain ⟨fields, he, hp, hperm⟩ := Tree.exists_toJson_json g hkeys
    rw [unfold, he, Json.tree_obj (Json.nodup_of_pairwise hp), Tree.same, Bool.and_eq_true]
    refine ⟨by simp [hperm.length_eq], Tree.sameEntries_of_lookup (List.forall_mem_map.2 ?_)⟩
    intro f hf
    obtain ⟨e, hmem, rfl⟩ : ∃ e ∈ (h.map m).entries, (e.1, (h.unfold n e.2).toJson g) = f := by
      simpa using hperm.mem_iff.1 hf
    obtain ⟨k, rfl⟩ := exists_succ_of_complete (hn e hmem)
    refine ⟨_, OrderedMap.get?_of_mem (m := ⟨_⟩) hkeys ?_, ih e hmem k (hn e hmem)⟩
    exact List.mem_map_of_mem hmem

end Portable

/-! ## The value of a document -/

/-- The lists and maps of a store are there in a second one as they are. -/
structure KeptIn (h g : Heap) : Prop where
  lists : h.lists.size ≤ g.lists.size
  maps : h.maps.size ≤ g.maps.size
  list : ∀ l : ListId, l.index < h.lists.size → g.list l = h.list l
  map : ∀ m : MapId, m.index < h.maps.size → g.map m = h.map m

namespace KeptIn

theorem refl (h : Heap) : h.KeptIn h :=
  ⟨Nat.le_refl _, Nat.le_refl _, fun _ _ => rfl, fun _ _ => rfl⟩

theorem trans (hg : h.KeptIn g) (hg' : g.KeptIn h') : h.KeptIn h' where
  lists := hg.lists.trans hg'.lists
  maps := hg.maps.trans hg'.maps
  list l hl := (hg'.list l (hl.trans_le hg.lists)).trans (hg.list l hl)
  map m hm := (hg'.map m (hm.trans_le hg.maps)).trans (hg.map m hm)

theorem newList (h : Heap) (elem : TypeSpec) (items : List Value) :
    h.KeptIn (h.newList elem items).2 where
  lists := by simp [Heap.newList]
  maps := Nat.le_refl _
  list l hl := by rw [list_newList, if_neg (Nat.ne_of_lt hl)]
  map _ _ := rfl

theorem newMap (h : Heap) (m : OrderedMap Value) : h.KeptIn (h.newMap m).2 where
  lists := Nat.le_refl _
  maps := by simp [Heap.newMap]
  list _ _ := rfl
  map k hk := by rw [map_newMap, if_neg (Nat.ne_of_lt hk)]

theorem nodes_le (hg : h.KeptIn g) : h.nodes ≤ g.nodes :=
  Nat.add_le_add hg.lists hg.maps

end KeptIn

/-- A portable value is unfolded in a larger store as before. -/
theorem Portable.unfold_keptIn {v : Value} (hv : h.Portable v) (hg : h.KeptIn g) (n : Nat) :
    g.unfold n v = h.unfold n v := by
  induction hv generalizing n with
  | @list l hl _ _ ih =>
    cases n with
    | zero => rfl
    | succ n =>
      rw [unfold, unfold, hg.list l hl]
      exact congrArg (Tree.list _) (List.map_congr_left fun w hw => ih w hw n)
  | @json m hm _ _ ih =>
    cases n with
    | zero => rfl
    | succ n =>
      rw [unfold, unfold, hg.map m hm]
      exact congrArg Tree.json (List.map_congr_left fun e he => congrArg (Prod.mk e.1) (ih e he n))
  | _ => cases n <;> rfl

@[simp] theorem nodes_newList (elem : TypeSpec) (items : List Value) :
    (h.newList elem items).2.nodes = h.nodes + 1 := by
  simp only [nodes, newList, Array.size_push]
  omega

@[simp] theorem nodes_newMap (m : OrderedMap Value) : (h.newMap m).2.nodes = h.nodes + 1 := by
  simp only [nodes, newMap, Array.size_push]
  omega

/-- The new list is the one that was made, in every larger store. -/
theorem KeptIn.list_new {elem : TypeSpec} {items : List Value}
    (hg : (h.newList elem items).2.KeptIn g) :
    g.list (h.newList elem items).1 = ⟨elem, items⟩ := by
  rw [hg.list _ (by simp [Heap.newList]), list_newList]
  exact if_pos rfl

/-- The new map is the one that was made, in every larger store. -/
theorem KeptIn.map_new {m : OrderedMap Value} (hg : (h.newMap m).2.KeptIn g) :
    g.map (h.newMap m).1 = m := by
  rw [hg.map _ (by simp [Heap.newMap]), map_newMap]
  exact if_pos rfl

/-- The value `v` of a document, made on the way from one store to another, has the tree of the
document in every larger store, when one goes deeper than the number of lists and maps that were
made. -/
structure Reads (h : Heap) (j : Json) (v : Value) (h' : Heap) : Prop where
  larger : h.KeptIn h'
  unfold_eq : ∀ g n, h'.KeptIn g → h'.nodes < h.nodes + n → g.unfold n v = j.tree

theorem Reads.leaf {j : Json} {v : Value} (hj : ∀ n, h.unfold (n + 1) v = j.tree)
    (hv : ∀ g : Heap, ∀ n, g.unfold n v = h.unfold n v) : h.Reads j v h := by
  refine ⟨.refl h, fun g n _ hn => ?_⟩
  obtain ⟨n, rfl⟩ : ∃ k, n = k + 1 := ⟨n - 1, by omega⟩
  rw [hv, hj]

theorem reads_ofJsonItems {items : List Json}
    (ih : ∀ j ∈ items, ∀ h : Heap, h.Reads j (h.ofJson j).1 (h.ofJson j).2) (h : Heap) :
    h.KeptIn (h.ofJsonItems items).2 ∧
      ∀ g n, (h.ofJsonItems items).2.KeptIn g → (h.ofJsonItems items).2.nodes < h.nodes + n →
        (h.ofJsonItems items).1.map (g.unfold n) = items.map Json.tree := by
  induction items generalizing h with
  | nil => exact ⟨.refl h, fun _ _ _ _ => rfl⟩
  | cons j rest ihrest =>
    rw [List.forall_mem_cons] at ih
    have hj := ih.1 h
    obtain ⟨hlarger, hrest⟩ := ihrest ih.2 (h.ofJson j).2
    refine ⟨hj.larger.trans hlarger, fun g n hg hn => ?_⟩
    have hle := hj.larger.nodes_le
    have hle' := hlarger.nodes_le
    rw [ofJsonItems] at hn ⊢
    dsimp only at hn ⊢
    rw [List.map_cons, List.map_cons, hj.unfold_eq g n (hlarger.trans hg) (by omega),
      hrest g n hg (by omega)]

theorem reads_ofJsonFields {fields : List (String × Json)}
    (ih : ∀ f ∈ fields, ∀ h : Heap, h.Reads f.2 (h.ofJson f.2).1 (h.ofJson f.2).2) (h : Heap) :
    h.KeptIn (h.ofJsonFields fields).2 ∧
      ∀ g n, (h.ofJsonFields fields).2.KeptIn g →
        (h.ofJsonFields fields).2.nodes < h.nodes + n →
        ((h.ofJsonFields fields).1.map fun e => (e.1, g.unfold n e.2)) = Json.fieldTrees fields := by
  induction fields generalizing h with
  | nil => exact ⟨.refl h, fun _ _ _ _ => rfl⟩
  | cons f rest ihrest =>
    obtain ⟨key, j⟩ := f
    rw [List.forall_mem_cons] at ih
    have hj : h.Reads j (h.ofJson j).1 (h.ofJson j).2 := ih.1 h
    obtain ⟨hlarger, hrest⟩ := ihrest ih.2 (h.ofJson j).2
    refine ⟨hj.larger.trans hlarger, fun g n hg hn => ?_⟩
    have hle := hj.larger.nodes_le
    have hle' := hlarger.nodes_le
    rw [ofJsonFields] at hn ⊢
    dsimp only at hn ⊢
    rw [List.map_cons, Json.fieldTrees, hj.unfold_eq g n (hlarger.trans hg) (by omega),
      hrest g n hg (by omega)]

/-- A document is read into a value with its tree. -/
theorem reads_ofJson (j : Json) (h : Heap) : h.Reads j (h.ofJson j).1 (h.ofJson j).2 := by
  induction j using Json.nestedInduction generalizing h with
  | arr items ih =>
    obtain ⟨hlarger, hitems⟩ := reads_ofJsonItems ih h
    have hnew := KeptIn.newList (h.ofJsonItems items).2 .thing (h.ofJsonItems items).1
    refine ⟨hlarger.trans hnew, fun g n hg hn => ?_⟩
    rw [ofJson] at hg hn ⊢
    dsimp only at hg hn ⊢
    rw [nodes_newList] at hn
    obtain ⟨n, rfl⟩ : ∃ k, n = k + 1 := ⟨n - 1, by have := hlarger.nodes_le; omega⟩
    rw [unfold, hg.list_new, hitems g n (hnew.trans hg) (by omega), Json.tree_arr]
  | obj fields ih =>
    obtain ⟨hlarger, hfields⟩ := reads_ofJsonFields ih h
    have hnew := KeptIn.newMap (h.ofJsonFields fields).2 (.ofList (h.ofJsonFields fields).1)
    refine ⟨hlarger.trans hnew, fun g n hg hn => ?_⟩
    rw [ofJson] at hg hn ⊢
    dsimp only at hg hn ⊢
    rw [nodes_newMap] at hn
    obtain ⟨n, rfl⟩ : ∃ k, n = k + 1 := ⟨n - 1, by have := hlarger.nodes_le; omega⟩
    have hentries := hfields g n (hnew.trans hg) (by omega)
    rw [unfold, hg.map_new, ← OrderedMap.entries_ofList_map, hentries, Json.tree]
  | _ => exact .leaf (fun _ => rfl) fun _ n => by cases n <;> rfl

/-- The value of a document has the tree of the document. -/
theorem tree_ofJson (j : Json) (h : Heap) : (h.ofJson j).2.tree (h.ofJson j).1 = j.tree :=
  (reads_ofJson j h).unfold_eq _ _ (.refl _) (by rw [nodes]; omega)

/-! ## There and back -/

theorem Portable.toJson?_eq {v : Value} (hv : h.Portable v) :
    h.toJson? v = some ((h.tree v).toJson h) := by
  rw [toJson?, if_pos hv.complete]

/-- A portable value has the same tree in every larger store. -/
theorem Portable.tree_keptIn {v : Value} (hv : h.Portable v) (hg : h.KeptIn g) :
    g.tree v = h.tree v := by
  rw [tree_eq, tree_eq, hv.unfold_keptIn hg]
  exact unfold_of_complete hv.complete (Nat.succ_le_succ hg.nodes_le)

/-- The value of the document of a portable value equals the portable value. -/
theorem Portable.same_ofJson {v : Value} (hv : h.Portable v) :
    let back := h.ofJson ((h.tree v).toJson h)
    (back.2.tree back.1).same (h.tree v) = true := by
  intro back
  rw [tree_ofJson]
  exact hv.same_unfold hv.complete h

/-- The value of a document has a document, in which keys are in order. -/
theorem toJson?_ofJson (j : Json) (h : Heap) :
    (h.ofJson j).2.toJson? (h.ofJson j).1 = some (j.tree.toJson (h.ofJson j).2) := by
  rw [toJson?, tree_ofJson, if_pos j.complete_tree]

end Heap
end Ditlang
