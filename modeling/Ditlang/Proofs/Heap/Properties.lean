import Ditlang.Proofs.Heap.SlotNames

/-!
# Ditlang.Proofs.Heap.Properties

The properties of a Lang as a table: the names of its attributes in order, each with what its slot
holds. `ofList` makes a table of entries, of which the last one of each name counts and the first one
gives the place. When the second of two Langs wins, the table of the merged Lang is made of the
entries of the first and then those of the second (`properties_mergeLangs`).

A table is given by its names and by what it has under each (`ext_get?`), as long as it lists no name
twice. That is so of the attributes of every container that can be reached (`Reachable.attrsNodup`).
-/

namespace Ditlang

/-! ## Tables made of entries -/

namespace OrderedMap

variable {α β : Type}

/-- Two tables with the same names in the same order and the same values are equal. -/
theorem ext_get? {m m' : OrderedMap α} (hm : m.keys.Nodup) (hkeys : m.keys = m'.keys)
    (hget : ∀ x, m.get? x = m'.get? x) : m = m' := by
  obtain ⟨es⟩ := m
  obtain ⟨es'⟩ := m'
  unfold keys at hm hkeys
  simp only [get?] at hm hkeys hget
  congr 1
  induction es generalizing es' with
  | nil => simpa using hkeys
  | cons e es ih =>
    cases es' with
    | nil => simp at hkeys
    | cons e' es' =>
      obtain ⟨k, v⟩ := e
      obtain ⟨k', v'⟩ := e'
      simp only [List.map_cons, List.cons.injEq, List.nodup_cons] at hkeys hm
      obtain ⟨rfl, hrest⟩ := hkeys
      have hv : v = v' := by simpa using hget k
      subst hv
      have htail : es = es' := by
        refine ih hm.2 es' hrest fun x => ?_
        by_cases hx : x = k
        · have hnone : ∀ l : List (String × α), k ∉ l.map Prod.fst → l.lookup k = none := by
            intro l hl
            rw [List.lookup_eq_none_iff]
            intro e he
            have hne : k ≠ e.1 := fun h => hl (h ▸ List.mem_map_of_mem he)
            simp [hne]
          rw [hx, hnone es hm.1, hnone es' (hrest ▸ hm.1)]
        · simpa [List.lookup_cons, beq_eq_false_iff_ne.2 hx] using hget x
      rw [htail]

theorem keys_insert_eq_addNew (m : OrderedMap α) (key : String) (value : α) :
    (m.insert key value).keys = addNew m.keys key := by
  rw [keys_insert]
  by_cases hk : key ∈ m.keys
  · rw [if_pos hk, addNew_of_mem hk]
  · rw [if_neg hk, addNew_of_not_mem hk]

theorem keys_ofList (es : List (String × α)) :
    (ofList es).keys = (es.map Prod.fst).eraseDups := by
  induction es using List.reverseRecOn with
  | nil => rfl
  | append_singleton es e ih =>
    rw [ofList_concat, keys_insert_eq_addNew, ih, List.map_append, List.map_singleton,
      eraseDups_concat]

theorem nodup_keys_ofList (es : List (String × α)) : (ofList es).keys.Nodup := by
  rw [keys_ofList, ← union_nil_left]
  exact nodup_union _ List.nodup_nil

theorem get?_ofList_append (xs ys : List (String × α)) (key : String) :
    (ofList (xs ++ ys)).get? key = ((ofList ys).get? key).or ((ofList xs).get? key) := by
  induction ys using List.reverseRecOn with
  | nil => simp [ofList]
  | append_singleton ys e ih =>
    rw [← List.append_assoc, ofList_concat, ofList_concat, get?_insert, get?_insert, ih]
    split <;> rfl

theorem insert_of_not_mem {m : OrderedMap α} {key : String} (hk : key ∉ m.keys) (value : α) :
    m.insert key value = ⟨m.entries ++ [(key, value)]⟩ := by
  obtain ⟨es⟩ := m
  unfold keys at hk
  unfold insert
  congr 1
  induction es with
  | nil => rfl
  | cons e es ih =>
    simp only [List.map_cons, List.mem_cons, not_or] at hk
    simp [insertInto, Ne.symm hk.1, ih hk.2]

theorem ofList_entries {m : OrderedMap α} (hm : m.keys.Nodup) : ofList m.entries = m := by
  obtain ⟨es⟩ := m
  unfold keys at hm
  dsimp only at hm ⊢
  induction es using List.reverseRecOn with
  | nil => rfl
  | append_singleton es e ih =>
    rw [List.map_append, List.map_singleton, ← List.concat_eq_append, List.nodup_concat] at hm
    rw [ofList_concat, ih hm.2, insert_of_not_mem hm.1]

/-- Tables are put together in any order of doing so. -/
theorem ofList_append_ofList (xs ys : List (String × α)) :
    ofList ((ofList xs).entries ++ (ofList ys).entries) = ofList (xs ++ ys) := by
  refine ext_get? (nodup_keys_ofList _) ?_ fun key => ?_
  · have hkeys : ∀ zs : List (String × α), (ofList zs).entries.map Prod.fst = (ofList zs).keys :=
      fun _ => rfl
    rw [keys_ofList, keys_ofList, List.map_append, List.map_append, hkeys, hkeys, keys_ofList,
      keys_ofList, ← union_nil_left, ← union_nil_left (_ ++ _), union_append, union_append,
      union_eraseDups, union_eraseDups]
  · rw [get?_ofList_append, get?_ofList_append, ofList_entries (nodup_keys_ofList xs),
      ofList_entries (nodup_keys_ofList ys)]

end OrderedMap

namespace Heap

variable {h h' : Heap}

/-! ## No attribute is listed twice -/

/-- No container lists an attribute twice. -/
def AttrsNodup (h : Heap) : Prop :=
  ∀ c, (h.container c).attrs.keys.Nodup

namespace AttrsNodup

theorem of_attrs (hn : h.AttrsNodup) (ha : ∀ c, (h'.container c).attrs = (h.container c).attrs) :
    h'.AttrsNodup := by
  intro c
  rw [ha c]
  exact hn c

theorem of_containers (hn : h.AttrsNodup) (hc : h'.containers = h.containers) :
    h'.AttrsNodup :=
  hn.of_attrs fun c => by rw [container, hc]; rfl

theorem modifyContainer (hn : h.AttrsNodup) (c : ContainerId) {f : Container → Container}
    (hf : (f (h.container c)).attrs.keys.Nodup) : (h.modifyContainer c f).AttrsNodup := by
  intro d
  rw [container_modifyContainer]
  split
  · rename_i hd
    exact hd.1 ▸ hf
  · exact hn d

theorem attach (hn : h.AttrsNodup) (c : ContainerId) (name : String) (s : SlotId) :
    (h.attach c name s).AttrsNodup :=
  hn.modifyContainer c (OrderedMap.nodup_keys_insert (hn c) name s)

theorem alloc (hn : h.AttrsNodup) {c : Container} (hc : c.attrs.keys.Nodup) :
    (h.alloc c).2.AttrsNodup := by
  intro d
  rw [container_alloc]
  split
  · exact hc
  · exact hn d

end AttrsNodup

theorem copySlots_append (chosen : List (String × SlotId)) (e : String × SlotId) :
    h.copySlots (chosen ++ [e]) =
      ((h.copySlots chosen).1.insert e.1
          ((h.copySlots chosen).2.newSlot ((h.copySlots chosen).2.slot e.2)).1,
        ((h.copySlots chosen).2.newSlot ((h.copySlots chosen).2.slot e.2)).2) := by
  unfold copySlots
  rw [List.foldl_append]
  rfl

/-- The copies are listed in the order in which they are asked for. -/
theorem keys_copySlots (chosen : List (String × SlotId)) :
    (h.copySlots chosen).1.keys = (chosen.map Prod.fst).eraseDups := by
  induction chosen using List.reverseRecOn with
  | nil => rfl
  | append_singleton chosen e ih =>
    rw [copySlots_append, OrderedMap.keys_insert_eq_addNew, ih, List.map_append,
      List.map_singleton, eraseDups_concat]

theorem nodup_keys_copySlots (chosen : List (String × SlotId)) :
    (h.copySlots chosen).1.keys.Nodup := by
  rw [keys_copySlots, ← union_nil_left]
  exact nodup_union _ List.nodup_nil

theorem AttrsNodup.mergeLangs (hn : h.AttrsNodup) (left right : ContainerId) :
    (h.mergeLangs left right).2.AttrsNodup :=
  (hn.of_containers (containers_copySlots _)).alloc (nodup_keys_copySlots _)

theorem AttrsNodup.assign (hn : h.AttrsNodup) {s : SlotId} {v : Value}
    (hok : h.assign s v = .ok h') : h'.AttrsNodup := by
  obtain ⟨-, rfl⟩ | ⟨-, -, rfl⟩ := assign_inv hok
  · exact hn.of_containers rfl
  · rcases settle_cases (h := h) (h.slot s).declared (h.slot s).value v with
      he | ⟨a, b, -, -, he, -⟩ | ⟨l, -, -, -, -, he⟩
    · rw [he]
      exact hn.of_containers rfl
    · rw [he]
      exact (hn.mergeLangs a b).of_containers rfl
    · rw [he]
      exact hn.of_containers rfl

theorem Step.attrsNodup (hs : h.Step h') (hn : h.AttrsNodup) : h'.AttrsNodup := by
  cases hs with
  | alloc hf => exact hn.alloc (hf.attrs ▸ List.nodup_nil)
  | @declare owner name d s _ hd hok =>
    obtain ⟨-, -, ⟨-, rfl⟩ | ⟨-, found, -, rfl⟩⟩ := declare_inv hok
    · exact (hn.of_containers rfl).attach owner name s
    · have hconflicts : ((h.newSlot (.declare name d)).2.addConflicts owner found).AttrsNodup :=
        hn.of_attrs fun c => attrs_addConflicts (h.newSlot (.declare name d)).2 owner c found
      exact (hconflicts.attach owner name s).of_containers rfl
  | insertAlias _ hok =>
    obtain ⟨-, rfl⟩ := insertAlias_inv hok
    exact hn.modifyContainer _ (hn _)
  | assign _ _ hok => exact hn.assign hok
  | append _ hok =>
    obtain ⟨-, -, rfl⟩ := append_inv hok
    exact hn.of_containers rfl
  | @materialize inst key template =>
    rcases materialize_cases (h := h) inst key template with ⟨s, -, hm⟩ | ⟨-, hm⟩
    · rw [hm]
      exact hn
    · rw [hm]
      exact AttrsNodup.attach (h := (h.newSlot _).2) (hn.of_containers rfl) inst key _
  | mergeLangs left right => exact hn.mergeLangs left right
  | @addParent c parent _ hok =>
    obtain ⟨-, -, -, found, -, rfl⟩ := addParent_inv hok
    have hconflicts : (h.addConflicts c found).AttrsNodup :=
      hn.of_attrs fun d => attrs_addConflicts h c d found
    refine AttrsNodup.of_containers (hconflicts.modifyContainer c ?_) rfl
    rw [attrs_withParent]
    exact hconflicts c
  | newList => exact hn.of_containers rfl
  | newMap => exact hn.of_containers rfl
  | putEntry => exact hn.of_containers rfl
  | warm => exact hn.of_containers rfl
  | describe c hf =>
    refine hn.modifyContainer c ?_
    rw [hf]
    exact hn c
  | @keepFile c => exact hn.modifyContainer c (hn c)

/-- In every reachable store no container lists an attribute twice. -/
theorem Reachable.attrsNodup (hr : h.Reachable) : h.AttrsNodup := by
  refine hr.induction ?_ fun h h' _ hn hs => hs.attrsNodup hn
  intro c
  rw [container_of_size_le (by simp [empty])]
  exact List.nodup_nil

/-! ## The table of properties -/

/-- The attributes of a container in order, each with what its slot holds. -/
def properties (h : Heap) (c : ContainerId) : OrderedMap Slot :=
  ⟨(h.container c).attrs.entries.map fun e => (e.1, h.slot e.2)⟩

@[simp] theorem keys_properties (c : ContainerId) :
    (h.properties c).keys = (h.container c).attrs.keys := by
  simp [properties, OrderedMap.keys]

@[simp] theorem get?_properties (c : ContainerId) (x : String) :
    (h.properties c).get? x = ((h.container c).attrs.get? x).map h.slot := by
  unfold properties OrderedMap.get?
  dsimp only
  induction (h.container c).attrs.entries with
  | nil => rfl
  | cons e es ih =>
    obtain ⟨k, s⟩ := e
    by_cases hx : x = k
    · simp [hx]
    · rw [List.map_cons, List.lookup_cons, List.lookup_cons, beq_eq_false_iff_ne.2 hx]
      exact ih

theorem map_fst_mergeSources (left right : ContainerId) :
    (h.mergeSources left right).map Prod.fst = (h.container left).attrs.keys ++
      (h.container right).attrs.keys.filter fun x => !(h.container left).attrs.contains x := by
  unfold mergeSources
  dsimp only
  rw [List.map_filterMap]
  refine (List.filterMap_congr (g := some) fun x hx => ?_).trans List.filterMap_some
  rw [List.mem_append, List.mem_filter, ← OrderedMap.contains_iff_mem_keys,
    ← OrderedMap.contains_iff_mem_keys] at hx
  unfold OrderedMap.contains at hx
  cases hl : (h.container left).attrs.get? x with
  | some l =>
    cases (h.container right).attrs.get? x <;> rfl
  | none =>
    rw [hl] at hx
    cases hr : (h.container right).attrs.get? x with
    | some r => rfl
    | none => simp [hr] at hx

/-- The names of a merged Lang: those of the first, and then the new ones of the second. -/
theorem keys_mergeLangs (left right : ContainerId) :
    ((h.mergeLangs left right).2.container (h.mergeLangs left right).1).attrs.keys =
      ((h.container left).attrs.keys ++ (h.container right).attrs.keys).eraseDups := by
  have hnew : (h.container right).attrs.keys.filter
      (fun x => !(h.container left).attrs.contains x) =
        (h.container right).attrs.keys.removeAll (h.container left).attrs.keys := by
    unfold List.removeAll
    refine List.filter_congr fun x _ => ?_
    rw [Bool.eq_iff_iff]
    simp [← OrderedMap.contains_iff_mem_keys]
  rw [container_mergeLangs, keys_copySlots, map_fst_mergeSources, hnew, List.eraseDups_append,
    List.eraseDups_append]
  unfold List.removeAll
  rw [List.filter_filter]
  simp

/-- When the second Lang wins, the entries of the second come over those of the first. -/
theorem properties_mergeLangs (hc : h.Closed) (hn : h.AttrsNodup) {left right : ContainerId}
    (hle : (h.priority left).le (h.priority right) = true) :
    (h.mergeLangs left right).2.properties (h.mergeLangs left right).1 =
      .ofList ((h.properties left).entries ++ (h.properties right).entries) := by
  have hleft : (h.properties left).keys.Nodup := by simpa using hn left
  have hright : (h.properties right).keys.Nodup := by simpa using hn right
  refine OrderedMap.ext_get? ?_ ?_ fun x => ?_
  · simpa using hn.mergeLangs left right _
  · rw [keys_properties, keys_mergeLangs, OrderedMap.keys_ofList, List.map_append]
    exact congrArg List.eraseDups (congrArg₂ (· ++ ·) (keys_properties left).symm
      (keys_properties right).symm)
  · rw [OrderedMap.get?_ofList_append, OrderedMap.ofList_entries hleft,
      OrderedMap.ofList_entries hright]
    have hx := (merged_mergeLangs hc left right).property x
    simp only [get?_properties]
    cases hl : (h.container left).attrs.get? x <;>
      cases hr : (h.container right).attrs.get? x <;> simp only [hl, hr] at hx
    · simp [hx]
    all_goals
      obtain ⟨t, ht, -, hcopy⟩ := hx
      simp [ht, hcopy, hle]

end Heap
end Ditlang
