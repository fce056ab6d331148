import Ditlang.Proofs.Eval.Operand
import Ditlang.Proofs.Heap.Owners

/-!
# Ditlang.Proofs.Heap.Writes

What a write leaves alone. `Confined h h' i us ws` says that from `h` to `h'` only the container `i`,
the slots `us` and the maps `ws` have changed, and that something may have been added. An assignment
is confined to its slot and a write below a JSON map to one map, the last one on its way that was there.

What a value looks like is everything it unfolds to. After a write that is confined to one map, a
value looks the same exactly when the map is not part of it or looks the same itself.
-/

namespace Ditlang
namespace Heap

variable {h h' h'' : Heap} {i : ContainerId} {us us' : SlotId → Prop} {ws ws' : MapId → Prop}

/-- Only a container, some slots and some maps have changed. -/
structure Confined (h h' : Heap) (i : ContainerId) (us : SlotId → Prop) (ws : MapId → Prop) :
    Prop where
  grows : h.Grows h'
  container : ∀ c, c.index < h.containers.size → c ≠ i → h'.container c = h.container c
  isClass : ∀ c, (h'.container c).isClass = true → (h.container c).isClass = true
  slot : ∀ t, h.HasSlot t → ¬ us t → h'.slot t = h.slot t
  list : ∀ l, l.index < h.lists.size → h'.list l = h.list l
  map : ∀ m, m.index < h.maps.size → ¬ ws m → h'.map m = h.map m

namespace Confined

theorem refl (h : Heap) (i : ContainerId) (us : SlotId → Prop) (ws : MapId → Prop) :
    h.Confined h i us ws :=
  ⟨.refl h, fun _ _ _ => rfl, fun _ hc => hc, fun _ _ _ => rfl, fun _ _ => rfl, fun _ _ _ => rfl⟩

theorem trans (hc : h.Confined h' i us ws) (hc' : h'.Confined h'' i us' ws')
    (hus : ∀ t, h.HasSlot t → us' t → us t) (hws : ∀ m, m.index < h.maps.size → ws' m → ws m) :
    h.Confined h'' i us ws where
  grows := hc.grows.trans hc'.grows
  container c hlt hi := by
    rw [hc'.container c (Nat.lt_of_lt_of_le hlt hc.grows.containers) hi, hc.container c hlt hi]
  isClass c hcls := hc.isClass c (hc'.isClass c hcls)
  slot t ht hu := by
    rw [hc'.slot t (ht.mono hc.grows) fun hu' => hu (hus t ht hu'), hc.slot t ht hu]
  list l hl := by
    rw [hc'.list l (Nat.lt_of_lt_of_le hl hc.grows.lists), hc.list l hl]
  map m hm hw := by
    rw [hc'.map m (Nat.lt_of_lt_of_le hm hc.grows.maps) fun hw' => hw (hws m hm hw'),
      hc.map m hm hw]

end Confined

/-! ## Each way of writing -/

theorem confined_newList (elem : TypeSpec) (items : List Value) :
    h.Confined (h.newList elem items).2 i us ws :=
  { Confined.refl h i us ws with
    grows := grows_newList h elem items
    list := fun l hl => by rw [list_newList, if_neg (Nat.ne_of_lt hl)] }

theorem confined_newMap (entries : OrderedMap Value) :
    h.Confined (h.newMap entries).2 i us ws :=
  { Confined.refl h i us ws with
    grows := grows_newMap h entries
    map := fun m hm _ => by rw [map_newMap, if_neg (Nat.ne_of_lt hm)] }

theorem confined_newSlot (new : Slot) : h.Confined (h.newSlot new).2 i us ws :=
  { Confined.refl h i us ws with
    grows := grows_newSlot h new
    slot := fun t ht _ => by rw [slot_newSlot, if_neg (Nat.ne_of_lt ht)] }

theorem confined_setValue (u : SlotId) (v : Value) :
    h.Confined (h.setValue u v) i (· = u) ws :=
  { Confined.refl h i (· = u) ws with
    grows := grows_setValue h u v
    slot := fun t _ ht => by rw [slot_setValue, if_neg fun he => ht he.1.symm] }

theorem confined_putEntry (w : MapId) (key : String) (v : Value) :
    h.Confined (h.putEntry w key v) i us (· = w) := by
  refine { Confined.refl h i us (· = w) with
    grows := grows_setMap h w _, map := fun m _ hm => ?_ }
  have hne : ¬ w.index = m.index := fun he => hm (MapId.ext he.symm)
  by_cases hw : w.index < h.maps.size
  · rw [putEntry, map_setMap h w m _ hw, if_neg hne]
  · rw [putEntry, setMap, Array.setIfInBounds_eq_of_size_le (Nat.not_lt.1 hw)]

theorem confined_attach {key : String} (s : SlotId)
    (hkey : (h.container i).attrs.get? key = none) :
    h.Confined (h.attach i key s) i us ws := by
  refine { Confined.refl h i us ws with
    grows := grows_attach h s hkey, container := fun c _ hc => ?_, isClass := fun c hc => ?_ }
  · rw [attach, container_modifyContainer, if_neg fun he => hc he.1.symm]
  · rw [attach, container_modifyContainer] at hc
    split at hc <;> exact hc

theorem confined_mergeLangs (left right : ContainerId) :
    h.Confined (h.mergeLangs left right).2 i us ws := by
  have hcopy : h.Confined (h.copySlots (h.mergeSources left right)).2 i us ws :=
    copySlots_induction (P := fun _ g => h.Confined g i us ws) _ (.refl h i us ws)
      fun _ g _ _ _ hg => hg.trans (confined_newSlot _) (fun _ _ => id) fun _ _ => id
  have halloc : (h.copySlots (h.mergeSources left right)).2.Confined
      (h.mergeLangs left right).2 i us ws := by
    refine { Confined.refl _ i us ws with
      grows := grows_alloc _ _, container := fun c hc _ => ?_, isClass := fun c hc => ?_ }
    · exact (container_alloc _ _ c).trans (if_neg (Nat.ne_of_lt hc))
    · rw [Heap.mergeLangs] at hc
      dsimp only at hc
      rw [container_alloc] at hc
      split at hc
      · cases hc
      · exact hc
  exact hcopy.trans halloc (fun _ _ => id) fun _ _ => id

theorem confined_settle (d : Declared) (old new : Value) :
    h.Confined (h.settle d old new).2 i us ws := by
  rcases settle_cases (h := h) d old new with he | ⟨a, b, -, -, he, -⟩ | ⟨l, -, -, -, -, he⟩
  · rw [he]
    exact .refl h i us ws
  · rw [he]
    exact confined_mergeLangs a b
  · rw [he]
    exact confined_newList _ _

theorem confined_assign {u : SlotId} {v : Value} (hok : h.assign u v = .ok h') :
    h.Confined h' i (· = u) ws := by
  obtain ⟨-, rfl⟩ | ⟨-, -, rfl⟩ := assign_inv hok
  · exact confined_setValue u v
  · exact (confined_settle _ _ _).trans (confined_setValue u _) (fun _ _ => id) fun _ _ => id

theorem confined_materialize (key : String) (template : SlotId) :
    h.Confined (h.materialize i key template).2 i us ws := by
  rcases materialize_cases (h := h) i key template with ⟨s, -, hm⟩ | ⟨hnew, hm⟩
  · rw [hm]
    exact .refl h i us ws
  · rw [hm]
    exact (confined_newSlot _).trans (confined_attach _ hnew) (fun _ _ => id) fun _ _ => id

theorem confined_warmAll (asked : List ContainerId) : h.Confined (h.warmAll asked) i us ws := by
  rw [warmAll_eq]
  exact { Confined.refl h i us ws with grows := grows_setMemo h _ }

theorem Confined.warmAll (hc : h.Confined h' i us ws) (asked : List ContainerId) :
    h.Confined (h'.warmAll asked) i us ws :=
  hc.trans (confined_warmAll asked) (fun _ _ => id) fun _ _ => id

/-! ## Writing below a JSON map -/

/-- The map in which a write below a map puts its entry: the last one on its way that is there. -/
def writtenMap (h : Heap) (m : MapId) : List String → MapId
  | [] => m
  | key :: rest =>
    match (h.map m).get? key with
    | some (.jsonRef inner) => h.writtenMap inner rest
    | _ => m

/-- A map that is empty has nothing on the way. -/
theorem writtenMap_of_empty {m : MapId} (hm : h.map m = .empty) (keys : List String) :
    h.writtenMap m keys = m := by
  cases keys with
  | nil => rfl
  | cons key rest => rw [writtenMap, hm]; rfl

/-- The map that a write makes on its way, and the store with it in its place. -/
theorem map_putEntry_newMap {m : MapId} (hm : m.index < h.maps.size) (key : String) (v : Value) :
    ((h.newMap .empty).2.putEntry m key v).map ⟨h.maps.size⟩ = .empty := by
  have hlt : m.index < (h.newMap .empty).2.maps.size := by
    simp [newMap]
    omega
  rw [putEntry, map_setMap _ m _ _ hlt, if_neg (Nat.ne_of_lt hm), map_newMap, if_pos rfl]

theorem confined_storeKeys {m : MapId} {last : String} {v : Value} {keys : List String}
    (hc : h.Closed) (hm : m.index < h.maps.size) (hok : h.storeKeys m last v keys = .ok h') :
    h.Confined h' i us (· = h.writtenMap m keys) := by
  induction keys generalizing h m with
  | nil =>
    cases hok
    exact confined_putEntry m last v
  | cons key keys ih =>
    -- A map that is made has no entries, so what follows is written into new maps only.
    have hmade (hok : ((h.newMap .empty).2.putEntry m key (.jsonRef ⟨h.maps.size⟩)).storeKeys
        ⟨h.maps.size⟩ last v keys = .ok h') : h.Confined h' i us (· = m) := by
      have hnew : (h.newMap .empty).2.Closed := hc.newMap (.empty _)
      have hput : h.Confined ((h.newMap .empty).2.putEntry m key (.jsonRef ⟨h.maps.size⟩)) i us
          (· = m) :=
        (confined_newMap _).trans (confined_putEntry m key _) (fun _ _ => id) fun _ _ => id
      have hclosed : ((h.newMap .empty).2.putEntry m key (.jsonRef ⟨h.maps.size⟩)).Closed :=
        hnew.setMap m ((hnew.map m).insert key (by simp [Value.Valid, newMap]))
      have hrest := ih hclosed (by simp [putEntry, setMap, newMap]) hok
      rw [writtenMap_of_empty (map_putEntry_newMap hm key _)] at hrest
      refine hput.trans hrest (fun _ _ => id) ?_
      rintro _ hlt rfl
      exact absurd hlt (Nat.lt_irrefl _)
    rw [storeKeys] at hok
    rw [writtenMap]
    cases hget : (h.map m).get? key with
    | none =>
      rw [hget] at hok
      exact hmade hok
    | some u =>
      rw [hget] at hok
      cases u with
      | jsonRef inner => exact ih hc ((hc.map m).get? hget) hok
      | null => exact hmade hok
      | _ => cases hok

/-! ## What a value looks like -/

/-- A value looks the same: it unfolds to the same, however deep. -/
def LooksSame (h h' : Heap) (v : Value) : Prop :=
  ∀ n, h'.unfold n v = h.unfold n v

theorem unfold_warmAll (asked : List ContainerId) (n : Nat) (v : Value) :
    (h.warmAll asked).unfold n v = h.unfold n v := by
  rw [warmAll_eq]
  induction n generalizing v with
  | zero => rfl
  | succ n ih =>
    cases v with
    | listRef l =>
      rw [unfold, unfold]
      exact congrArg _ (List.map_congr_left fun u _ => ih u)
    | jsonRef m =>
      rw [unfold, unfold]
      exact congrArg _ (List.map_congr_left fun e _ => congrArg (Prod.mk e.1) (ih e.2))
    | _ => rfl

/-- A map is part of a value. -/
inductive HasMap (h : Heap) (w : MapId) : Value → Prop where
  | here : HasMap h w (.jsonRef w)
  | entry {m : MapId} {key : String} {v : Value} :
      (key, v) ∈ (h.map m).entries → HasMap h w v → HasMap h w (.jsonRef m)
  | item {l : ListId} {v : Value} : v ∈ (h.list l).items → HasMap h w v → HasMap h w (.listRef l)

theorem hasMap_writtenMap (m : MapId) (keys : List String) :
    h.HasMap (h.writtenMap m keys) (.jsonRef m) := by
  induction keys generalizing m with
  | nil => exact .here
  | cons key keys ih =>
    rw [writtenMap]
    split
    · rename_i inner hget
      exact .entry (OrderedMap.mem_of_get? hget) (ih inner)
    · exact .here

section

variable {v : Value}

/-- A value looks the same if every map of it that has changed does. -/
theorem Confined.looksSame (hc : h.Confined h' i us ws) (hh : h.Closed) (hv : v.Valid h)
    (hw : ∀ w, ws w → h.HasMap w v → h.LooksSame h' (.jsonRef w)) : h.LooksSame h' v := by
  intro n
  induction n generalizing v with
  | zero => rfl
  | succ n ih =>
    cases v with
    | listRef l =>
      rw [unfold, unfold, hc.list l hv]
      refine congrArg _ (List.map_congr_left fun u hu => ?_)
      exact ih ((hh.list l).items u hu) fun w hw' hin => hw w hw' (.item hu hin)
    | jsonRef m =>
      by_cases hm : ws m
      · exact hw m hm .here (n + 1)
      · rw [unfold, unfold, hc.map m hv hm]
        refine congrArg _ (List.map_congr_left fun e he => ?_)
        have hsame := ih (hh.map m e he) fun w hw' hin => hw w hw' (.entry he hin)
        exact congrArg (Prod.mk e.1) hsame
    | _ => rfl

/-- If a value looks the same and only one map has changed, that map does if it is part of it. -/
theorem Confined.looksSame_of_hasMap {w : MapId} (hc : h.Confined h' i us ws)
    (hws : ∀ m, ws m → m = w) (hh : h.Closed) (hw : h.HasMap w v) (hv : v.Valid h)
    (hs : h.LooksSame h' v) : h.LooksSame h' (.jsonRef w) := by
  induction hw with
  | here => exact hs
  | @entry m key u hu _ ih =>
    by_cases hm : ws m
    · exact hws m hm ▸ hs
    · refine ih (hh.map m _ hu) fun n => ?_
      have htree := hs (n + 1)
      rw [unfold, unfold, hc.map m hv hm, Tree.json.injEq, List.map_inj_left] at htree
      exact (Prod.mk.inj (htree _ hu)).2
  | @item l u hu _ ih =>
    refine ih ((hh.list l).items u hu) fun n => ?_
    have htree := hs (n + 1)
    rw [unfold, unfold, hc.list l hv, Tree.list.injEq, List.map_inj_left] at htree
    exact htree.2 u hu

/-- After a write to at most one map a value looks the same exactly when that map, if it is part of
it, does. -/
theorem Confined.looksSame_iff {written : Option MapId}
    (hc : h.Confined h' i us fun w => written = some w) (hh : h.Closed) (hv : v.Valid h) :
    h.LooksSame h' v ↔ ∀ w, written = some w → h.HasMap w v → h.LooksSame h' (.jsonRef w) := by
  refine ⟨fun hs w hw hin => ?_, hc.looksSame hh hv⟩
  have hws : ∀ m, written = some m → m = w := fun m hm => Option.some.inj (hm.symm.trans hw)
  exact hc.looksSame_of_hasMap hws hh hin hv hs

end

end Heap
end Ditlang
