import Ditlang.Proofs.Heap.Writes

/-!
# Ditlang.Proofs.Heap.JsonPaths

Writing along a path through JSON maps. The path goes through the maps that are there as long as it
can (`writtenMap`, `keysLeft`), and what is left of it is made of new maps. New maps are empty, so that
nothing can be in the way once the first one is made: a write fails before it has changed anything
(`writeThrough_eq`). Of what was there, one entry of one map changes (`Writes`, `Entered.old`), and
whoever follows the path again finds the value, unless a map comes twice on it (`Entered.read`).
-/

namespace Ditlang
namespace Heap

variable {h h' : Heap} {m : MapId} {last : String} {v : Value} {path : List String}

/-! ## The part of a path that is there -/

/-- The maps on a path that are there. -/
def mapsOn (h : Heap) (m : MapId) : List String → List MapId
  | [] => [m]
  | key :: rest =>
    match (h.map m).get? key with
    | some (.jsonRef inner) => m :: h.mapsOn inner rest
    | _ => [m]

/-- The keys of a path that are left at the last map on it that is there. -/
def keysLeft (h : Heap) (m : MapId) : List String → List String
  | [] => []
  | key :: rest =>
    match (h.map m).get? key with
    | some (.jsonRef inner) => h.keysLeft inner rest
    | _ => key :: rest

/-- A path either goes on in the map under its first key, or ends where it is. -/
theorem path_cases (h : Heap) (m : MapId) (key : String) (rest : List String) :
    (∃ inner, (h.map m).get? key = some (.jsonRef inner) ∧
      h.writtenMap m (key :: rest) = h.writtenMap inner rest ∧
      h.mapsOn m (key :: rest) = m :: h.mapsOn inner rest ∧
      h.keysLeft m (key :: rest) = h.keysLeft inner rest) ∨
    ((∀ inner, (h.map m).get? key ≠ some (.jsonRef inner)) ∧
      h.writtenMap m (key :: rest) = m ∧ h.mapsOn m (key :: rest) = [m] ∧
      h.keysLeft m (key :: rest) = key :: rest) := by
  simp only [writtenMap, mapsOn, keysLeft]
  cases hget : (h.map m).get? key with
  | none => exact .inr ⟨by simp, rfl, rfl, rfl⟩
  | some u =>
    cases u with
    | jsonRef inner => exact .inl ⟨inner, rfl, rfl, rfl, rfl⟩
    | _ => exact .inr ⟨by simp, rfl, rfl, rfl⟩

theorem writtenMap_mem_mapsOn (m : MapId) (path : List String) :
    h.writtenMap m path ∈ h.mapsOn m path := by
  induction path generalizing m with
  | nil => exact List.mem_cons_self
  | cons key rest ih =>
    obtain ⟨inner, -, hlast, hmaps, -⟩ | ⟨-, hlast, hmaps, -⟩ := h.path_cases m key rest
    · rw [hlast, hmaps]
      exact List.mem_cons_of_mem _ (ih inner)
    · rw [hlast, hmaps]
      exact List.mem_cons_self

/-- A map that is empty is the only one on a path from it. -/
theorem mapsOn_of_empty (hm : h.map m = .empty) (path : List String) : h.mapsOn m path = [m] := by
  cases path with
  | nil => rfl
  | cons key rest =>
    rw [mapsOn, hm]
    rfl

theorem writtenMap_lt_size (hc : h.Closed) (hm : m.index < h.maps.size) (path : List String) :
    (h.writtenMap m path).index < h.maps.size := by
  induction path generalizing m with
  | nil => exact hm
  | cons key rest ih =>
    obtain ⟨inner, hget, hlast, -⟩ | ⟨-, hlast, -⟩ := h.path_cases m key rest
    · rw [hlast]
      exact ih ((hc.map m).get? hget)
    · rw [hlast]
      exact hm

/-- The first key that is left does not lead to another map. -/
theorem get?_of_keysLeft {key : String} {rest : List String}
    (hleft : h.keysLeft m path = key :: rest) (inner : MapId) :
    (h.map (h.writtenMap m path)).get? key ≠ some (.jsonRef inner) := by
  induction path generalizing m with
  | nil => cases hleft
  | cons first path ih =>
    obtain ⟨next, -, hlast, -, hkeys⟩ | ⟨hno, hlast, -, hkeys⟩ := h.path_cases m first path
    · rw [hlast]
      exact ih (hkeys ▸ hleft)
    · obtain ⟨rfl, -⟩ := List.cons.inj (hkeys.symm.trans hleft)
      rw [hlast]
      exact hno inner

theorem storeKeys_of_jsonRef {key : String} {inner : MapId}
    (hget : (h.map m).get? key = some (.jsonRef inner)) (rest : List String) :
    h.storeKeys m last v (key :: rest) = h.storeKeys inner last v rest := by
  rw [storeKeys, hget]
  rfl

/-- The write starts for good at the last map that is there. -/
theorem storeKeys_eq_keysLeft (m : MapId) (path : List String) (last : String) (v : Value) :
    h.storeKeys m last v path = h.storeKeys (h.writtenMap m path) last v (h.keysLeft m path) := by
  induction path generalizing m with
  | nil => rfl
  | cons key rest ih =>
    obtain ⟨inner, hget, hlast, -, hkeys⟩ | ⟨-, hlast, -, hkeys⟩ := h.path_cases m key rest
    · rw [storeKeys_of_jsonRef hget, hlast, hkeys]
      exact ih inner
    · rw [hlast, hkeys]

/-- If only the last map changes, and what is left of the path leads to a value from there, then the
whole path does, unless it comes to a map twice. -/
theorem readKeys_of_keysLeft (hc : h.Closed) (hm : m.index < h.maps.size)
    (hsame : ∀ w, w.index < h.maps.size → w ≠ h.writtenMap m path → h'.map w = h.map w)
    (hread : h'.readKeys (.jsonRef (h.writtenMap m path)) (h.keysLeft m path ++ [last]) = .ok v)
    (hdistinct : (h.mapsOn m path).Nodup) :
    h'.readKeys (.jsonRef m) (path ++ [last]) = .ok v := by
  induction path generalizing m with
  | nil => exact hread
  | cons key rest ih =>
    obtain ⟨inner, hget, hlast, hmaps, hkeys⟩ | ⟨-, hlast, -, hkeys⟩ := h.path_cases m key rest
    · rw [hlast] at hsame hread
      rw [hkeys] at hread
      rw [hmaps] at hdistinct
      obtain ⟨hnot, hdistinct⟩ := List.nodup_cons.1 hdistinct
      have hne : m ≠ h.writtenMap inner rest := by
        rintro he
        exact hnot (he ▸ writtenMap_mem_mapsOn inner rest)
      rw [List.cons_append, readKeys, hsame m hm hne, hget]
      exact ih ((hc.map m).get? hget) hsame hread hdistinct
    · rw [hlast, hkeys] at hread
      exact hread

/-! ## The part that is made -/

/-- The store in which a map has a new one under a key. -/
def grow (h : Heap) (m : MapId) (key : String) : Heap :=
  (h.newMap .empty).2.putEntry m key (.jsonRef ⟨h.maps.size⟩)

theorem size_grow (m : MapId) (key : String) : (h.grow m key).maps.size = h.maps.size + 1 := by
  simp [grow, putEntry, setMap, newMap]

theorem map_putEntry (hm : m.index < h.maps.size) (key : String) (w : MapId) :
    (h.putEntry m key v).map w = if w = m then (h.map m).insert key v else h.map w := by
  rw [putEntry, map_setMap _ _ _ _ hm]
  by_cases hw : w = m
  · rw [if_pos hw, if_pos (by rw [hw])]
  · rw [if_neg hw, if_neg fun he => hw (MapId.ext he.symm)]

theorem size_putEntry (m : MapId) (key : String) :
    (h.putEntry m key v).maps.size = h.maps.size := by
  simp [putEntry, setMap]

theorem map_grow (hm : m.index < h.maps.size) (key : String) {w : MapId}
    (hw : w.index < h.maps.size) : (h.grow m key).map w =
      if w = m then (h.map m).insert key (.jsonRef ⟨h.maps.size⟩) else h.map w := by
  have hlt : m.index < (h.newMap .empty).2.maps.size := by
    simp only [newMap, Array.size_push]
    omega
  rw [grow, map_putEntry hlt, map_newMap, if_neg (Nat.ne_of_lt hm), map_newMap,
    if_neg (Nat.ne_of_lt hw)]

theorem map_grow_new (hm : m.index < h.maps.size) (key : String) :
    (h.grow m key).map ⟨h.maps.size⟩ = .empty :=
  map_putEntry_newMap hm key _

theorem storeKeys_of_null {key : String} (hkey : ((h.map m).get? key).getD .null = .null)
    (rest : List String) :
    h.storeKeys m last v (key :: rest) = (h.grow m key).storeKeys ⟨h.maps.size⟩ last v rest := by
  rw [storeKeys, hkey]
  rfl

/-- What a write does that has to make maps from a key on: the map with the key gets the first one of
them, each of them has one entry, and the last entry is the value. -/
structure Extended (h h' : Heap) (m : MapId) (key : String) (rest : List String) (last : String)
    (v : Value) : Prop where
  size : h.maps.size ≤ h'.maps.size
  old : ∀ w, w.index < h.maps.size →
    h'.map w = if w = m then (h.map m).insert key (.jsonRef ⟨h.maps.size⟩) else h.map w
  made : ∀ w, h.maps.size ≤ w.index → w.index < h'.maps.size →
    ∃ key u, h'.map w = OrderedMap.empty.insert key u
  read : h'.readKeys (.jsonRef ⟨h.maps.size⟩) (rest ++ [last]) = .ok v

theorem eq_of_size_grow {key : String} {w : MapId} (hle : h.maps.size ≤ w.index)
    (hlt : w.index < (h.grow m key).maps.size) : w = ⟨h.maps.size⟩ := by
  rw [size_grow] at hlt
  exact MapId.ext (Nat.le_antisymm (Nat.le_of_lt_succ hlt) hle)

/-- The new map only has what is put into it. -/
theorem map_of_grow {key : String} {g : Heap} {other : String} {u : Value}
    (hm : m.index < h.maps.size)
    (hold : ∀ w, w.index < (h.grow m key).maps.size → g.map w =
      if w = ⟨h.maps.size⟩ then ((h.grow m key).map ⟨h.maps.size⟩).insert other u
      else (h.grow m key).map w) :
    g.map ⟨h.maps.size⟩ = OrderedMap.empty.insert other u ∧
      ∀ w, w.index < h.maps.size →
        g.map w = if w = m then (h.map m).insert key (.jsonRef ⟨h.maps.size⟩) else h.map w := by
  constructor
  · rw [hold _ (by rw [size_grow]; exact Nat.lt_succ_self _), if_pos rfl, map_grow_new hm]
  · intro w hw
    have hne : w ≠ ⟨h.maps.size⟩ := by
      rintro rfl
      exact Nat.lt_irrefl _ hw
    rw [hold w (by rw [size_grow]; exact Nat.lt_succ_of_lt hw), if_neg hne, map_grow hm key hw]

/-- Once a map has to be made, nothing is in the way. -/
theorem exists_extended (hm : m.index < h.maps.size) {key : String}
    (hkey : ((h.map m).get? key).getD .null = .null) (rest : List String) (last : String) (v : Value) :
    ∃ h', h.storeKeys m last v (key :: rest) = .ok h' ∧ h.Extended h' m key rest last v := by
  induction rest generalizing h m key with
  | nil =>
    have hnew : h.maps.size < (h.grow m key).maps.size :=
      size_grow (h := h) m key ▸ Nat.lt_succ_self _
    obtain ⟨hentry, hold⟩ :=
      map_of_grow hm fun w _ => map_putEntry (m := ⟨h.maps.size⟩) (v := v) hnew last w
    refine ⟨_, storeKeys_of_null hkey [], ?_, hold, ?_, ?_⟩
    · exact Nat.le_trans (Nat.le_of_lt hnew) (grows_setMap _ _ _).maps
    · intro w hle hlt
      rw [size_putEntry] at hlt
      rw [eq_of_size_grow hle hlt]
      exact ⟨last, v, hentry⟩
    · rw [List.nil_append, readKeys, hentry, OrderedMap.get?_insert, if_pos rfl]
      rfl
  | cons next rest ih =>
    have hnew : h.maps.size < (h.grow m key).maps.size :=
      size_grow (h := h) m key ▸ Nat.lt_succ_self _
    -- The map that was made is empty, so the next key is missing in it and `ih` applies there.
    have hnull : (((h.grow m key).map ⟨h.maps.size⟩).get? next).getD .null = .null := by
      rw [map_grow_new hm]
      rfl
    obtain ⟨h', hok, he⟩ := ih hnew hnull
    obtain ⟨hentry, hold⟩ := map_of_grow hm he.old
    refine ⟨h', (storeKeys_of_null hkey _).trans hok, ?_, hold, ?_, ?_⟩
    · exact Nat.le_trans (Nat.le_of_lt hnew) he.size
    · intro w hle hlt
      by_cases hw : w.index < (h.grow m key).maps.size
      · rw [eq_of_size_grow hle hw]
        exact ⟨next, _, hentry⟩
      · exact he.made w (Nat.le_of_not_lt hw) hlt
    · rw [List.cons_append, readKeys, hentry, OrderedMap.get?_insert, if_pos rfl]
      exact he.read

/-! ## A write as a whole -/

/-- The entry that a write puts into a map that was there: the last key at the end of the path, or a
new map under a key on the way that was missing or null. -/
inductive Writes (h : Heap) (m : MapId) (path : List String) (last : String) (v : Value) :
    MapId → String → Value → Prop where
  | last : h.keysLeft m path = [] → Writes h m path last v (h.writtenMap m path) last v
  | grown {key : String} {rest : List String} : h.keysLeft m path = key :: rest →
      ((h.map (h.writtenMap m path)).get? key).getD .null = .null →
      Writes h m path last v (h.writtenMap m path) key (.jsonRef ⟨h.maps.size⟩)

/-- What a write along a path does. -/
structure Entered (h h' : Heap) (m : MapId) (path : List String) (last : String) (v : Value) :
    Prop where
  same : h' = { h with maps := h'.maps }
  size : h.maps.size ≤ h'.maps.size
  old : ∃ w key u, h.Writes m path last v w key u ∧ ∀ x, x.index < h.maps.size →
    h'.map x = if x = w then (h.map w).insert key u else h.map x
  made : ∀ w, h.maps.size ≤ w.index → w.index < h'.maps.size →
    ∃ key u, h'.map w = OrderedMap.empty.insert key u
  read : (h.mapsOn m path).Nodup → h'.readKeys (.jsonRef m) (path ++ [last]) = .ok v

/-- What keeps a write from going along a path: on the way there is something that is neither a map
nor null. -/
inductive Blocked (h : Heap) (m : MapId) (path : List String) (last : String) : PathFault → Prop where
  | intro {key : String} {rest : List String} {u : Value} : h.keysLeft m path = key :: rest →
      (h.map (h.writtenMap m path)).get? key = some u → u ≠ .null → (∀ inner, u ≠ .jsonRef inner) →
      Blocked h m path last (.notSettable key last u.typeName)

theorem storeKeys_same (hok : h.storeKeys m last v path = .ok h') :
    h' = { h with maps := h'.maps } := by
  induction path generalizing h m with
  | nil =>
    cases hok
    rfl
  | cons key rest ih =>
    unfold storeKeys at hok
    split at hok
    · exact ih hok
    · exact (ih hok).trans rfl
    · cases hok

/-- A write along a path goes through or is blocked. -/
theorem storeKeys_cases (hc : h.Closed) (hm : m.index < h.maps.size) (path : List String)
    (last : String) (v : Value) :
    (∃ h', h.storeKeys m last v path = .ok h' ∧ h.Entered h' m path last v) ∨
      ∃ f, h.storeKeys m last v path = .error f ∧ h.Blocked m path last f := by
  have hw := writtenMap_lt_size hc hm path
  have hstore := storeKeys_eq_keysLeft (h := h) m path last v
  cases hleft : h.keysLeft m path with
  | nil =>
    rw [hleft] at hstore
    refine .inl ⟨_, hstore, rfl, (size_putEntry _ _).ge, ?_, ?_, ?_⟩
    · exact ⟨_, _, _, .last hleft, fun x _ => map_putEntry hw last x⟩
    · intro w hle hlt
      rw [size_putEntry] at hlt
      exact absurd hlt (Nat.not_lt.2 hle)
    · refine readKeys_of_keysLeft hc hm (fun w _ hne => ?_) ?_
      · rw [map_putEntry hw, if_neg hne]
      · rw [hleft, List.nil_append, readKeys, map_putEntry hw, if_pos rfl, OrderedMap.get?_insert,
          if_pos rfl]
        rfl
  | cons key rest =>
    rw [hleft] at hstore
    -- The first key that is left decides: nothing is there, or something that is no map.
    by_cases hkey : ((h.map (h.writtenMap m path)).get? key).getD .null = .null
    · obtain ⟨h', hok, he⟩ := exists_extended hw hkey rest last v
      have hok' := hstore.trans hok
      refine .inl ⟨h', hok', storeKeys_same hok', he.size, ?_, he.made, ?_⟩
      · exact ⟨_, _, _, .grown hleft hkey, he.old⟩
      · refine readKeys_of_keysLeft hc hm (fun w hlt hne => ?_) ?_
        · rw [he.old w hlt, if_neg hne]
        · rw [hleft, List.cons_append, readKeys, he.old _ hw, if_pos rfl, OrderedMap.get?_insert,
            if_pos rfl]
          exact he.read
    · have hno := get?_of_keysLeft hleft
      cases hget : (h.map (h.writtenMap m path)).get? key with
      | none =>
        rw [hget] at hkey
        exact absurd rfl hkey
      | some u =>
        rw [hget] at hkey hno
        have hnull : u ≠ .null := hkey
        have hmap : ∀ inner, u ≠ .jsonRef inner := fun inner he => hno inner (congrArg some he)
        refine .inr ⟨_, ?_, .intro hleft hget hnull hmap⟩
        rw [hstore, storeKeys, hget]
        cases u with
        | null => exact absurd rfl hnull
        | jsonRef inner => exact absurd rfl (hmap inner)
        | _ => rfl

/-! ## Nothing half written -/

/-- The write with every map made and put in its place as soon as it is needed: the store that it
leaves, also when it fails. -/
def writeThrough (h : Heap) (m : MapId) (last : String) (v : Value) :
    List String → Except PathFault Unit × Heap
  | [] => (.ok (), h.putEntry m last v)
  | key :: rest =>
    match ((h.map m).get? key).getD .null with
    | .jsonRef inner => h.writeThrough inner last v rest
    | .null => (h.grow m key).writeThrough ⟨h.maps.size⟩ last v rest
    | other => (.error (.notSettable key last other.typeName), h)

theorem writeThrough_of_ok (hok : h.storeKeys m last v path = .ok h') :
    h.writeThrough m last v path = (.ok (), h') := by
  induction path generalizing h m with
  | nil =>
    cases hok
    rfl
  | cons key rest ih =>
    rw [storeKeys] at hok
    rw [writeThrough]
    cases hget : ((h.map m).get? key).getD .null with
    | jsonRef inner =>
      rw [hget] at hok
      exact ih hok
    | null =>
      rw [hget] at hok
      exact ih hok
    | _ =>
      rw [hget] at hok
      cases hok

/-- A write that fails has made nothing yet. -/
theorem writeThrough_eq (hc : h.Closed) (hm : m.index < h.maps.size) (path : List String) :
    h.writeThrough m last v path = match h.storeKeys m last v path with
      | .ok h' => (.ok (), h')
      | .error f => (.error f, h) := by
  induction path generalizing m with
  | nil => rfl
  | cons key rest ih =>
    by_cases hkey : ((h.map m).get? key).getD .null = .null
    · obtain ⟨h', hok, -⟩ := exists_extended hm hkey rest last v
      rw [writeThrough_of_ok hok, hok]
    · cases hget : (h.map m).get? key with
      | none =>
        rw [hget] at hkey
        exact absurd rfl hkey
      | some u =>
        rw [hget] at hkey
        cases u with
        | null => exact absurd rfl hkey
        | jsonRef inner =>
          rw [storeKeys_of_jsonRef hget, writeThrough, hget]
          exact ih ((hc.map m).get? hget)
        | _ =>
          rw [writeThrough, storeKeys, hget]
          rfl

end Heap
end Ditlang
