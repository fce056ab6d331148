import Ditlang.Proofs.Heap.JsonPaths
import Ditlang.Proofs.Session.Assignment
import Ditlang.Proofs.Session.CopyOnWrite
import Ditlang.Proofs.Session.Internals

/-!
# Ditlang.Proofs.Session.JsonPaths

Writing to paths such as `a.b.c` that lead through JSON. What is missing on the way is made, but only
when the write goes through: a write that fails leaves the session as it was. A write that goes
through is seen where the path leads, and of what was there before it changes one entry, or the slot
in which the path starts if that held no JSON yet.
-/

namespace Ditlang

open Heap

/-- A path through JSON goes at least one key far, and if it starts at a slot, then at one that takes
JSON. -/
def Operand.Grown (h : Heap) : Operand → Prop
  | .json root keys => keys ≠ [] ∧ ∀ s, root = .slot s → h.growsJson s = true
  | _ => True

/-- An operand as paths lead to it. -/
def Operand.Built (h : Heap) (o : Operand) : Prop :=
  o.Valid h ∧ o.Grown h

section

variable {h h' : Heap}

theorem Heap.Grows.growsJson (g : h.Grows h') {s : SlotId} (hs : h.HasSlot s)
    (hj : h.growsJson s = true) : h'.growsJson s = true := by
  unfold Heap.growsJson at hj ⊢
  rw [g.generic s hs, g.declared s hs]
  exact hj

theorem Operand.Built.mono {o : Operand} (g : h.Grows h') (ho : o.Built h) : o.Built h' := by
  obtain ⟨hv, hg⟩ := ho
  refine ⟨hv.mono g, ?_⟩
  cases o with
  | json root keys =>
    refine ⟨hg.1, ?_⟩
    rintro s rfl
    exact g.growsJson hv (hg.2 s rfl)
  | _ => trivial

theorem Heap.assign_of_growsJson {s : SlotId} (hj : h.growsJson s = true) (m : MapId) :
    h.assign s (.jsonRef m) = .ok (h.setValue s (.jsonRef m)) := by
  unfold Heap.growsJson at hj
  rw [Bool.or_eq_true, beq_iff_eq] at hj
  unfold assign
  cases hg : (h.slot s).generic with
  | true => exact if_pos hg
  | false =>
    rw [hg] at hj
    have hd := hj.resolve_left (by decide)
    have hcheck : h.checkValue (.jsonRef m) (h.slot s).declared = none := by
      rw [hd]
      rfl
    have hsettle : h.settle (h.slot s).declared (h.slot s).value (.jsonRef m) = (.jsonRef m, h) := by
      unfold settle
      cases (h.slot s).value <;> rfl
    simp only [hcheck, hsettle]
    exact if_neg (by rw [hg]; decide)

end

namespace Eval

variable {d : Deeper} {h : Heap}

/-- What a part yields besides what it does to the store. -/
theorem Runs.and_yields {α : Type} {x : Eval α} {P Q : Heap → α → Prop} (hx : Runs h x P)
    (hy : ∀ s, Yields s x fun a t => Q t.session.heap a) : Runs h x fun h' a => P h' a ∧ Q h' a := by
  intro s hs hh
  have hl := hx s hs hh
  cases hdone : x s with
  | done a t =>
    rw [hdone] at hl
    exact ⟨hl.1, hl.2.1, hl.2.2.1, hl.2.2.2, hy s a t hdone⟩
  | failed e t =>
    rw [hdone] at hl
    exact hl
  | outOfFuel => trivial

theorem containerMember_grown (base : Value) (qualifier : Option ContainerId) (name : String)
    (s : EvalState) :
    Yields s (containerMember d base qualifier name) fun o t => o.Grown t.session.heap := by
  unfold containerMember
  refine .gets (.gets ?_)
  dsimp only
  split
  · refine .bind fun _ _ _ => .gets (.bind fun _ _ _ => .gets (.bind fun m _ _ => ?_))
    cases m <;> exact .pure trivial
  · refine .gets (.bind fun _ _ _ => .gets (.bind fun m _ _ => ?_))
    cases m <;> exact .pure trivial

theorem runs_containerMember_built (hd : d.Sound) {base : Value} (hb : base.Valid h)
    {qualifier : Option ContainerId} (hq : h.QualifierValid qualifier) (name : String) :
    Runs h (containerMember d base qualifier name) fun h' o => o.Built h' :=
  ((obeys_containerMember (obeys_of_sound hd) hb hq name).runs.mono fun _ _ _ ho => ho.1).and_yields
    (P := Operand.Valid) (Q := Operand.Grown) (containerMember_grown base qualifier name)

/-- Going one member further leads to such an operand again. -/
theorem runs_memberStep_built (hd : d.Sound) {o : Operand} (ho : o.Built h) :
    Runs h (memberStep d o) fun h' o => o.Built h' := by
  obtain ⟨hvalid, hgrown⟩ := ho
  unfold memberStep
  refine obeys_memberName.runs.bind_kept fun name => ?_
  split
  · exact .pure ⟨hvalid, by simp, hgrown.2⟩
  · refine runs_containerMember_built hd hvalid.1 ?_ name
    rintro _ ⟨⟩
    exact hvalid.2
  · refine (obeys_read hvalid).runs.bind_same fun v hv => ?_
    split
    · exact .pure ⟨hv, by simp, nofun⟩
    · refine .bind_heap ?_
      split
      · rename_i hj
        refine .pure ⟨hvalid, by simp, ?_⟩
        rintro _ ⟨⟩
        exact hj
      · have hnull : Value.null.Valid h := trivial
        exact runs_containerMember_built hd hnull qualifierValid_none name
    · exact runs_containerMember_built hd hv qualifierValid_none name

/-! ## The write -/

/-- A slot without JSON gets a new map at the start of a write. -/
theorem rootMap_slot_of_ne {s : EvalState} {u : SlotId}
    (hj : s.session.heap.growsJson u = true) (hno : ∀ m, s.session.heap.value u ≠ .jsonRef m) :
    rootMap (.slot u) s = .done ⟨s.session.heap.maps.size⟩ { s with session := { s.session with
      heap := (s.session.heap.newMap .empty).2.setValue u
        (.jsonRef ⟨s.session.heap.maps.size⟩) } } := by
  have hassign : (s.session.heap.newMap .empty).2.assign u (.jsonRef ⟨s.session.heap.maps.size⟩) =
      .ok ((s.session.heap.newMap .empty).2.setValue u (.jsonRef ⟨s.session.heap.maps.size⟩)) :=
    assign_of_growsJson (h := (s.session.heap.newMap .empty).2) hj _
  have hmake : (do
      let m ← withHeap (·.newMap .empty)
      assignSlot u (.jsonRef m)
      pure m : Eval MapId) s = .done ⟨s.session.heap.maps.size⟩ { s with session := { s.session with
        heap := (s.session.heap.newMap .empty).2.setValue u
          (.jsonRef ⟨s.session.heap.maps.size⟩) } } := by
    simp only [bind_apply, Eval.bind, withHeap, Eval.assignSlot_apply]
    dsimp only [newMap] at hassign ⊢
    rw [hassign]
    simp only [warmAssign_jsonRef]
    rfl
  rw [← hmake]
  unfold rootMap
  -- The slot holds no map (`hno`), so the other branch is taken.
  simp only [bind_apply, Eval.bind, heap, gets]

/-- The map at which a write along a path starts: the one that is there, or a new one, which the slot
takes. -/
theorem rootMap_cases {s : EvalState} {root : JsonRoot}
    (hroot : ∀ u, root = .slot u → s.session.heap.growsJson u = true) :
    (∃ m, s.session.heap.rootValue root = .jsonRef m ∧ rootMap root s = .done m s) ∨
    ∃ u, root = .slot u ∧ (∀ m, s.session.heap.value u ≠ .jsonRef m) ∧
      rootMap root s = .done ⟨s.session.heap.maps.size⟩ { s with session := { s.session with
        heap := (s.session.heap.newMap .empty).2.setValue u
          (.jsonRef ⟨s.session.heap.maps.size⟩) } } := by
  cases root with
  | map m => exact .inl ⟨m, rfl, rfl⟩
  | slot u =>
    by_cases hjson : ∃ m, s.session.heap.value u = .jsonRef m
    · obtain ⟨m, hval⟩ := hjson
      refine .inl ⟨m, hval, ?_⟩
      unfold rootMap
      simp only [bind_apply, Eval.bind, heap, gets, hval]
      rfl
    · have hno : ∀ m, s.session.heap.value u ≠ .jsonRef m := fun m hval => hjson ⟨m, hval⟩
      exact .inr ⟨u, rfl, hno, rootMap_slot_of_ne (hroot u rfl) hno⟩

/-- Once the first map is there, only the way along the path can fail. -/
theorem store_json_apply {s t : EvalState} {root : JsonRoot} {m : MapId}
    (hroot : rootMap root s = .done m t) (path : List String) (last : String) (v : Value) :
    store (.json root (path ++ [last])) v s =
      match t.session.heap.storeKeys m last v path with
      | .ok h => .done () { t with session := { t.session with heap := h } }
      | .error f => .failed (.diagnostic (.typeMismatch f.message)) t := by
  unfold store
  simp only [bind_apply, Eval.bind, hroot, List.getLast?_concat, List.dropLast_concat, heap, gets]
  cases t.session.heap.storeKeys m last v path <;> rfl

end Eval

/-! ## What it changes -/

/-- The maps on a path from its root that are there. -/
def Heap.mapsFrom (h : Heap) (root : JsonRoot) (path : List String) : List MapId :=
  match h.rootValue root with
  | .jsonRef m => h.mapsOn m path
  | _ => []

/-- What a write along a path from a root does: reading along it gives the value, unless the path comes
to a map twice; no slot changes, except that a root slot without JSON gets a new map; of the maps that
were there one entry changes, at the end of the path or where it goes on in new maps, and the new maps
have one entry each. -/
structure JsonStored (h h' : Heap) (root : JsonRoot) (path : List String) (last : String) (v : Value) :
    Prop where
  same : h' = { h with slots := h'.slots, maps := h'.maps }
  read : (h.mapsFrom root path).Nodup → h'.readOperand (.json root (path ++ [last])) = .ok v
  slot : ∀ s, (root = .slot s → ∃ m, h.value s = .jsonRef m) → h'.slot s = h.slot s
  newRoot : ∀ s, root = .slot s → (∀ m, h.value s ≠ .jsonRef m) →
    ∃ m, h.maps.size ≤ m.index ∧ h'.slot s = { h.slot s with value := .jsonRef m }
  entry : ∀ w key, w.index < h.maps.size →
    (∀ m u, h.rootValue root = .jsonRef m → ¬ h.Writes m path last v w key u) →
    (h'.map w).get? key = (h.map w).get? key
  written : ∀ m w key u, h.rootValue root = .jsonRef m → h.Writes m path last v w key u →
    (h'.map w).get? key = some u
  made : ∀ w, h.maps.size ≤ w.index → w.index < h'.maps.size →
    ∃ key u, h'.map w = OrderedMap.empty.insert key u

section

variable {h h' : Heap} {root : JsonRoot} {path : List String} {last : String} {v : Value}

theorem Heap.Writes.eq_writtenMap {m w : MapId} {key : String} {u : Value}
    (hw : h.Writes m path last v w key u) : w = h.writtenMap m path := by
  cases hw <;> rfl

theorem Heap.Writes.unique {m w w' : MapId} {key key' : String} {u u' : Value}
    (hw : h.Writes m path last v w key u) (hw' : h.Writes m path last v w' key' u') :
    w' = w ∧ key' = key ∧ u' = u := by
  cases hw with
  | last hleft =>
    cases hw' with
    | last => exact ⟨rfl, rfl, rfl⟩
    | grown hleft' => cases hleft.symm.trans hleft'
  | grown hleft =>
    cases hw' with
    | last hleft' => cases hleft.symm.trans hleft'
    | grown hleft' =>
      obtain ⟨rfl, -⟩ := List.cons.inj (hleft.symm.trans hleft')
      exact ⟨rfl, rfl, rfl⟩

theorem JsonStored.of_entered (hc : h.Closed) {m : MapId} (hroot : h.rootValue root = .jsonRef m)
    (hm : m.index < h.maps.size) (he : h.Entered h' m path last v) :
    JsonStored h h' root path last v := by
  obtain ⟨w, key, u, hw, hold⟩ := he.old
  have hslot : ∀ s, h'.slot s = h.slot s := fun s => by
    rw [he.same]
    rfl
  have hroot' : h'.rootValue root = .jsonRef m := by
    rw [← hroot, he.same]
    cases root <;> rfl
  refine ⟨?_, fun hdistinct => ?_, fun s _ => hslot s, ?_, ?_, ?_, he.made⟩
  · rw [he.same]
  · rw [Heap.mapsFrom, hroot] at hdistinct
    rw [readOperand, hroot']
    exact he.read hdistinct
  · rintro s rfl hno
    exact absurd hroot (hno m)
  · intro x other hx hnot
    rw [hold x hx]
    split
    · rename_i hxw
      subst hxw
      rw [OrderedMap.get?_insert, if_neg]
      rintro rfl
      exact hnot m u hroot hw
    · rfl
  · intro m' x other u' hm' hx
    obtain rfl := Value.jsonRef.inj (hroot.symm.trans hm')
    obtain ⟨hxw, hkey, hu⟩ := hw.unique hx
    have hlt : x.index < h.maps.size := hx.eq_writtenMap ▸ writtenMap_lt_size hc hm path
    rw [hold x hlt, if_pos hxw, OrderedMap.get?_insert, if_pos hkey, hu]

theorem JsonStored.of_newRoot {s : SlotId} (hs : h.HasSlot s) (hno : ∀ m, h.value s ≠ .jsonRef m)
    (he : ((h.newMap .empty).2.setValue s (.jsonRef ⟨h.maps.size⟩)).Entered h' ⟨h.maps.size⟩ path last
      v) : JsonStored h h' (.slot s) path last v := by
  generalize hg : (h.newMap .empty).2.setValue s (.jsonRef ⟨h.maps.size⟩) = g at he
  have hmap : ∀ w, g.map w = if w.index = h.maps.size then .empty else h.map w := fun w => by
    rw [← hg]
    exact map_newMap h .empty w
  have hsize : g.maps.size = h.maps.size + 1 := by
    rw [← hg]
    simp [setValue, setSlot, newMap]
  have hempty : g.map ⟨h.maps.size⟩ = .empty := by rw [hmap, if_pos rfl]
  have hslot : ∀ t, h'.slot t =
      if s = t ∧ s.index < h.slots.size then { h.slot t with value := .jsonRef ⟨h.maps.size⟩ }
      else h.slot t := fun t => by
    rw [he.same, ← hg]
    exact slot_setValue (h.newMap .empty).2 s t _
  obtain ⟨w, key, u, hw, hold⟩ := he.old
  -- The new map is empty, so the path ends in it and none of the maps that were there is written to.
  obtain rfl : w = ⟨h.maps.size⟩ := hw.eq_writtenMap.trans (writtenMap_of_empty hempty path)
  refine ⟨?_, fun _ => ?_, fun t ht => ?_, ?_, ?_, ?_, ?_⟩
  · rw [he.same, ← hg]
    rfl
  · have hdistinct : (g.mapsOn ⟨h.maps.size⟩ path).Nodup := by
      rw [mapsOn_of_empty hempty]
      exact List.nodup_singleton _
    have hvalue : h'.value s = .jsonRef ⟨h.maps.size⟩ := by rw [value, hslot, if_pos ⟨rfl, hs⟩]
    rw [readOperand, rootValue, hvalue]
    exact he.read hdistinct
  · rw [hslot, if_neg]
    rintro ⟨rfl, -⟩
    obtain ⟨m, hm⟩ := ht rfl
    exact hno m hm
  · rintro _ ⟨⟩ -
    exact ⟨_, Nat.le_refl _, (hslot s).trans (if_pos ⟨rfl, hs⟩)⟩
  · intro x other hx _
    have hne : ¬ x.index = h.maps.size := Nat.ne_of_lt hx
    rw [hold x (by omega), if_neg fun he => hne (by rw [he]), hmap, if_neg hne]
  · intro m _ _ _ hm
    exact absurd hm (hno m)
  · intro x hle hlt
    by_cases hx : x.index = h.maps.size
    · obtain rfl : x = ⟨h.maps.size⟩ := MapId.ext hx
      exact ⟨key, u, by rw [hold _ (by rw [hsize]; exact Nat.lt_succ_self _), if_pos rfl, hempty]⟩
    · exact he.made x (by omega) hlt

/-- The store in which a slot has got a new map. -/
theorem newRoot_spec (hr : h.Reachable) {s : SlotId} (hs : h.HasSlot s)
    (hj : h.growsJson s = true) {g : Heap}
    (hg : (h.newMap .empty).2.setValue s (.jsonRef ⟨h.maps.size⟩) = g) :
    g.Closed ∧ g.map ⟨h.maps.size⟩ = .empty ∧ h.maps.size < g.maps.size := by
  subst hg
  have hmap : h.Step (h.newMap .empty).2 := .newMap (.empty _)
  have hassign : (h.newMap .empty).2.Step
      ((h.newMap .empty).2.setValue s (.jsonRef ⟨h.maps.size⟩)) :=
    .assign (hs.mono hmap.grows) (by simp [Value.Valid, newMap])
      (assign_of_growsJson (h := (h.newMap .empty).2) hj _)
  refine ⟨((hr.step hmap).step hassign).closed, ?_, ?_⟩
  · exact (map_newMap h .empty _).trans (if_pos rfl)
  · simp [setValue, setSlot, newMap]

theorem Heap.not_blocked_of_empty {m : MapId} {f : PathFault} (hm : h.map m = .empty) :
    ¬ h.Blocked m path last f := by
  rintro ⟨-, hget, -, -⟩
  rw [writtenMap_of_empty hm, hm] at hget
  cases hget

theorem Eval.read_of_ok {s : EvalState} {o : Operand} (hok : s.session.heap.readOperand o = .ok v) :
    Eval.read o s = .done v s := by
  unfold Eval.read
  simp only [Eval.bind_apply, Eval.bind, Eval.heap, Eval.gets, hok]
  rfl

end

/-- In every reachable store, and so in every session, and for every path through JSON, as going from
member to member leads to it: a write of a value that fails leaves the session as it was. It fails
because on the way there is something that is neither JSON nor null, and nothing has been made when it
comes there. A write that goes through has the value where the path leads, unless the path comes to a
map twice, and changes nothing that is not on the path. -/
theorem json_store_atomic_lens :
    (∀ s : Session, s.Reached → s.heap.Reachable) ∧
    (∀ (d : Deeper) (s t : EvalState) (o o' : Operand), d.Sound → s.Sound →
      o.Built s.session.heap → Eval.memberStep d o s = .done o' t → o'.Built t.session.heap) ∧
    (∀ (h h' : Heap) (o : Operand), h.Steps h' → o.Built h → o.Built h') ∧
    ∀ h : Heap, h.Reachable → ∀ root keys, (Operand.json root keys).Built h →
      ∃ path last, keys = path ++ [last] ∧ ∀ v, v.Valid h →
      ∀ st : EvalState, st.session.heap = h →
      match Eval.store (.json root keys) v st with
      | .failed e t => t = st ∧ ∃ m f, h.rootValue root = .jsonRef m ∧ h.Blocked m path last f ∧
          e = .diagnostic (.typeMismatch f.message) ∧ h.writeThrough m last v path = (.error f, h)
      | .done _ t => ∃ h', t = { st with session := { st.session with heap := h' } } ∧
          JsonStored h h' root path last v ∧
          ((h.mapsFrom root path).Nodup → Eval.read (.json root keys) t = .done v t)
      | .outOfFuel => False := by
  refine ⟨fun s hs => hs.sound.heap, ?_, fun h h' o hsteps ho => ho.mono hsteps.grows, ?_⟩
  · intro d s t o o' hd hs ho hdone
    have hl := Eval.runs_memberStep_built hd ho s hs rfl
    rw [hdone] at hl
    exact hl.2.2.2
  · intro h hr root keys ho
    obtain ⟨hvalid, hne, hroot⟩ := ho
    obtain ⟨path, last, rfl⟩ := List.eq_nil_or_concat' keys |>.resolve_left hne
    refine ⟨path, last, rfl, ?_⟩
    rintro v hv st rfl
    have hc := hr.closed
    rcases Eval.rootMap_cases hroot with ⟨m, hm, hdone⟩ | ⟨u, rfl, hno, hdone⟩
    · have hlt : m.index < st.session.heap.maps.size := by
        have hvalue := valid_rootValue hc hvalid
        rwa [hm] at hvalue
      rw [Eval.store_json_apply hdone]
      obtain ⟨h', hok, he⟩ | ⟨f, herr, hblocked⟩ := storeKeys_cases hc hlt path last v
      · rw [hok]
        have hstored := JsonStored.of_entered hc hm hlt he
        exact ⟨h', rfl, hstored, fun hdistinct => Eval.read_of_ok (hstored.read hdistinct)⟩
      · rw [herr]
        refine ⟨rfl, m, f, hm, hblocked, rfl, ?_⟩
        rw [writeThrough_eq hc hlt, herr]
    · obtain ⟨hclosed, hempty, hlt⟩ := newRoot_spec hr hvalid (hroot u rfl) rfl
      rw [Eval.store_json_apply hdone]
      obtain ⟨h', hok, he⟩ | ⟨f, -, hblocked⟩ :=
        storeKeys_cases (m := ⟨st.session.heap.maps.size⟩) hclosed hlt path last v
      · rw [hok]
        have hstored := JsonStored.of_newRoot hvalid hno he
        exact ⟨h', rfl, hstored, fun hdistinct => Eval.read_of_ok (hstored.read hdistinct)⟩
      · exact absurd hblocked (not_blocked_of_empty hempty)

/-- A name for JSON that holds null, and one that has a number under a key. -/
def twoJsonNames : String :=
  "JSON j; JSON i = \x7b\"k\": 1\x7d;"

/-- A write below the name that holds null is read back, and a write below the number leaves the
session as it is. -/
theorem json_store_atomic_lens_of_two_names :
    ∃ (s : Session) (st t : EvalState) (e : Failure),
      Session.bare.evalSource twoJsonNames = some (.ok (), s) ∧
      st = ⟨s, .start s.main s.mainPath (.ofText "") false⟩ ∧
      Eval.store (.json (.slot ⟨26⟩) ["a", "b"]) (.bool true) st = .done () t ∧
      Eval.read (.json (.slot ⟨26⟩) ["a", "b"]) t = .done (.bool true) t ∧
      Eval.store (.json (.map ⟨0⟩) ["k", "x"]) (.bool true) st = .failed e st := by
  obtain ⟨s, hrun, hs, hp⟩ := Session.exists_reached twoJsonNames
    (p := fun s => decide (26 < s.heap.slots.size ∧ 0 < s.heap.maps.size ∧
        s.heap.growsJson ⟨26⟩ = true ∧ s.heap.value ⟨26⟩ = .null) &&
      ((Eval.store (.json (.slot ⟨26⟩) ["a", "b"]) (.bool true)
          ⟨s, .start s.main s.mainPath (.ofText "") false⟩).result.any (·.1.isOk) &&
        (Eval.store (.json (.map ⟨0⟩) ["k", "x"]) (.bool true)
          ⟨s, .start s.main s.mainPath (.ofText "") false⟩).result.any (!·.1.isOk)))
    (by decide +kernel)
  obtain ⟨hlooked, hends⟩ := Bool.and_eq_true_iff.1 hp
  obtain ⟨hends, hfails⟩ := Bool.and_eq_true_iff.1 hends
  obtain ⟨u, t, hdone⟩ := Outcome.exists_done hends
  obtain ⟨e, u, hfailed⟩ := Outcome.exists_failed hfails
  obtain ⟨hslot, hmap, hgrows, hnull⟩ := of_decide_eq_true hlooked
  have hlaw := json_store_atomic_lens.2.2.2 s.heap (json_store_atomic_lens.1 s hs)
  have hbool : Value.Valid s.heap (.bool true) := trivial
  obtain ⟨path, last, hkeys, hwrite⟩ := hlaw (.slot ⟨26⟩) ["a", "b"]
    ⟨hslot, by decide, by rintro _ ⟨⟩; exact hgrows⟩
  obtain ⟨_, _, -, hbelow⟩ := hlaw (.map ⟨0⟩) ["k", "x"] ⟨hmap, by decide, by rintro _ ⟨⟩⟩
  have hwrite := hwrite (.bool true) hbool ⟨s, .start s.main s.mainPath (.ofText "") false⟩ rfl
  have hbelow := hbelow (.bool true) hbool ⟨s, .start s.main s.mainPath (.ofText "") false⟩ rfl
  rw [hdone] at hwrite
  rw [hfailed] at hbelow
  obtain ⟨h', -, -, hread⟩ := hwrite
  obtain ⟨rfl, -⟩ := hbelow
  refine ⟨s, _, t, e, hrun, rfl, hdone, hread ?_, hfailed⟩
  rw [Heap.mapsFrom, rootValue, hnull]
  exact List.nodup_nil

end Ditlang
