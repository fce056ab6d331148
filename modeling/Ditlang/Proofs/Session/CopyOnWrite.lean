import Ditlang.Proofs.Heap.Instances
import Ditlang.Proofs.Session.Reached

/-!
# Ditlang.Proofs.Session.CopyOnWrite

What an assignment to an attribute of an instance changes for others. A write to the attribute itself
goes to a slot of the instance, a copy if the attribute is inherited, and nobody else sees it. A write
below a JSON value of the attribute goes to the map that is there, and an inherited one is that of the
class: everything that has the map sees the write.
-/

namespace Ditlang

open Heap

/-- What a member is as an expression path. -/
def Member.operand : Member → Operand
  | .slot s => .slot s
  | m => .member m

/-- A path that starts at an instance, goes through one of its attributes, inherited or not, and
perhaps further down the JSON value of it. -/
inductive Operand.Through (h : Heap) (i : ContainerId) : Operand → Prop where
  | attr {q : Option ContainerId} {x : String} {m : Member} {s : SlotId} :
      h.member (.instanceRef i) q x = .ok m → m.slot? = some s → Through h i m.operand
  | under {o : Operand} {m : MapId} (key : String) :
      Through h i o → h.readOperand o = .ok (.jsonRef m) → Through h i (.json (.map m) [key])
  | growing {s : SlotId} (key : String) :
      Through h i (.slot s) → h.value s = .null → Through h i (.json (.slot s) [key])
  | further {root : JsonRoot} {keys : List String} (key : String) :
      Through h i (.json root keys) → Through h i (.json root (keys ++ [key]))

/-- The map, of those that are there, in which a write to a path puts its entry. -/
def Operand.writtenMap? (h : Heap) : Operand → Option MapId
  | .json root keys =>
    match h.rootValue root with
    | .jsonRef m => some (h.writtenMap m keys.dropLast)
    | _ => none
  | _ => none

/-- A path that ends in an instance or in a JSON map. -/
def Operand.EndsIn (h : Heap) (i : ContainerId) : Operand → Prop
  | .slot s | .json (.slot s) _ => ∃ key, (h.container i).attrs.get? key = some s
  | .member (.inherited _ j _) => j = i
  | .json (.map _) _ => True
  | _ => False

section

variable {h h' : Heap} {i : ContainerId} {o : Operand}

theorem Operand.Through.endsIn (ho : o.Through h i) : o.EndsIn h i := by
  induction ho with
  | attr hm hs =>
    obtain ⟨rfl, hown⟩ | ⟨-, rfl, -⟩ := instanceMember_cases hm hs
    · exact ⟨_, hown⟩
    · rfl
  | under => trivial
  | growing key _ _ ih => exact ih
  | @further root keys key _ ih => cases root <;> exact ih

theorem Operand.EndsIn.mono (hi : h.IsKind .inst i) (g : h.Grows h') (ho : o.EndsIn h i) :
    o.EndsIn h' i := by
  have hattr : ∀ s, (∃ key, (h.container i).attrs.get? key = some s) →
      ∃ key, (h'.container i).attrs.get? key = some s :=
    fun s ⟨key, hs⟩ => ⟨key, (g.container i hi.lt_size).attrs key s hs⟩
  cases o with
  | slot s => exact hattr s ho
  | member m =>
    cases m with
    | inherited s j key => exact ho
    | _ => exact ho.elim
  | json root keys =>
    cases root with
    | slot s => exact hattr s ho
    | map m => trivial
  | value v => exact ho.elim

end

/-! ## The write -/

namespace Eval

variable {s s' : EvalState} {i : ContainerId}

theorem assignSlot_done {u : SlotId} {v : Value} (hrun : assignSlot u v s = .done () s') :
    ∃ h, s.session.heap.assign u v = .ok h ∧ s'.session.heap = h.warmAssign u v := by
  obtain ⟨_, _, ⟨⟩, hrun⟩ := bind_eq_done_iff.1 hrun
  obtain ⟨h, t, hok, hset⟩ := bind_eq_done_iff.1 hrun
  cases hassign : s.session.heap.assign u v with
  | error e =>
    rw [hassign] at hok
    cases hok
  | ok h' =>
    rw [hassign] at hok
    cases hok
    cases hset
    exact ⟨h, rfl, rfl⟩

theorem confined_assignSlot {u : SlotId} {v : Value} {ws : MapId → Prop}
    (hrun : assignSlot u v s = .done () s') :
    s.session.heap.Confined s'.session.heap i (· = u) ws := by
  obtain ⟨h, hok, hs'⟩ := assignSlot_done hrun
  rw [hs']
  exact (confined_assign hok).warmAll _

theorem withHeap_done {α : Type} {f : Heap → α × Heap} {a : α} (hrun : withHeap f s = .done a s') :
    a = (f s.session.heap).1 ∧ s'.session.heap = (f s.session.heap).2 := by
  cases hrun
  exact ⟨rfl, rfl⟩

/-- The map at which a write below a JSON value starts: the one that is there, or a new one in the
slot. -/
theorem rootMap_done {root : JsonRoot} {m : MapId} (hrun : rootMap root s = .done m s') :
    (s.session.heap.rootValue root = .jsonRef m ∧ s' = s) ∨
    ∃ u, root = .slot u ∧ (∀ m, s.session.heap.rootValue root ≠ .jsonRef m) ∧
      m = ⟨s.session.heap.maps.size⟩ ∧
      (s.session.heap.newMap .empty).2.assign u (.jsonRef m) = .ok s'.session.heap := by
  cases root with
  | map w =>
    cases hrun
    exact .inl ⟨rfl, rfl⟩
  | slot u =>
    change (match s.session.heap.value u with
      | .jsonRef m => pure m
      | _ => do
        let m ← withHeap (·.newMap .empty)
        assignSlot u (.jsonRef m)
        pure m : Eval MapId) s = .done m s' at hrun
    cases hval : s.session.heap.value u with
    | jsonRef w =>
      rw [hval] at hrun
      cases hrun
      exact .inl ⟨hval, rfl⟩
    | _ =>
      rw [hval] at hrun
      obtain ⟨w, t, hnew, hrun⟩ := bind_eq_done_iff.1 hrun
      obtain ⟨_, t', hassign, hrun⟩ := bind_eq_done_iff.1 hrun
      cases hrun
      obtain ⟨rfl, ht⟩ := withHeap_done hnew
      refine .inr ⟨u, rfl, fun m hm => ?_, rfl, ?_⟩
      · cases hval.symm.trans hm
      · obtain ⟨h, hok, hs'⟩ := assignSlot_done hassign
        rw [warmAssign_jsonRef] at hs'
        rw [← ht, hs']
        exact hok

/-- A write to an attribute of an instance, or below one, changes slots of the instance and at most one
map that was there. -/
theorem store_confined (hc : s.session.heap.Closed) {o : Operand} (ho : o.EndsIn s.session.heap i)
    (hv : o.Valid s.session.heap) {v : Value} (hrun : store o v s = .done () s') :
    s.session.heap.Confined s'.session.heap i
      (fun u => ∃ key, (s.session.heap.container i).attrs.get? key = some u)
      fun w => o.writtenMap? s.session.heap = some w := by
  cases o with
  | slot u =>
    exact (Confined.refl _ i _ _).trans (confined_assignSlot hrun) (fun t _ ht => ht ▸ ho)
      fun _ _ => id
  | value v => exact ho.elim
  | member m =>
    cases m with
    | slot u => exact ho.elim
    | qualifier base c => exact ho.elim
    | inherited t j key =>
      obtain rfl : j = i := ho
      unfold store at hrun
      obtain ⟨own, t', hmat, hrun⟩ := bind_eq_done_iff.1 hrun
      obtain ⟨rfl, ht'⟩ := withHeap_done hmat
      have hassign : t'.session.heap.Confined s'.session.heap j (· = _) fun _ => False :=
        confined_assignSlot hrun
      rw [ht'] at hassign
      refine (confined_materialize key t).trans hassign ?_ fun _ _ => False.elim
      rintro u hu rfl
      rcases materialize_cases (h := s.session.heap) j key t with ⟨own, hown, hm⟩ | ⟨-, hm⟩
      · rw [hm]
        exact ⟨key, hown⟩
      · rw [hm] at hu
        exact absurd hu (Nat.lt_irrefl _)
  | json root keys =>
    unfold store at hrun
    obtain ⟨m, t, hroot, hrun⟩ := bind_eq_done_iff.1 hrun
    cases hlast : keys.getLast? with
    | none =>
      rw [hlast] at hrun
      cases hrun
    | some last =>
      rw [hlast] at hrun
      simp only [bind_apply, Eval.bind, heap, gets] at hrun
      cases hok : t.session.heap.storeKeys m last v keys.dropLast with
      | error f =>
        rw [hok] at hrun
        cases hrun
      | ok h' =>
        rw [hok] at hrun
        cases hrun
        obtain ⟨hval, rfl⟩ | ⟨u, rfl, hno, rfl, hassign⟩ := rootMap_done hroot
        · have hm : m.index < t.session.heap.maps.size := by
            have hroot := valid_rootValue hc hv
            rwa [hval] at hroot
          have hwrite : t.session.heap.Confined h' i (fun _ => False) _ :=
            confined_storeKeys hc hm hok
          rw [Operand.writtenMap?, hval]
          exact (Confined.refl _ i _ _).trans hwrite (fun _ _ => False.elim)
            fun w _ hw => congrArg some hw.symm
        · -- The slot gets a map that is new, and the rest is written into that.
          have hnew : s.session.heap.Confined (s.session.heap.newMap .empty).2 i
              (fun u => ∃ key, (s.session.heap.container i).attrs.get? key = some u)
              fun w => (Operand.json (.slot u) keys).writtenMap? s.session.heap = some w :=
            confined_newMap _
          have hput := hnew.trans (confined_assign hassign) (fun _ _ he => he ▸ ho) fun _ _ => id
          have hsize : s.session.heap.maps.size < t.session.heap.maps.size :=
            Nat.lt_of_lt_of_le (by simp [newMap]) (grows_assign hassign).maps
          have hempty : t.session.heap.map ⟨s.session.heap.maps.size⟩ = .empty := by
            have hkept : (s.session.heap.newMap .empty).2.Confined t.session.heap i _
                fun _ => False := confined_assign hassign
            rw [hkept.map _ (by simp [newMap]) id, map_newMap, if_pos rfl]
          have hclosed : t.session.heap.Closed :=
            (hc.newMap (.empty _)).assign (by simp [Value.Valid, newMap]) hassign
          have hwrite : t.session.heap.Confined h' i (fun _ => False)
              (· = t.session.heap.writtenMap ⟨s.session.heap.maps.size⟩ keys.dropLast) :=
            confined_storeKeys hclosed hsize hok
          rw [writtenMap_of_empty hempty] at hwrite
          refine hput.trans hwrite (fun _ _ => False.elim) ?_
          rintro _ hlt rfl
          exact absurd hlt (Nat.lt_irrefl _)

end Eval

/-! ## Who sees it -/

/-- Whatever a path through an attribute of an instance has led to, and whatever has happened since: a
write there leaves what is found on classes and on other instances where it was found. What is found
looks as before exactly when the write has not gone into a map of it, or the map looks as before. So a
write to the attribute itself is seen by nobody else. A write below the JSON value of an inherited
attribute goes into a map of what the class has, and is seen there unless it writes what is there. -/
theorem instance_write_unseen_iff {h₀ : Heap} {s s' : EvalState} {i : ContainerId} {o : Operand}
    {v : Value} (hpath : o.Through h₀ i) (hsince : h₀.Steps s.session.heap) (hs : s.Sound)
    (hi : h₀.IsKind .inst i) (ho : o.Valid s.session.heap) (hv : v.Valid s.session.heap)
    (hrun : Eval.store o v s = .done () s') {base : Value} (hother : OtherThan i base)
    (hbase : base.Valid s.session.heap) {q : Option ContainerId}
    (hq : s.session.heap.QualifierValid q) {x : String} {m : Member} {t : SlotId}
    (hm : s.session.heap.member base q x = .ok m) (ht : m.slot? = some t) :
    s'.session.heap.member base q x = .ok m ∧
    s'.session.heap.value t = s.session.heap.value t ∧
    (s.session.heap.LooksSame s'.session.heap (s.session.heap.value t) ↔
      ∀ w, o.writtenMap? s.session.heap = some w →
        s.session.heap.HasMap w (s.session.heap.value t) →
        s.session.heap.LooksSame s'.session.heap (.jsonRef w)) ∧
    ∀ r keys, o = .json (.map r) keys → s.session.heap.value t = .jsonRef r →
      ∃ w, o.writtenMap? s.session.heap = some w ∧
        s.session.heap.HasMap w (s.session.heap.value t) := by
  have hr := hs.session.heap
  have hinst : s.session.heap.IsKind .inst i := hi.mono hsince.grows
  have hends : o.EndsIn s.session.heap i := hpath.endsIn.mono hi hsince.grows
  have hconfined := Eval.store_confined hr.closed hends ho hrun
  have hsteps : s.session.heap.Steps s'.session.heap := by
    have hleads := (Eval.obeys_store ho (.inl trivial) hv).runs s hs rfl
    rw [hrun] at hleads
    exact hleads.2.1
  have hvalid := valid_member hr hbase hq hm
  have hslot : s.session.heap.HasSlot t := by
    cases m with
    | slot u =>
      cases ht
      exact hvalid
    | inherited u j key =>
      cases ht
      exact hvalid.1
    | qualifier base c => cases ht
  have hkept : s'.session.heap.slot t = s.session.heap.slot t := by
    refine hconfined.slot t hslot ?_
    rintro ⟨key, hown⟩
    exact hr.not_own_of_member hinst hother hbase hq hm ht key hown
  refine ⟨?_, congrArg Slot.value hkept, ?_, ?_⟩
  · exact hconfined.member_eq hr.lineal (hr.steps hsteps).lineal hinst hr.closed hother hbase hq hm
      ht
  · exact hconfined.looksSame_iff hr.closed (hr.closed.slot t).value
  · rintro r keys rfl hval
    rw [hval]
    exact ⟨_, rfl, hasMap_writtenMap r _⟩

/-- A class with a JSON attribute, and two instances that inherit it. -/
def twoInstances : String :=
  "class A \x7b JSON cfg = \x7b\"k\": 1\x7d; \x7d A x = A(); A y = A();"

/-- One of the instances gets another value for the attribute; the other one reads the same as
before. -/
theorem instance_write_unseen_iff_of_attribute :
    ∃ (s : Session) (t : EvalState), Session.bare.evalSource twoInstances = some (.ok (), s) ∧
      s.heap.member (.instanceRef ⟨9⟩) none "cfg" = .ok (.inherited ⟨28⟩ ⟨9⟩ "cfg") ∧
      Eval.store (.member (.inherited ⟨28⟩ ⟨9⟩ "cfg")) .null
        ⟨s, .start s.main s.mainPath (.ofText "") false⟩ = .done () t ∧
      t.session.heap.member (.instanceRef ⟨10⟩) none "cfg" = .ok (.inherited ⟨28⟩ ⟨10⟩ "cfg") ∧
      t.session.heap.value ⟨28⟩ = s.heap.value ⟨28⟩ ∧
      s.heap.LooksSame t.session.heap (s.heap.value ⟨28⟩) := by
  obtain ⟨s, hrun, hs, hp⟩ := Session.exists_reached twoInstances
    (p := fun s => decide (s.heap.member (.instanceRef ⟨9⟩) none "cfg" =
          .ok (.inherited ⟨28⟩ ⟨9⟩ "cfg") ∧
        s.heap.member (.instanceRef ⟨10⟩) none "cfg" = .ok (.inherited ⟨28⟩ ⟨10⟩ "cfg") ∧
        (s.heap.container ⟨9⟩).kind.valueKind? = some .inst ∧
        (s.heap.container ⟨10⟩).kind.valueKind? = some .inst) &&
      match Eval.store (.member (.inherited ⟨28⟩ ⟨9⟩ "cfg")) .null
        ⟨s, .start s.main s.mainPath (.ofText "") false⟩ with
      | .done () _ => true
      | _ => false)
    (by decide +kernel)
  obtain ⟨hlooked, hstored⟩ := Bool.and_eq_true_iff.1 hp
  obtain ⟨hx, hy, hkx, hky⟩ := of_decide_eq_true hlooked
  split at hstored
  · rename_i t ht
    have hsound : EvalState.Sound ⟨s, .start s.main s.mainPath (.ofText "") false⟩ :=
      ⟨hs.sound, Reading.valid_start hs.sound.main _ _ _⟩
    have hvx : Value.Valid s.heap (.instanceRef ⟨9⟩) := hkx
    have hvy : Value.Valid s.heap (.instanceRef ⟨10⟩) := hky
    have hother : OtherThan ⟨9⟩ (.instanceRef ⟨10⟩) := show (⟨10⟩ : ContainerId) ≠ ⟨9⟩ by decide
    have hvalid : Member.Valid s.heap (.inherited ⟨28⟩ ⟨9⟩ "cfg") :=
      valid_member hs.sound.heap hvx Eval.qualifierValid_none hx
    have hnull : Value.Valid s.heap .null := trivial
    have hsteps : s.heap.Steps s.heap := .refl
    obtain ⟨hmember, hvalue, hlooks, -⟩ := instance_write_unseen_iff (.attr hx rfl) hsteps hsound hkx
      hvalid hnull ht hother hvy Eval.qualifierValid_none hy rfl
    exact ⟨s, t, hrun, hx, ht, hmember, hvalue, hlooks.2 fun w hw => nomatch hw⟩
  · cases hstored

/-- One of the instances writes below the attribute, and what the class and the other instance have
there is another number then. -/
theorem inherited_json_written :
    ∃ s s' : Session, Session.bare.evalSource twoInstances = some (.ok (), s) ∧
      s.evalSource "x.cfg.k = 2;" = some (.ok (), s') ∧
      (∀ g ∈ [s.heap, s'.heap],
        g.member (.instanceRef ⟨9⟩) none "cfg" = .ok (.inherited ⟨28⟩ ⟨9⟩ "cfg") ∧
        g.member (.classRef ⟨8⟩) none "cfg" = .ok (.slot ⟨28⟩) ∧
        g.member (.instanceRef ⟨10⟩) none "cfg" = .ok (.inherited ⟨28⟩ ⟨10⟩ "cfg")) ∧
      s.heap.readKeys (s.heap.value ⟨28⟩) ["k"] = .ok (.num (.ofInt 1)) ∧
      s'.heap.readKeys (s'.heap.value ⟨28⟩) ["k"] = .ok (.num (.ofInt 2)) := by
  obtain ⟨s, hrun, -, hp⟩ := Session.exists_reached twoInstances
    (p := fun s => (s.evalSource "x.cfg.k = 2;").any fun (r : _ × Session) =>
      r.1.isOk &&
      decide ((∀ g ∈ [s.heap, r.2.heap],
        g.member (.instanceRef ⟨9⟩) none "cfg" = .ok (.inherited ⟨28⟩ ⟨9⟩ "cfg") ∧
        g.member (.classRef ⟨8⟩) none "cfg" = .ok (.slot ⟨28⟩) ∧
        g.member (.instanceRef ⟨10⟩) none "cfg" = .ok (.inherited ⟨28⟩ ⟨10⟩ "cfg")) ∧
      s.heap.readKeys (s.heap.value ⟨28⟩) ["k"] = .ok (.num (.ofInt 1)) ∧
      r.2.heap.readKeys (r.2.heap.value ⟨28⟩) ["k"] = .ok (.num (.ofInt 2))))
    (by decide +kernel)
  obtain ⟨⟨result, s'⟩, hrun', hand⟩ := (Option.any_eq_true _ _).1 hp
  obtain ⟨hok, hdecide⟩ := Bool.and_eq_true_iff.1 hand
  obtain ⟨hmembers, hbefore, hafter⟩ := of_decide_eq_true hdecide
  cases result with
  | error e => cases hok
  | ok => exact ⟨s, s', hrun, hrun', hmembers, hbefore, hafter⟩

end Ditlang
