import Ditlang.Proofs.Heap.Merging
import Ditlang.Proofs.Heap.SlotTyping
import Ditlang.Proofs.Heap.Writes

/-!
# Ditlang.Proofs.Heap.Assignment

What a slot holds after an assignment. `Stored` says it: the value that was assigned, or a list of the
slot's own with the same items if an untyped list meets an element type, or a merged Lang if one Lang
meets another.

A list that nothing holds may as well be committed where it is. Whoever looks at the slots of the two
stores cannot tell them apart (`looksSame_commitInPlace`).
-/

namespace Ditlang
namespace Heap

variable {h h' : Heap} {s : SlotId} {v : Value}

/-- Slot `s` is for a list with an element type, and list `l` is untyped. -/
def Commits (h : Heap) (s : SlotId) (l : ListId) : Prop :=
  (h.slot s).declared.list = true ∧ (h.slot s).declared.ty ≠ .thing ∧ (h.list l).elem = .thing

/-- Slot `s` does not take every value, and holds a Lang `a` other than `b`. -/
def Merges (h : Heap) (s : SlotId) (a b : ContainerId) : Prop :=
  (h.slot s).generic = false ∧ h.value s = .langRef a ∧ a ≠ b

/-- What slot `s` holds of a value that was assigned to it. -/
inductive Stored (h h' : Heap) (s : SlotId) : Value → Prop where
  /-- A new list with the same items, committed to the element type of the slot. -/
  | committed {l k : ListId} : h.Commits s l → h.lists.size ≤ k.index →
      h'.list k = ⟨(h.slot s).declared.ty, (h.list l).items⟩ → h'.value s = .listRef k →
      Stored h h' s (.listRef l)
  | merged {a b c : ContainerId} : h.Merges s a b → h.Merged h' a b c → h'.value s = .langRef c →
      Stored h h' s (.langRef b)
  | same {v : Value} : (∀ l, v = .listRef l → ¬ h.Commits s l) →
      (∀ a b, v = .langRef b → ¬ h.Merges s a b) → h'.value s = v → Stored h h' s v

/-! ## The value that is stored -/

theorem value_setValue (hs : h.HasSlot s) (v : Value) : (h.setValue s v).value s = v := by
  rw [value, slot_setValue, if_pos ⟨rfl, hs⟩]

/-- A write to a slot that was there leaves the copies in a merged Lang alone. -/
theorem Merged.setValue {left right c : ContainerId} (hm : h.Merged h' left right c)
    (hs : h.HasSlot s) (v : Value) : h.Merged (h'.setValue s v) left right c := by
  have hcopy : ∀ r t, h.IsCopy h' r t → h.IsCopy (h'.setValue s v) r t := by
    rintro r t ⟨hnew, ht⟩
    refine ⟨hnew, ?_⟩
    rw [slot_setValue, if_neg fun he => ?_, ht]
    obtain ⟨rfl, -⟩ := he
    exact absurd hs (Nat.not_lt.2 hnew)
  refine ⟨hm.new, hm.kind, hm.name, hm.scope, fun x => ?_⟩
  have hx := hm.property x
  generalize (h.container left).attrs.get? x = l at hx ⊢
  generalize (h.container right).attrs.get? x = r at hx ⊢
  cases l <;> cases r
  · exact hx
  all_goals exact hx.imp fun t ht => ⟨ht.1, hcopy _ t ht.2⟩

theorem settle_listRef (d : Declared) (old : Value) (l : ListId) :
    h.settle d old (.listRef l) = if d.list ∧ d.ty ≠ .thing ∧ (h.list l).elem = .thing then
      (.listRef (h.newList d.ty (h.list l).items).1, (h.newList d.ty (h.list l).items).2)
    else (.listRef l, h) := by
  unfold settle
  cases old <;> simp [and_assoc]

theorem settle_langRef (d : Declared) (old : Value) (b : ContainerId) :
    ((∀ a, old = .langRef a → d.list = false → a = b) ∧
        h.settle d old (.langRef b) = (.langRef b, h)) ∨
      ∃ a, old = .langRef a ∧ d.list = false ∧ a ≠ b ∧
        h.settle d old (.langRef b) = (.langRef (h.mergeLangs a b).1, (h.mergeLangs a b).2) := by
  unfold settle
  cases old with
  | langRef a =>
    by_cases hab : d.list = true ∨ a = b
    · refine .inl ⟨?_, by simp [hab]⟩
      rintro _ ⟨⟩ hd
      simpa [hd] using hab
    · obtain ⟨hd, hne⟩ := not_or.1 hab
      rw [Bool.not_eq_true] at hd
      exact .inr ⟨a, rfl, hd, hne, by simp [hd, hne]⟩
  | _ =>
    refine .inl ⟨?_, rfl⟩
    rintro a ⟨⟩

/-- A value that is neither a list nor a Lang is kept as it is. -/
theorem settle_other (d : Declared) (old : Value) (hlist : ∀ l, v ≠ .listRef l)
    (hlang : ∀ b, v ≠ .langRef b) : h.settle d old v = (v, h) := by
  rcases settle_cases (h := h) d old v with he | ⟨a, b, hv, -⟩ | ⟨l, hv, -⟩
  · exact he
  · exact absurd hv (hlang b)
  · exact absurd hv (hlist l)

/-- A slot for lists holds no Lang. -/
theorem WellTyped.list_of_langRef (hw : h.WellTyped) {a : ContainerId}
    (ha : h.value s = .langRef a) : (h.slot s).declared.list = false := by
  cases hd : (h.slot s).declared.list with
  | false => rfl
  | true =>
    rcases (hw.slot s).value.list hd with hn | ⟨l, hl, -⟩
    · cases ha.symm.trans hn
    · cases ha.symm.trans hl

/-- A slot that takes every value has no element type. -/
theorem WellTyped.not_commits (hw : h.WellTyped) (hg : (h.slot s).generic = true) (l : ListId) :
    ¬ h.Commits s l := by
  rintro ⟨hlist, -, -⟩
  have hd := (hw.slot s).generic hg
  rw [Declared.isGeneric, hlist, Bool.and_comm] at hd
  cases hd

theorem assign_stored (hr : h.Reachable) (hs : h.HasSlot s) (hok : h.assign s v = .ok h') :
    h.Stored h' s v := by
  obtain ⟨hg, rfl⟩ | ⟨hg, -, rfl⟩ := assign_inv hok
  · refine .same (fun l _ => hr.wellTyped.not_commits hg l) (fun a b _ hm => ?_)
      (value_setValue hs v)
    cases hg.symm.trans hm.1
  · cases v with
    | listRef l =>
      rw [settle_listRef]
      split
      · rename_i hcommit
        refine .committed hcommit (Nat.le_refl _) ?_ (value_setValue (hs.mono (grows_newList _ _ _)) _)
        exact (list_newList h _ _ _).trans (if_pos rfl)
      · rename_i hcommit
        refine .same ?_ (fun a b hv => nomatch hv) (value_setValue hs _)
        rintro _ ⟨⟩ hcommits
        exact hcommit hcommits
    | langRef b =>
      obtain ⟨hsame, he⟩ | ⟨a, ha, -, hne, he⟩ :=
        settle_langRef (h := h) (h.slot s).declared (h.slot s).value b
      · rw [he]
        refine .same (fun l hv => nomatch hv) ?_ (value_setValue hs _)
        rintro a _ ⟨⟩ ⟨-, ha, hne⟩
        exact hne (hsame a ha (hr.wellTyped.list_of_langRef ha))
      · rw [he]
        exact .merged ⟨hg, ha, hne⟩ ((merged_mergeLangs hr.closed a b).setValue hs _)
          (value_setValue (hs.mono (grows_mergeLangs a b)) _)
    | _ =>
      rw [settle_other _ _ (by rintro l ⟨⟩) (by rintro b ⟨⟩)]
      exact .same (by rintro l ⟨⟩) (by rintro a b ⟨⟩) (value_setValue hs _)

/-- An assignment succeeds if the value passes the check against the declared type, and is refused
with the mismatch if it does not. -/
theorem WellTyped.assign_cases (hw : h.WellTyped) (s : SlotId) (v : Value) :
    (h.checkValue v (h.slot s).declared = none ∧ ∃ h', h.assign s v = .ok h') ∨
    ∃ m, h.checkValue v (h.slot s).declared = some m ∧ h.assign s v = .error (.mismatch m) := by
  unfold Heap.assign
  dsimp only
  split
  · rename_i hg
    refine .inl ⟨?_, _, rfl⟩
    unfold checkValue
    rw [(hw.slot s).generic hg, Bool.or_true, if_pos rfl]
  · cases hcheck : h.checkValue v (h.slot s).declared with
    | none => exact .inl ⟨rfl, _, rfl⟩
    | some m => exact .inr ⟨m, rfl, rfl⟩

theorem slot_assign (hs : h.HasSlot s) (hok : h.assign s v = .ok h') :
    h'.slot s = { h.slot s with value := h'.value s } := by
  obtain ⟨-, rfl⟩ | ⟨-, -, rfl⟩ := assign_inv hok
  · rw [value_setValue hs, slot_setValue, if_pos ⟨rfl, hs⟩]
  · have hgrows := grows_settle (h := h) (h.slot s).declared (h.slot s).value v
    have hkept : (h.settle (h.slot s).declared (h.slot s).value v).2.slot s = h.slot s := by
      have hc : h.Confined (h.settle (h.slot s).declared (h.slot s).value v).2 default
          (fun _ => False) fun _ => False := confined_settle _ _ _
      exact hc.slot s hs id
    rw [value_setValue (hs.mono hgrows), slot_setValue, if_pos ⟨rfl, hs.mono hgrows⟩, hkept]

/-- From `h` to `h'` no slot but `s` has changed, and that one only in its value; no list, JSON map
or container has, and what is in any other slot looks as before. -/
structure OnlySlot (h h' : Heap) (s : SlotId) : Prop where
  target : h'.slot s = { h.slot s with value := h'.value s }
  slot : ∀ t, h.HasSlot t → t ≠ s → h'.slot t = h.slot t
  looks : ∀ t, h.HasSlot t → t ≠ s → h.LooksSame h' (h.value t)
  list : ∀ l, l.index < h.lists.size → h'.list l = h.list l
  map : ∀ m, m.index < h.maps.size → h'.map m = h.map m
  container : ∀ c, c.index < h.containers.size → h'.container c = h.container c

theorem onlySlot_assign (hc : h.Closed) (hs : h.HasSlot s) (hok : h.assign s v = .ok h') :
    h.OnlySlot h' s := by
  have hconfined : ∀ i, h.Confined h' i (· = s) fun _ => False := fun _ => confined_assign hok
  refine ⟨slot_assign hs hok, (hconfined default).slot, fun t _ _ => ?_, (hconfined default).list,
    fun m hm => (hconfined default).map m hm id, fun c hlt => ?_⟩
  · exact (hconfined default).looksSame hc (hc.slot t).value fun _ hw => hw.elim
  · -- No container is exempt: the exempted one may be any other.
    refine (hconfined ⟨c.index + 1⟩).container c hlt fun he => ?_
    exact absurd (congrArg ContainerId.index he) (Nat.ne_of_lt (Nat.lt_succ_self _))

/-! ## Ancestries that are kept afterwards -/

theorem OnlySlot.warmAll (ho : h.OnlySlot h' s) (asked : List ContainerId) :
    h.OnlySlot (h'.warmAll asked) s := by
  have hlooks (t : SlotId) (ht : h.HasSlot t) (hne : t ≠ s) :
      h.LooksSame (h'.warmAll asked) (h.value t) := fun n =>
    (unfold_warmAll asked n _).trans (ho.looks t ht hne n)
  rw [warmAll_eq] at hlooks ⊢
  exact ⟨ho.target, ho.slot, hlooks, ho.list, ho.map, ho.container⟩

theorem Stored.warmAll (hs : h.Stored h' s v) (asked : List ContainerId) :
    h.Stored (h'.warmAll asked) s v := by
  rw [warmAll_eq]
  cases hs with
  | committed hcommit hk hlist hval => exact .committed hcommit hk hlist hval
  | merged hmerge hm hval =>
    exact .merged hmerge ⟨hm.new, hm.kind, hm.name, hm.scope, hm.property⟩ hval
  | same hlist hlang hval => exact .same hlist hlang hval

/-! ## A list that is committed where it is -/

/-- Nothing in the store refers to list `l`. -/
structure Unheld (h : Heap) (l : ListId) : Prop where
  slot : ∀ s, h.value s ≠ .listRef l
  item : ∀ k, .listRef l ∉ (h.list k).items
  entry : ∀ m, ∀ e ∈ (h.map m).entries, e.2 ≠ .listRef l

/-- The store in which list `l` is committed to the element type of slot `s` where it is, and put into
the slot. -/
def commitInPlace (h : Heap) (s : SlotId) (l : ListId) : Heap :=
  (h.setList l { h.list l with elem := (h.slot s).declared.ty }).setValue s (.listRef l)

theorem list_commitInPlace {l : ListId} (hl : l.index < h.lists.size) (k : ListId) :
    (h.commitInPlace s l).list k =
      if l = k then { h.list l with elem := (h.slot s).declared.ty } else h.list k := by
  change (h.setList l _).list k = _
  rw [list_setList_eq]
  by_cases hk : l = k
  · rw [if_pos ⟨hk, hl⟩, if_pos hk]
  · rw [if_neg fun he => hk he.1, if_neg hk]

/-- Whatever is not the list itself looks the same after the list has been committed in place. -/
theorem Unheld.looksSame {l : ListId} (hu : h.Unheld l) (hl : l.index < h.lists.size)
    (hv : v ≠ .listRef l) : h.LooksSame (h.commitInPlace s l) v := by
  intro n
  induction n generalizing v with
  | zero => rfl
  | succ n ih =>
    cases v with
    | listRef k =>
      have hne : ¬ l = k := fun he => hv (he ▸ rfl)
      rw [unfold, unfold, list_commitInPlace hl, if_neg hne]
      refine congrArg _ (List.map_congr_left fun u hmem => ih ?_)
      rintro rfl
      exact hu.item k hmem
    | jsonRef m =>
      rw [unfold, unfold]
      refine congrArg _ (List.map_congr_left fun e he => ?_)
      exact congrArg (Prod.mk e.1) (ih (hu.entry m e he))
    | _ => rfl

/-- A list that nothing holds may be committed where it is: every slot then looks as if the slot had
got a copy of it. -/
theorem looksSame_commitInPlace (hr : h.Reachable) (hs : h.HasSlot s) {l : ListId}
    (hl : l.index < h.lists.size) (hu : h.Unheld l) (hcommit : h.Commits s l)
    (hok : h.assign s (.listRef l) = .ok h') {t : SlotId} (ht : h.HasSlot t) (n : Nat) :
    (h.commitInPlace s l).unfold n ((h.commitInPlace s l).value t) = h'.unfold n (h'.value t) := by
  have hconfined : h.Confined h' default (· = s) fun _ => False := confined_assign hok
  have hsame : ∀ v : Value, v.Valid h → h.LooksSame h' v := fun v hv =>
    hconfined.looksSame hr.closed hv fun _ hw => hw.elim
  by_cases hst : t = s
  · subst hst
    cases assign_stored hr hs hok with
    | same hno => exact absurd hcommit (hno l rfl)
    | @committed _ k _ hk hlist hval =>
      have hval' : (h.commitInPlace t l).value t = .listRef l := value_setValue hs _
      rw [hval, hval']
      cases n with
      | zero => rfl
      | succ n =>
        rw [unfold, unfold, list_commitInPlace hl, if_pos rfl, hlist]
        refine congrArg _ (List.map_congr_left fun u hmem => ?_)
        have hne : u ≠ .listRef l := by
          rintro rfl
          exact hu.item l hmem
        exact (hu.looksSame hl hne n).trans (hsame u ((hr.closed.list l).items u hmem) n).symm
  · have hplace : (h.commitInPlace s l).value t = h.value t := by
      rw [commitInPlace, value, slot_setValue, if_neg fun he => hst he.1.symm]
      rfl
    have hkept : h'.value t = h.value t := congrArg Slot.value (hconfined.slot t ht hst)
    rw [hplace, hkept]
    exact (hu.looksSame hl (hu.slot t) n).trans (hsame _ (hr.closed.slot t).value n).symm

end Heap
end Ditlang
