import Ditlang.Eval.Calls
import Ditlang.Proofs.Heap.Assignability
import Ditlang.Proofs.Heap.Assignment
import Ditlang.Proofs.Heap.Signatures

/-!
# Ditlang.Proofs.Heap.Arguments

Checking the arguments of a call and binding the parameters to them. `Suits` is what the check decides:
there are as many arguments as parameters, and each passes the check for its parameter.

All arguments are checked in the store in which the call is made. Binding a parameter then adds a slot
and perhaps a list to the store, and changes nothing that was there (`Bound`); so an argument that
passed the check still passes it when it is its turn, and if the parameters have names of their own, one
after the other can be bound (`Bound.concat`).
-/

namespace Ditlang
namespace Heap

variable {h h' : Heap} {params : List Param} {args : List Value}

/-! ## The check -/

/-- There are as many arguments as parameters, and each may live where its parameter is declared. -/
def Suits (h : Heap) (params : List Param) (args : List Value) : Prop :=
  List.Forall₂ (fun p v => h.checkValue v p.declared = none) params args

instance : Decidable (h.Suits params args) :=
  inferInstanceAs (Decidable (List.Forall₂ _ _ _))

theorem checkArguments_eq_ok_iff {func : String} :
    h.checkArguments func params args = .ok () ↔ h.Suits params args := by
  unfold checkArguments Suits
  rw [List.forall₂_iff_zip]
  split
  · rename_i hlt
    simp only [reduceCtorEq, false_iff, not_and]
    exact fun he => absurd he (Nat.ne_of_gt hlt)
  · split
    · rename_i hlt
      simp only [reduceCtorEq, false_iff, not_and]
      exact fun he => absurd he (Nat.ne_of_lt hlt)
    · have hlength : params.length = args.length := by omega
      simp only [hlength, true_and]
      split
      · rename_i p m hfound
        simp only [reduceCtorEq, false_iff]
        intro hall
        obtain ⟨⟨q, v⟩, hmem, hq⟩ := List.exists_of_findSome?_eq_some hfound
        simp [hall hmem] at hq
      · rename_i hnone
        simp only [true_iff]
        intro p v hmem
        simpa using List.findSome?_eq_none_iff.1 hnone (p, v) hmem

/-! ## The frame -/

/-- The frame of a call, before a parameter is bound. -/
def frameOf (h : Heap) (func : ContainerId) : Container where
  name := some (h.container func).displayName
  kind := .frame func
  scope := (h.container func).scope
  body := (h.container func).body

theorem find?_frame (h : Heap) (func : ContainerId) (attrs : OrderedMap SlotId) (name : String) :
    Container.find? { h.frameOf func with attrs } name = attrs.get? name :=
  Option.or_none

/-- List `l` is untyped, and `d` is the type of lists with an element type. -/
def MustCommit (h : Heap) (d : Declared) (l : ListId) : Prop :=
  d.list = true ∧ d.ty ≠ .thing ∧ (h.list l).elem = .thing

/-- What is in the slot of a parameter declared as `d`: the argument itself, or a new list with its
items, committed to the element type, if the argument is an untyped list. -/
inductive Passes (h h' : Heap) (d : Declared) : Value → Value → Prop where
  | same {v : Value} : (∀ l, v = .listRef l → ¬ h.MustCommit d l) → Passes h h' d v v
  | committed {l k : ListId} : h.MustCommit d l → h.lists.size ≤ k.index →
      k.index < h'.lists.size → h'.list k = ⟨d.ty, (h.list l).items⟩ →
      Passes h h' d (.listRef l) (.listRef k)

/-- The frame has a new slot for a parameter, which holds the argument. -/
def Passed (h h' : Heap) (frame : ContainerId) (p : Param) (v : Value) : Prop :=
  ∃ s w, h'.findLocal? frame p.name = some s ∧ h.slots.size ≤ s.index ∧
    h'.slot s = { Slot.declare p.name p.declared with value := w } ∧ h.Passes h' p.declared v w

/-- The parameters are bound to the arguments in a new frame, in this order, and what was there before
is as it was. -/
structure Bound (h h' : Heap) (func frame : ContainerId) (params : List Param) (args : List Value) :
    Prop where
  reachable : h'.Reachable
  new : h.containers.size ≤ frame.index
  there : frame.index < h'.containers.size
  kept : h.Confined h' frame (fun _ => False) fun _ => False
  container : ∃ attrs : OrderedMap SlotId, h'.container frame = { h.frameOf func with attrs } ∧
    attrs.keys = params.map (·.name)
  passed : List.Forall₂ (h.Passed h' frame) params args

/-! ## Binding a parameter -/

section

variable {func frame : ContainerId} {p : Param} {v : Value}

/-- The lists of a value are what they were if no list has changed. -/
theorem Confined.listsKept {i : ContainerId} {us : SlotId → Prop} {ws : MapId → Prop}
    (hc : h.Confined h' i us ws) (hh : h.Closed) (hv : v.Valid h) : h.ListsKept h' v := by
  rintro l k rfl hk
  refine hc.list k ?_
  rcases hk.cases_head with rfl | ⟨m, hm, hmk⟩
  · exact hv
  · exact Nested.lt_size hh (nested_iff.2 ⟨m, hm, hmk⟩)

theorem bound_alloc (hr : h.Reachable) (hfunc : h.IsKind .func func) :
    h.Bound (h.alloc (h.frameOf func)).2 func (h.alloc (h.frameOf func)).1 [] [] where
  reachable := hr.step (.alloc ⟨rfl, rfl, nofun⟩ hfunc fun _ ho => hr.closed.lt_size_of_scope ho)
  new := Nat.le_refl _
  there := by simp [alloc]
  kept := { Confined.refl h (h.alloc (h.frameOf func)).1 (fun _ => False) fun _ => False with
    grows := grows_alloc h _
    container := fun c hlt _ => by rw [container_alloc, if_neg (Nat.ne_of_lt hlt)]
    isClass := fun c hcls => by
      rw [container_alloc] at hcls
      split at hcls
      · cases hcls
      · exact hcls }
  container := ⟨.empty, by rw [container_alloc, if_pos (by rfl)]; rfl, rfl⟩
  passed := .nil

/-- A name that the frame does not bind is free in it. -/
theorem Bound.free (hb : h.Bound h' func frame params args) (hname : p.name ∉ params.map (·.name)) :
    (h'.container frame).attrs.get? p.name = none ∧ (h'.container frame).aliases.get? p.name = none := by
  obtain ⟨attrs, hcon, hkeys⟩ := hb.container
  rw [hcon]
  refine ⟨?_, rfl⟩
  rw [← hkeys, ← OrderedMap.contains_iff_mem_keys, OrderedMap.contains] at hname
  simpa using hname

theorem Bound.declare (hb : h.Bound h' func frame params args) (hname : p.name ∉ params.map (·.name)) :
    h'.declare frame p.name p.declared = .ok (⟨h'.slots.size⟩,
      (h'.newSlot (.declare p.name p.declared)).2.attach frame p.name ⟨h'.slots.size⟩) := by
  have hfree : h'.findLocal? frame p.name = none := Container.find?_eq_none.2 (hb.free hname)
  have hplain : (h'.container frame).isClass = false := by
    obtain ⟨attrs, hcon, -⟩ := hb.container
    rw [hcon]
    rfl
  have hplain' : ((h'.newSlot (.declare p.name p.declared)).2.container frame).isClass = false := hplain
  simp only [Heap.declare, hfree, hplain', Option.isSome_none, Bool.false_eq_true, if_false]
  rfl

/-- What was passed for other parameters is where it was after another one is bound. -/
theorem Passed.mono {s : SlotId} {h₂ : Heap} {ws : MapId → Prop} (hc : h'.Closed)
    (hpassed : h.Passed h' frame p v) (hlater : h'.Confined h₂ frame (· = s) ws)
    (hs : h'.slots.size ≤ s.index)
    (hfind : ∀ t, h'.findLocal? frame p.name = some t → h₂.findLocal? frame p.name = some t) :
    h.Passed h₂ frame p v := by
  obtain ⟨t, w, ht, hnew, hslot, hpasses⟩ := hpassed
  have hlt : h'.HasSlot t := hc.hasSlot_findLocal? ht
  have hne : t ≠ s := fun he => absurd (he ▸ hlt) (Nat.not_lt.2 hs)
  refine ⟨t, w, hfind t ht, hnew, (hlater.slot t hlt hne).trans hslot, ?_⟩
  cases hpasses with
  | same hno => exact .same hno
  | committed hcommit hle hk hlist =>
    exact .committed hcommit hle (Nat.lt_of_lt_of_le hk hlater.grows.lists)
      ((hlater.list _ hk).trans hlist)

/-- What an assignment stores in a slot that was declared for a parameter. -/
theorem passes_of_stored {s : SlotId} {h₁ h₂ : Heap} {d : Declared} (hkept : h.ListsKept h₁ v)
    (g : h.Grows h₁) (hc : h₂.Closed) (hslot : h₁.slot s = .declare p.name d)
    (hstored : h₁.Stored h₂ s v) : h.Passes h₂ d v (h₂.value s) := by
  have hcommits : ∀ l, v = .listRef l → (h₁.Commits s l ↔ h.MustCommit d l) := by
    rintro l rfl
    rw [Commits, hslot, hkept l l rfl .refl]
    rfl
  cases hstored with
  | @committed l k hcommit hle hlist hval =>
    rw [hval]
    have hk : (Value.listRef k).Valid h₂ := by
      rw [← hval]
      exact (hc.slot s).value
    rw [hslot, hkept l l rfl .refl] at hlist
    exact .committed ((hcommits l rfl).1 hcommit) (Nat.le_trans g.lists hle) hk hlist
  | merged hmerge =>
    obtain ⟨-, hvalue, -⟩ := hmerge
    rw [value, hslot] at hvalue
    cases hvalue
  | same hno _ hval =>
    rw [hval]
    exact .same fun l hl hcommit => hno l hl ((hcommits l hl).2 hcommit)

/-- Keeping ancestries leaves the parameters bound. -/
theorem Bound.warmAll (hb : h.Bound h' func frame params args) {asked : List ContainerId}
    (ha : h'.Asks asked) : h.Bound (h'.warmAll asked) func frame params args := by
  have hr := hb.reachable.steps ha.steps
  have hkept := hb.kept.warmAll asked
  have hwarm : h'.Confined (h'.warmAll asked) frame (· = ⟨h'.slots.size⟩) fun _ => False :=
    confined_warmAll asked
  have hpassed : List.Forall₂ (h.Passed (h'.warmAll asked) frame) params args :=
    hb.passed.imp fun p v hp => by
      refine hp.mono hb.reachable.closed hwarm (Nat.le_refl _) fun t ht => ?_
      rw [warmAll_eq]
      exact ht
  rw [warmAll_eq] at hr hkept hpassed ⊢
  exact ⟨hr, hb.new, hb.there, hkept, hb.container, hpassed⟩

theorem Bound.concat (hr : h.Reachable) (hb : h.Bound h' func frame params args)
    (hname : p.name ∉ params.map (·.name)) (hd : p.declared.Valid h) (hv : v.Valid h)
    (hcheck : h.checkValue v p.declared = none) :
    ∃ s h₁ h₂, h'.declare frame p.name p.declared = .ok (s, h₁) ∧ h₁.assign s v = .ok h₂ ∧
      h.Bound h₂ func frame (params ++ [p]) (args ++ [v]) := by
  obtain ⟨attrs, hcon, hkeys⟩ := hb.container
  have hok := hb.declare hname
  generalize hs : (⟨h'.slots.size⟩ : SlotId) = s at hok
  generalize hh₁ : (h'.newSlot (.declare p.name p.declared)).2.attach frame p.name s = h₁ at hok
  have hnew : h'.slots.size ≤ s.index := by rw [← hs]
  have hslot : h₁.slot s = .declare p.name p.declared := by
    rw [← hh₁, ← hs]
    exact (slot_newSlot h' _ _).trans (if_pos rfl)
  have hcon₁ : h₁.container frame = { h.frameOf func with attrs := attrs.insert p.name s } := by
    rw [← hh₁, attach, container_modifyContainer, if_pos ⟨rfl, hb.there⟩]
    exact congrArg (fun c : Container => { c with attrs := c.attrs.insert p.name s }) hcon
  have hlater₁ : h'.Confined h₁ frame (· = s) fun _ => False := by
    rw [← hh₁]
    exact (confined_newSlot _).trans (confined_attach s (hb.free hname).1) (fun _ _ => id) fun _ _ => id
  have hr₁ := hb.reachable.step (.declare (hd.mono hb.kept.grows) hok)
  -- No slot that was there at the call is the new one.
  have hold : ∀ t, h.HasSlot t → t = s → False := by
    rintro t ht rfl
    exact absurd (ht.mono hb.kept.grows) (Nat.not_lt.2 hnew)
  have hkept₁ : h.Confined h₁ frame (fun _ => False) fun _ => False :=
    hb.kept.trans hlater₁ hold fun _ _ => id
  have hlists := hkept₁.listsKept hr.closed hv
  have hcheck₁ : h₁.checkValue v (h₁.slot s).declared = none := by
    rw [hslot]
    exact hkept₁.grows.checkValue_eq_none hr.lineal hr.untangled hr₁.lineal hlists hcheck
  have hs₁ : h₁.HasSlot s := hasSlot_declare hok
  obtain ⟨-, h₂, hassign⟩ | ⟨m, hno, -⟩ := hr₁.wellTyped.assign_cases s v
  swap
  · cases hcheck₁.symm.trans hno
  have hr₂ := hr₁.step (.assign hs₁ (hv.mono hkept₁.grows) hassign)
  have honly := onlySlot_assign hr₁.closed hs₁ hassign
  have hassigned : h₁.Confined h₂ frame (· = s) fun _ => False := confined_assign hassign
  have hlater := hlater₁.trans hassigned (fun _ _ => id) fun _ _ => id
  have hthere := Nat.lt_of_lt_of_le hb.there hlater₁.grows.containers
  have hcon₂ := (honly.container frame hthere).trans hcon₁
  refine ⟨s, h₁, h₂, hok, hassign, hr₂, hb.new,
    Nat.lt_of_lt_of_le hthere hassigned.grows.containers,
    hb.kept.trans hlater hold fun _ _ => id, ⟨_, hcon₂, ?_⟩, ?_⟩
  · rw [OrderedMap.keys_insert, hkeys, if_neg hname, List.map_append]
    rfl
  · refine List.rel_append (hb.passed.imp fun q w hpassed => ?_) (.cons ?_ .nil)
    · refine hpassed.mono hb.reachable.closed hlater hnew fun t ht => ?_
      rw [findLocal?, hcon, find?_frame] at ht
      rw [findLocal?, hcon₂, find?_frame, OrderedMap.get?_insert, if_neg, ht]
      intro he
      have hfree := (hb.free hname).1
      rw [hcon, ← he, ht] at hfree
      cases hfree
    · refine ⟨s, h₂.value s, ?_, Nat.le_trans hb.kept.grows.slots hnew, ?_, ?_⟩
      · rw [findLocal?, hcon₂, find?_frame, OrderedMap.get?_insert, if_pos rfl]
      · rw [honly.target, hslot]
      · exact passes_of_stored hlists hkept₁.grows hr₂.closed hslot (assign_stored hr₁ hs₁ hassign)

end

end Heap
end Ditlang
