import Ditlang.Proofs.Heap.Growth

/-!
# Ditlang.Proofs.Heap.Validity

Nothing dangles. A value is `Valid` in a store when what it refers to is there and is of the kind the
value says; a store is `Closed` when everything in it refers only to such things, and every scope is
older than what it surrounds.

Validity is kept while a store grows (`Value.Valid.mono` and its companions). So a write leaves a
store closed as soon as the one thing it wrote is valid, and `Closed.of_changes` asks for no more.
-/

namespace Ditlang

namespace OrderedMap

variable {α : Type}

def All (p : α → Prop) (m : OrderedMap α) : Prop :=
  ∀ e ∈ m.entries, p e.2

theorem All.empty (p : α → Prop) : (empty : OrderedMap α).All p := by
  intro e he
  cases he

theorem All.imp {p q : α → Prop} (hpq : ∀ a, p a → q a) {m : OrderedMap α} (hm : m.All p) :
    m.All q :=
  fun e he => hpq e.2 (hm e he)

theorem mem_insertInto {key : String} {value : α} {es : List (String × α)} {e : String × α}
    (he : e ∈ insertInto key value es) : e ∈ es ∨ e.2 = value := by
  induction es with
  | nil =>
    rw [insertInto, List.mem_singleton] at he
    exact .inr (he ▸ rfl)
  | cons d es ih =>
    obtain ⟨k, v⟩ := d
    rw [insertInto] at he
    split at he
    · rcases List.mem_cons.1 he with rfl | he
      · exact .inr rfl
      · exact .inl (List.mem_cons_of_mem _ he)
    · rcases List.mem_cons.1 he with rfl | he
      · exact .inl List.mem_cons_self
      · exact (ih he).imp_left (List.mem_cons_of_mem _)

theorem All.insert {p : α → Prop} {m : OrderedMap α} (hm : m.All p) (key : String) {value : α}
    (hv : p value) : (m.insert key value).All p := by
  intro e he
  rcases mem_insertInto he with he | he
  · exact hm e he
  · exact he ▸ hv

theorem All.ofList {p : α → Prop} {es : List (String × α)} (hes : ∀ e ∈ es, p e.2) :
    (ofList es).All p := by
  have hfold : ∀ (es : List (String × α)) (m : OrderedMap α), (∀ e ∈ es, p e.2) → m.All p →
      (es.foldl (fun m e => m.insert e.1 e.2) m).All p := by
    intro es
    induction es with
    | nil => exact fun _ _ hm => hm
    | cons e es ih =>
      intro m hes hm
      exact ih _ (fun d hd => hes d (List.mem_cons_of_mem _ hd))
        (hm.insert e.1 (hes e List.mem_cons_self))
  exact hfold es .empty hes (All.empty p)

theorem mem_of_get? {m : OrderedMap α} {key : String} {a : α} (hg : m.get? key = some a) :
    (key, a) ∈ m.entries := by
  unfold get? at hg
  generalize m.entries = es at hg ⊢
  induction es with
  | nil => cases hg
  | cons e es ih =>
    obtain ⟨k, v⟩ := e
    rw [List.lookup_cons] at hg
    split at hg
    · rename_i hk
      cases hg
      rw [eq_of_beq hk]
      exact List.mem_cons_self
    · exact List.mem_cons_of_mem _ (ih hg)

theorem All.get? {p : α → Prop} {m : OrderedMap α} (hm : m.All p) {key : String} {a : α}
    (hg : m.get? key = some a) : p a :=
  hm _ (mem_of_get? hg)

end OrderedMap

/-- The kind of the values that refer to a container of this kind. Nothing refers to the prelude or
to an activation. -/
def ContainerKind.valueKind? : ContainerKind → Option ValueKind
  | .cls _ => some .cls
  | .inst _ => some .inst
  | .func _ => some .func
  | .dit => some .dit
  | .lang => some .lang
  | .prelude | .frame _ => none

theorem ContainerKind.Becomes.valueKind?_eq {k k' : ContainerKind} (hk : k.Becomes k') :
    k'.valueKind? = k.valueKind? := by
  cases hk <;> rfl

namespace Heap

/-- `c` is a container to which values of kind `k` refer. -/
def IsKind (h : Heap) (k : ValueKind) (c : ContainerId) : Prop :=
  (h.container c).kind.valueKind? = some k

def HasSlot (h : Heap) (s : SlotId) : Prop :=
  s.index < h.slots.size

variable {h h' : Heap}

theorem IsKind.lt_size {k : ValueKind} {c : ContainerId} (hc : h.IsKind k c) :
    c.index < h.containers.size := by
  by_cases hlt : c.index < h.containers.size
  · exact hlt
  · rw [IsKind, container_of_size_le (Nat.not_lt.1 hlt)] at hc
    cases hc

theorem IsKind.mono {k : ValueKind} {c : ContainerId} (g : h.Grows h') (hc : h.IsKind k c) :
    h'.IsKind k c :=
  (g.container c hc.lt_size).kind.valueKind?_eq.trans hc

theorem HasSlot.mono {s : SlotId} (g : h.Grows h') (hs : h.HasSlot s) : h'.HasSlot s :=
  Nat.lt_of_lt_of_le hs g.slots

theorem isKind_cls_iff {c : ContainerId} :
    h.IsKind .cls c ↔ (h.container c).isClass = true := by
  unfold IsKind Container.isClass
  cases (h.container c).kind <;> simp [ContainerKind.valueKind?]

theorem isKind_alloc {c : Container} {k : ValueKind} (hk : c.kind.valueKind? = some k) :
    (h.alloc c).2.IsKind k (h.alloc c).1 := by
  rw [IsKind, container_alloc, if_pos (by simp [alloc])]
  exact hk

end Heap

/-- What a value refers to is there, and of the kind the value says. -/
def Value.Valid (h : Heap) : Value → Prop
  | .listRef l => l.index < h.lists.size
  | .jsonRef m => m.index < h.maps.size
  | .classRef c => h.IsKind .cls c
  | .instanceRef c => h.IsKind .inst c
  | .funcRef c => h.IsKind .func c
  | .ditRef c => h.IsKind .dit c
  | .langRef c => h.IsKind .lang c
  | _ => True

def TypeSpec.Valid (h : Heap) : TypeSpec → Prop
  | .of c => h.IsKind .cls c
  | _ => True

def Declared.Valid (h : Heap) (d : Declared) : Prop :=
  d.ty.Valid h

/-- The types of a function and its Lang are there. -/
structure FuncData.Valid (h : Heap) (data : FuncData) : Prop where
  params : ∀ p ∈ data.params, p.declared.Valid h
  ret : ∀ d, data.ret = some d → d.Valid h
  lang : ∀ c, data.lang = .guest c → h.IsKind .lang c

/-- What a container refers to by its kind is there. -/
def ContainerKind.Valid (h : Heap) : ContainerKind → Prop
  | .inst c => h.IsKind .cls c
  | .func data => data.Valid h
  | .frame f => h.IsKind .func f
  | _ => True

/-- What a container refers to is there. -/
structure Container.Valid (h : Heap) (c : Container) : Prop where
  kind : c.kind.Valid h
  attrs : c.attrs.All h.HasSlot
  aliases : c.aliases.All h.HasSlot

/-- The type and the value of a slot are valid. -/
structure Slot.Valid (h : Heap) (s : Slot) : Prop where
  declared : s.declared.Valid h
  value : s.value.Valid h

/-- The element type and the items of a list are valid. -/
structure ListData.Valid (h : Heap) (l : ListData) : Prop where
  elem : l.elem.Valid h
  items : ∀ v ∈ l.items, v.Valid h

/-! ## Validity is kept while the store grows -/

section Mono

variable {h h' : Heap} (g : h.Grows h')

include g

theorem Value.Valid.mono {v : Value} (hv : v.Valid h) : v.Valid h' := by
  cases v with
  | listRef l => exact Nat.lt_of_lt_of_le hv g.lists
  | jsonRef m => exact Nat.lt_of_lt_of_le hv g.maps
  | classRef c | instanceRef c | funcRef c | ditRef c | langRef c => exact Heap.IsKind.mono g hv
  | _ => exact trivial

theorem TypeSpec.Valid.mono {ty : TypeSpec} (ht : ty.Valid h) : ty.Valid h' := by
  cases ty with
  | of c => exact Heap.IsKind.mono g ht
  | _ => exact trivial

theorem Declared.Valid.mono {d : Declared} (hd : d.Valid h) : d.Valid h' :=
  TypeSpec.Valid.mono g hd

theorem ContainerKind.Valid.mono {k : ContainerKind} (hk : k.Valid h) : k.Valid h' := by
  cases k with
  | inst c | frame f => exact Heap.IsKind.mono g hk
  | func data =>
    exact ⟨fun p hp => (hk.params p hp).mono g, fun d hd => (hk.ret d hd).mono g,
      fun c hc => (hk.lang c hc).mono g⟩
  | _ => exact trivial

theorem Container.Valid.mono {c : Container} (hc : c.Valid h) : c.Valid h' :=
  ⟨hc.kind.mono g, hc.attrs.imp fun _ => .mono g, hc.aliases.imp fun _ => .mono g⟩

theorem Slot.Valid.mono {s : Slot} (hs : s.Valid h) : s.Valid h' :=
  ⟨hs.declared.mono g, hs.value.mono g⟩

theorem ListData.Valid.mono {l : ListData} (hl : l.Valid h) : l.Valid h' :=
  ⟨hl.elem.mono g, fun v hv => (hl.items v hv).mono g⟩

end Mono

namespace Heap

structure Closed (h : Heap) : Prop where
  container : ∀ c, (h.container c).Valid h
  scope : ∀ c o, (h.container c).scope = some o → o.index < c.index
  slot : ∀ s, (h.slot s).Valid h
  list : ∀ l, (h.list l).Valid h
  map : ∀ m, (h.map m).All (Value.Valid h)

variable {h h' : Heap}

/-- A store that grew from a closed one is closed if what has changed is valid. -/
theorem Closed.of_changes (hc : h.Closed) (g : h.Grows h')
    (hcontainer : ∀ c, h'.container c = h.container c ∨
      (h'.container c).Valid h' ∧ ∀ o, (h'.container c).scope = some o → o.index < c.index)
    (hslot : ∀ s, h'.slot s = h.slot s ∨ (h'.slot s).Valid h')
    (hlist : ∀ l, h'.list l = h.list l ∨ (h'.list l).Valid h')
    (hmap : ∀ m, h'.map m = h.map m ∨ (h'.map m).All (Value.Valid h')) : h'.Closed := by
  refine ⟨?_, ?_, ?_, ?_, ?_⟩
  · intro c
    rcases hcontainer c with he | hv
    · exact he ▸ (hc.container c).mono g
    · exact hv.1
  · intro c o ho
    rcases hcontainer c with he | hv
    · exact hc.scope c o (he ▸ ho)
    · exact hv.2 o ho
  · intro s
    rcases hslot s with he | hv
    · exact he ▸ (hc.slot s).mono g
    · exact hv
  · intro l
    rcases hlist l with he | hv
    · exact he ▸ (hc.list l).mono g
    · exact hv
  · intro m
    rcases hmap m with he | hv
    · exact he ▸ (hc.map m).imp fun _ => .mono g
    · exact hv

theorem closed_empty : Heap.empty.Closed where
  container _ := ⟨trivial, .empty _, .empty _⟩
  scope _ _ ho := nomatch ho
  slot _ := ⟨trivial, trivial⟩
  list _ := ⟨trivial, fun _ hv => nomatch hv⟩
  map _ := .empty _

/-! ## One lemma for each way of writing -/

namespace Closed

theorem alloc (hc : h.Closed) {c : Container} (hv : c.Valid h)
    (hs : ∀ o, c.scope = some o → o.index < h.containers.size) : (h.alloc c).2.Closed := by
  have g := grows_alloc h c
  refine hc.of_changes g ?_ (fun _ => .inl rfl) (fun _ => .inl rfl) (fun _ => .inl rfl)
  intro d
  rw [container_alloc]
  split
  · rename_i hd
    exact .inr ⟨hv.mono g, hd ▸ hs⟩
  · exact .inl rfl

theorem newSlot (hc : h.Closed) {s : Slot} (hv : s.Valid h) : (h.newSlot s).2.Closed := by
  have g := grows_newSlot h s
  refine hc.of_changes g (fun _ => .inl rfl) ?_ (fun _ => .inl rfl) (fun _ => .inl rfl)
  intro t
  rw [slot_newSlot]
  split
  · exact .inr (hv.mono g)
  · exact .inl rfl

theorem modifyContainer (hc : h.Closed) {c : ContainerId} {f : Container → Container}
    (hf : (h.container c).Becomes (f (h.container c))) (hv : (f (h.container c)).Valid h) :
    (h.modifyContainer c f).Closed := by
  have g := grows_modifyContainer h c hf
  refine hc.of_changes g ?_ (fun _ => .inl rfl) (fun _ => .inl rfl) (fun _ => .inl rfl)
  intro d
  rw [container_modifyContainer]
  split
  · rename_i hcd
    obtain ⟨rfl, -⟩ := hcd
    exact .inr ⟨hv.mono g, fun o ho => hc.scope c o (hf.scope ▸ ho)⟩
  · exact .inl rfl

theorem setValue (hc : h.Closed) (s : SlotId) {v : Value} (hv : v.Valid h) :
    (h.setValue s v).Closed := by
  have g := grows_setValue h s v
  refine hc.of_changes g (fun _ => .inl rfl) ?_ (fun _ => .inl rfl) (fun _ => .inl rfl)
  intro t
  rw [slot_setValue]
  split
  · exact .inr ⟨(hc.slot t).declared.mono g, hv.mono g⟩
  · exact .inl rfl

theorem newList (hc : h.Closed) {elem : TypeSpec} {items : List Value} (he : elem.Valid h)
    (hi : ∀ v ∈ items, v.Valid h) : (h.newList elem items).2.Closed := by
  have g := grows_newList h elem items
  refine hc.of_changes g (fun _ => .inl rfl) (fun _ => .inl rfl) ?_ (fun _ => .inl rfl)
  intro l
  rw [list_newList]
  split
  · exact .inr (ListData.Valid.mono g ⟨he, hi⟩)
  · exact .inl rfl

theorem setList (hc : h.Closed) {l : ListId} {new : ListData} (hv : new.Valid h)
    (he : new.elem = (h.list l).elem) (hi : (h.list l).items <+: new.items) :
    (h.setList l new).Closed := by
  have g := grows_setList h l he hi
  refine hc.of_changes g (fun _ => .inl rfl) (fun _ => .inl rfl) ?_ (fun _ => .inl rfl)
  intro k
  rw [list_setList_eq]
  split
  · exact .inr (hv.mono g)
  · exact .inl rfl

theorem newMap (hc : h.Closed) {m : OrderedMap Value} (hv : m.All (Value.Valid h)) :
    (h.newMap m).2.Closed := by
  have g := grows_newMap h m
  refine hc.of_changes g (fun _ => .inl rfl) (fun _ => .inl rfl) (fun _ => .inl rfl) ?_
  intro k
  rw [map_newMap]
  split
  · exact .inr (hv.imp fun _ => .mono g)
  · exact .inl rfl

theorem setMap (hc : h.Closed) (m : MapId) {new : OrderedMap Value}
    (hv : new.All (Value.Valid h)) : (h.setMap m new).Closed := by
  have g := grows_setMap h m new
  refine hc.of_changes g (fun _ => .inl rfl) (fun _ => .inl rfl) (fun _ => .inl rfl) ?_
  intro k
  by_cases hm : m.index < h.maps.size
  · rw [map_setMap h m k new hm]
    split
    · exact .inr (hv.imp fun _ => .mono g)
    · exact .inl rfl
  · left
    rw [Heap.setMap, Array.setIfInBounds_eq_of_size_le (Nat.not_lt.1 hm)]

theorem setMemo (hc : h.Closed) (memo : List (ContainerId × Ancestry)) :
    ({ h with memo } : Heap).Closed :=
  hc.of_changes (grows_setMemo h memo) (fun _ => .inl rfl) (fun _ => .inl rfl)
    (fun _ => .inl rfl) (fun _ => .inl rfl)

/-- A new name may be bound to a slot that is there. -/
theorem attach (hc : h.Closed) {c : ContainerId} {name : String} {s : SlotId} (hs : h.HasSlot s)
    (hn : (h.container c).attrs.get? name = none) : (h.attach c name s).Closed :=
  hc.modifyContainer (.insertAttr _ s hn)
    { hc.container c with attrs := (hc.container c).attrs.insert name hs }

/-! ## The operations of the language -/

theorem addConflicts (hc : h.Closed) (c : ContainerId) (found : List Conflict) :
    (h.addConflicts c found).Closed := by
  refine hc.modifyContainer ?_ ?_
  · split
    · rename_i data hk
      exact ⟨hk ▸ .cls (List.prefix_refl _), rfl, fun _ _ ha => ha, fun _ _ ha => ha⟩
    · exact .refl _
  · split
    · exact { hc.container c with kind := trivial }
    · exact hc.container c

theorem declare (hc : h.Closed) {owner : ContainerId} {name : String} {d : Declared} {s : SlotId}
    (hd : d.Valid h) (hok : h.declare owner name d = .ok (s, h')) : h'.Closed := by
  obtain ⟨hfree, rfl, hplain | hclass⟩ := declare_inv hok
  all_goals
    have hnew : (h.newSlot (.declare name d)).2.Closed := hc.newSlot ⟨hd, trivial⟩
    have hs : (h.newSlot (.declare name d)).2.HasSlot ⟨h.slots.size⟩ := by
      simp [HasSlot, Heap.newSlot]
  · obtain ⟨-, rfl⟩ := hplain
    exact hnew.attach hs (Container.find?_eq_none.1 hfree).1
  · obtain ⟨-, found, -, rfl⟩ := hclass
    refine Closed.setMemo ((hnew.addConflicts owner found).attach hs ?_) []
    rw [attrs_addConflicts]
    exact (Container.find?_eq_none.1 hfree).1

theorem insertAlias (hc : h.Closed) {c : ContainerId} {name : String} {s : SlotId}
    (hs : h.HasSlot s) (hok : h.insertAlias c name s = .ok h') : h'.Closed := by
  obtain ⟨hfree, rfl⟩ := insertAlias_inv hok
  exact hc.modifyContainer (.insertAlias _ s (Container.find?_eq_none.1 hfree).2)
    { hc.container c with aliases := (hc.container c).aliases.insert name hs }

theorem addParent (hc : h.Closed) {c parent : ContainerId} (hok : h.addParent c parent = .ok h') :
    h'.Closed := by
  obtain ⟨-, -, -, found, -, rfl⟩ := addParent_inv hok
  refine Closed.setMemo ((hc.addConflicts c found).modifyContainer (becomes_withParent parent _) ?_) []
  have hv := (hc.addConflicts c found).container c
  unfold withParent
  split
  · exact { hv with kind := trivial }
  · exact hv

/-- Copied slots are valid, and so is the table that names the copies. -/
theorem copySlots (hc : h.Closed) (chosen : List (String × SlotId)) :
    (h.copySlots chosen).2.Closed ∧
      (h.copySlots chosen).1.All (h.copySlots chosen).2.HasSlot := by
  refine copySlots_induction (P := fun attrs g => g.Closed ∧ attrs.All g.HasSlot) chosen
    ⟨hc, .empty _⟩ ?_
  intro attrs g name s _ hg
  refine ⟨hg.1.newSlot (hg.1.slot s), ?_⟩
  refine (hg.2.imp fun _ => .mono (grows_newSlot g _)).insert name ?_
  simp [HasSlot, Heap.newSlot]

theorem lt_size_of_scope (hc : h.Closed) {c o : ContainerId} (ho : (h.container c).scope = some o) :
    o.index < h.containers.size := by
  by_cases hlt : c.index < h.containers.size
  · exact Nat.lt_trans (hc.scope c o ho) hlt
  · rw [container_of_size_le (Nat.not_lt.1 hlt)] at ho
    cases ho

theorem mergeLangs (hc : h.Closed) (left right : ContainerId) :
    (h.mergeLangs left right).2.Closed := by
  obtain ⟨hcopy, hattrs⟩ := hc.copySlots (h.mergeSources left right)
  exact hcopy.alloc ⟨trivial, hattrs, .empty _⟩ fun o ho => hcopy.lt_size_of_scope ho

theorem assign (hc : h.Closed) {s : SlotId} {v : Value} (hv : v.Valid h)
    (hok : h.assign s v = .ok h') : h'.Closed := by
  obtain ⟨-, rfl⟩ | ⟨-, -, rfl⟩ := assign_inv hok
  · exact hc.setValue s hv
  · rcases settle_cases (h := h) (h.slot s).declared (h.slot s).value v with
      hs | ⟨a, b, -, -, hs, -⟩ | ⟨l, -, -, -, -, hs⟩
    · rw [hs]
      exact hc.setValue s hv
    · rw [hs]
      exact (hc.mergeLangs a b).setValue s (isKind_alloc rfl)
    · rw [hs]
      refine (hc.newList (hc.slot s).declared (hc.list l).items).setValue s ?_
      simp [Value.Valid, Heap.newList]

theorem append (hc : h.Closed) {l : ListId} {v : Value} (hv : v.Valid h)
    (hok : h.append l v = .ok h') : h'.Closed := by
  obtain ⟨-, -, rfl⟩ := append_inv hok
  refine hc.setList ⟨(hc.list l).elem, ?_⟩ rfl (List.prefix_append _ _)
  intro w hw
  rcases List.mem_append.1 hw with hw | hw
  · exact (hc.list l).items w hw
  · exact List.mem_singleton.1 hw ▸ hv

theorem materialize (hc : h.Closed) (inst : ContainerId) (key : String) (template : SlotId) :
    (h.materialize inst key template).2.Closed := by
  rcases materialize_cases (h := h) inst key template with ⟨s, -, hm⟩ | ⟨hnew, hm⟩
  · rw [hm]
    exact hc
  · rw [hm]
    have hslot : (h.newSlot { h.slot template with name := key }).2.Closed :=
      hc.newSlot ⟨(hc.slot template).declared, (hc.slot template).value⟩
    exact hslot.attach (by simp [HasSlot, Heap.newSlot]) hnew

end Closed
end Heap
end Ditlang
