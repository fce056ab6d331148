import Ditlang.Prelude.Basic
import Ditlang.Proofs.Heap.Steps
import Ditlang.Proofs.Token.Places

/-!
# Ditlang.Proofs.Heap.Bodies

The bodies of containers. A container is `Sourced` when what is needed to run it is there: a class has
a body, a function has one or is built in, and the body lies in a buffer of which it knows the places.
`Codes h h'` says that from one store to another no body was replaced and that containers that are new
are sourced and wait to be interpreted. Every operation of the language does that (`codes_declare`,
`codes_assign`, …), apart from two: a body is marked as interpreted, and the main dit gets the text of
each input.

Most faults of the store cannot be the fault that an instance has no class (`ordinary_assign`, …).
-/

namespace Ditlang

open Source (View)

/-- What is needed to run a container is there. -/
structure Container.Sourced (c : Container) : Prop where
  placed : ∀ b, c.body = some b → b.view.Placed
  cls : c.kind.valueKind? = some .cls → c.body.isSome
  func : ∀ data, c.kind = .func data → match data.native with
    | none => c.body.isSome
    | some b => data.params = (Prelude.signature b).1

/-- Whether the body of a container is interpreted when it is needed: that of a class or a Lang. -/
def ContainerKind.isLazy (k : ContainerKind) : Prop :=
  k.valueKind? = some .cls ∨ k.valueKind? = some .lang

/-- Whether the body of a container counts as interpreted. -/
def Container.interpreted (c : Container) : Bool :=
  c.body.any (·.interpreted)

/-- A container that can be run and has not been interpreted. -/
structure Container.Waits (c : Container) : Prop extends c.Sourced where
  waits : c.kind.isLazy → c.interpreted = false

namespace Container

variable {c c' : Container}

theorem Sourced.becomes (hc : c.Sourced) (hk : c.kind.Becomes c'.kind) (hb : c'.body = c.body) :
    c'.Sourced where
  placed := hb ▸ hc.placed
  cls := by
    rw [hk.valueKind?_eq, hb]
    exact hc.cls
  func data hdata := by
    have hfunc := hc.func
    rw [hdata] at hk
    rw [hb]
    generalize c.kind = k at hk hfunc
    cases hk with
    | same => exact hfunc data rfl
    | func hp _ _ hn =>
      rw [hn, hp]
      exact hfunc _ rfl

theorem Waits.becomes (hc : c.Waits) (hk : c.kind.Becomes c'.kind) (hb : c'.body = c.body) :
    c'.Waits where
  toSourced := hc.toSourced.becomes hk hb
  waits := by
    rw [ContainerKind.isLazy, hk.valueKind?_eq, interpreted, hb]
    exact hc.waits

theorem Waits.of_body (hb : c.body = none) (hcls : c.kind.valueKind? ≠ some .cls)
    (hfunc : c.kind.valueKind? ≠ some .func) : c.Waits where
  placed _ h := nomatch hb.symm.trans h
  cls h := absurd h hcls
  func data h := absurd (congrArg ContainerKind.valueKind? h) hfunc
  waits _ := by rw [interpreted, hb]; rfl

theorem Waits.of_plain (hv : ∀ b, c.body = some b → b.view.Placed) (hlazy : ¬ c.kind.isLazy)
    (hfunc : c.kind.valueKind? ≠ some .func) : c.Waits where
  placed := hv
  cls h := absurd (.inl h) hlazy
  func _ h := absurd (congrArg ContainerKind.valueKind? h) hfunc
  waits h := absurd h hlazy

theorem waits_default : (default : Container).Waits :=
  Waits.of_body rfl nofun nofun

end Container

namespace Heap

/-- What is needed to run containers is there. -/
def Sourced (h : Heap) : Prop :=
  ∀ c, (h.container c).Sourced

/-- Bodies are as they were, and containers that are new wait. -/
structure Codes (h h' : Heap) : Prop where
  size : h.containers.size ≤ h'.containers.size
  kind : ∀ c, c.index < h.containers.size → (h.container c).kind.Becomes (h'.container c).kind
  body : ∀ c, c.index < h.containers.size → (h'.container c).body = (h.container c).body
  new : ∀ c, h.containers.size ≤ c.index → (h'.container c).Waits

variable {h h' h'' : Heap}

namespace Codes

theorem of_grows (g : h.Grows h')
    (body : ∀ c, c.index < h.containers.size → (h'.container c).body = (h.container c).body)
    (new : ∀ c, h.containers.size ≤ c.index → (h'.container c).Waits) : h.Codes h' :=
  ⟨g.containers, fun c hc => (g.container c hc).kind, body, new⟩

theorem of_containers (hc : h'.containers = h.containers) : h.Codes h' := by
  have hcon : ∀ c, h'.container c = h.container c := fun c => by rw [container, hc]; rfl
  refine ⟨hc ▸ Nat.le_refl _, fun c _ => hcon c ▸ .same _, fun c _ => hcon c ▸ rfl, ?_⟩
  intro c hle
  rw [hcon, container_of_size_le hle]
  exact Container.waits_default

theorem refl (h : Heap) : h.Codes h :=
  of_containers rfl

theorem trans (hc : h.Codes h') (hc' : h'.Codes h'') : h.Codes h'' where
  size := Nat.le_trans hc.size hc'.size
  kind c hlt := (hc.kind c hlt).trans (hc'.kind c (Nat.lt_of_lt_of_le hlt hc.size))
  body c hlt := (hc'.body c (Nat.lt_of_lt_of_le hlt hc.size)).trans (hc.body c hlt)
  new c hle := by
    by_cases hlt : c.index < h'.containers.size
    · exact (hc.new c hle).becomes (hc'.kind c hlt) (hc'.body c hlt)
    · exact hc'.new c (Nat.not_lt.1 hlt)

theorem sourced (hc : h.Codes h') (hs : h.Sourced) : h'.Sourced := by
  intro c
  by_cases hlt : c.index < h.containers.size
  · exact (hs c).becomes (hc.kind c hlt) (hc.body c hlt)
  · exact (hc.new c (Nat.not_lt.1 hlt)).toSourced

end Codes

/-- A body that counts as interpreted is the same source. -/
theorem Sourced.interpret (hs : h.Sourced) {c : ContainerId} {b : Body}
    (hb : (h.container c).body = some b) :
    (h.modifyContainer c fun x => { x with body := some { b with interpreted := true } }).Sourced := by
  intro d
  rw [container_modifyContainer]
  split
  · rename_i hcd
    obtain ⟨rfl, -⟩ := hcd
    have hc := hs c
    refine ⟨?_, fun _ => rfl, fun data hdata => ?_⟩
    · rintro _ ⟨⟩
      exact hc.placed b hb
    · have hfunc := hc.func data hdata
      split
      · rfl
      · rename_i hn
        rw [hn] at hfunc
        exact hfunc
  · exact hs d

/-- A container whose body is run when it is called or imported. -/
structure Plain (h : Heap) (c : ContainerId) : Prop where
  there : c.index < h.containers.size
  plain : ¬ (h.container c).kind.isLazy

theorem IsKind.plain {c : ContainerId} (hc : h.IsKind .dit c) : h.Plain c where
  there := hc.lt_size
  plain := by
    rintro (hcls | hlang)
    · cases hc.symm.trans hcls
    · cases hc.symm.trans hlang

theorem Sourced.setBody (hs : h.Sourced) {c : ContainerId} (hc : h.IsKind .dit c) {b : Body}
    (hv : b.view.Placed) : (h.modifyContainer c ({ · with body := some b })).Sourced := by
  intro d
  rw [container_modifyContainer]
  split
  · rename_i hcd
    obtain ⟨rfl, -⟩ := hcd
    refine (Container.Waits.of_plain (c := { h.container c with body := some b }) ?_ hc.plain.plain
      ?_).toSourced
    · rintro _ ⟨⟩
      exact hv
    · intro hfunc
      cases hc.symm.trans hfunc
  · exact hs d

theorem Grows.isLazy_iff (g : h.Grows h') {c : ContainerId} (hc : c.index < h.containers.size) :
    (h'.container c).kind.isLazy ↔ (h.container c).kind.isLazy := by
  rw [ContainerKind.isLazy, ContainerKind.isLazy, (g.container c hc).kind.valueKind?_eq]

theorem Plain.mono {c : ContainerId} (hc : h.Plain c) (g : h.Grows h') : h'.Plain c where
  there := Nat.lt_of_lt_of_le hc.there g.containers
  plain hlazy := hc.plain ((g.isLazy_iff hc.there).1 hlazy)

/-! ## The operations of the language -/

theorem codes_alloc {c : Container} (hc : c.Waits) : h.Codes (h.alloc c).2 := by
  refine .of_grows (grows_alloc h c) ?_ ?_
  · intro d hd
    rw [container_alloc, if_neg (Nat.ne_of_lt hd)]
  · intro d hd
    rw [container_alloc]
    split
    · exact hc
    · rw [container_of_size_le hd]
      exact Container.waits_default

theorem plain_alloc {c : Container} (hc : ¬ c.kind.isLazy) : (h.alloc c).2.Plain (h.alloc c).1 where
  there := by simp [alloc]
  plain := by
    rw [container_alloc, if_pos (by rfl)]
    exact hc

theorem codes_modifyContainer (c : ContainerId) {f : Container → Container}
    (hk : (h.container c).kind.Becomes (f (h.container c)).kind)
    (hb : (f (h.container c)).body = (h.container c).body) : h.Codes (h.modifyContainer c f) where
  size := Nat.le_of_eq (size_modifyContainer h c f).symm
  kind d _ := by
    rw [container_modifyContainer]
    split
    · rename_i hcd
      exact hcd.1 ▸ hk
    · exact .same _
  body d _ := by
    rw [container_modifyContainer]
    split
    · rename_i hcd
      exact hcd.1 ▸ hb
    · rfl
  new d hd := by
    rw [container_of_size_le (by rw [size_modifyContainer]; exact hd)]
    exact Container.waits_default

theorem codes_attach (c : ContainerId) (name : String) (s : SlotId) : h.Codes (h.attach c name s) :=
  codes_modifyContainer c (.same _) rfl

theorem codes_addConflicts (c : ContainerId) (found : List Conflict) :
    h.Codes (h.addConflicts c found) := by
  refine codes_modifyContainer c ?_ ?_
  · split
    · rename_i data hk
      exact hk ▸ .cls (List.prefix_refl _)
    · exact .same _
  · split <;> rfl

theorem codes_declare {owner : ContainerId} {name : String} {d : Declared} {s : SlotId}
    (hok : h.declare owner name d = .ok (s, h')) : h.Codes h' := by
  have hslot : h.Codes (h.newSlot (.declare name d)).2 := .of_containers rfl
  obtain ⟨-, rfl, ⟨-, rfl⟩ | ⟨-, found, -, rfl⟩⟩ := declare_inv hok
  · exact hslot.trans (codes_attach owner name _)
  · exact (hslot.trans (codes_addConflicts owner found)).trans
      ((codes_attach owner name _).trans (.of_containers rfl))

theorem codes_insertAlias {c : ContainerId} {name : String} {s : SlotId}
    (hok : h.insertAlias c name s = .ok h') : h.Codes h' := by
  obtain ⟨-, rfl⟩ := insertAlias_inv hok
  exact codes_modifyContainer c (.same _) rfl

theorem codes_addParent {c parent : ContainerId} (hok : h.addParent c parent = .ok h') :
    h.Codes h' := by
  obtain ⟨-, -, -, found, -, rfl⟩ := addParent_inv hok
  have hparent : (h.addConflicts c found).Codes
      ((h.addConflicts c found).modifyContainer c (withParent parent)) := by
    refine codes_modifyContainer c (becomes_withParent parent _).kind ?_
    unfold withParent
    split <;> rfl
  exact (codes_addConflicts c found).trans (hparent.trans (.of_containers rfl))

theorem codes_mergeLangs (left right : ContainerId) : h.Codes (h.mergeLangs left right).2 :=
  (Codes.of_containers (containers_copySlots _)).trans
    (codes_alloc (Container.Waits.of_body rfl nofun nofun))

theorem codes_assign {s : SlotId} {v : Value} (hok : h.assign s v = .ok h') : h.Codes h' := by
  have hset {g : Heap} {w : Value} : g.Codes (g.setValue s w) := .of_containers rfl
  obtain ⟨-, rfl⟩ | ⟨-, -, rfl⟩ := assign_inv hok
  · exact hset
  · refine .trans ?_ hset
    rcases settle_cases (h := h) (h.slot s).declared (h.slot s).value v with
      hs | ⟨a, b, -, -, hs, -⟩ | ⟨l, -, -, -, -, hs⟩
    · rw [hs]
      exact .refl h
    · rw [hs]
      exact codes_mergeLangs a b
    · rw [hs]
      exact .of_containers rfl

theorem codes_materialize (inst : ContainerId) (key : String) (template : SlotId) :
    h.Codes (h.materialize inst key template).2 := by
  rcases materialize_cases (h := h) inst key template with ⟨s, -, hm⟩ | ⟨-, hm⟩
  · rw [hm]
    exact .refl h
  · rw [hm]
    have hslot : h.Codes (h.newSlot { h.slot template with name := key }).2 := .of_containers rfl
    exact hslot.trans (codes_attach inst key _)

theorem codes_keepFile {c : ContainerId} {data : FuncData}
    (hk : (h.container c).kind.Becomes (.func data)) :
    h.Codes (h.modifyContainer c fun x => { x with kind := .func data }) :=
  codes_modifyContainer c hk rfl

theorem containers_storeKeys {m : MapId} {last : String} {v : Value} {keys : List String}
    (hok : h.storeKeys m last v keys = .ok h') : h'.containers = h.containers := by
  induction keys generalizing h m with
  | nil =>
    cases hok
    rfl
  | cons key rest ih =>
    rw [storeKeys] at hok
    split at hok
    · exact ih hok
    · dsimp only at hok
      exact (ih hok).trans rfl
    · cases hok

mutual

theorem containers_ofJson (h : Heap) (j : Json) : (h.ofJson j).2.containers = h.containers := by
  cases j with
  | arr items => exact containers_ofJsonItems h items
  | obj fields => exact containers_ofJsonFields h fields
  | _ => rfl

theorem containers_ofJsonItems (h : Heap) (items : List Json) :
    (h.ofJsonItems items).2.containers = h.containers := by
  cases items with
  | nil => rfl
  | cons item rest =>
    exact (containers_ofJsonItems _ rest).trans (containers_ofJson h item)

theorem containers_ofJsonFields (h : Heap) (fields : List (String × Json)) :
    (h.ofJsonFields fields).2.containers = h.containers := by
  cases fields with
  | nil => rfl
  | cons field rest =>
    exact (containers_ofJsonFields _ rest).trans (containers_ofJson h field.2)

end

/-! ## The store at the start -/

theorem codes_bind (owner : ContainerId) (name : String) (ty : TypeSpec) (v : Value) :
    h.Codes (Prelude.bind h owner name ty v) := by
  have hslot : h.Codes (h.newSlot { Slot.declare name (.scalar ty) with value := v }).2 :=
    .of_containers rfl
  exact hslot.trans (codes_attach owner name _)

theorem codes_foldl {α : Type} {fill : Heap → α → Heap}
    (hfill : ∀ (h : Heap) x, h.Codes (fill h x)) :
    ∀ (xs : List α) (h : Heap), h.Codes (xs.foldl fill h)
  | [], h => .refl h
  | x :: xs, h => (hfill h x).trans (codes_foldl hfill xs _)

theorem codes_addBuiltin (prelude : ContainerId) (h : Heap) (b : Builtin) :
    h.Codes (Prelude.addBuiltin prelude h b) := by
  have hwaits : Container.Waits ⟨some (Prelude.builtinName b),
      .func ⟨(Prelude.signature b).1, (Prelude.signature b).2, .ditlang, none, some b⟩, .empty, .empty,
      some prelude, none⟩ := by
    refine ⟨⟨by rintro _ ⟨⟩, by rintro ⟨⟩, ?_⟩, fun _ => rfl⟩
    rintro data ⟨⟩
    rfl
  exact (codes_alloc hwaits).trans (codes_bind _ _ _ _)

theorem codes_addLang (prelude : ContainerId) (h : Heap) (lang : String × List (String × String)) :
    h.Codes (Prelude.addLang prelude h lang) := by
  have hwaits : Container.Waits ⟨some lang.1, .lang, .empty, .empty, some prelude, none⟩ :=
    .of_body rfl nofun nofun
  refine (codes_alloc hwaits).trans ?_
  exact (codes_foldl (fun _ _ => codes_bind _ _ _ _) lang.2 _).trans (codes_bind _ _ _ _)

/-- The containers of the prelude are those of built-in functions and Langs without a body. -/
theorem codes_install : Heap.empty.Codes Prelude.install.2 := by
  have hwaits : Container.Waits ⟨some "prelude", .prelude, .empty, .empty, none, none⟩ :=
    .of_body rfl nofun nofun
  refine (codes_alloc hwaits).trans ?_
  exact (codes_foldl (codes_addBuiltin _) _ _).trans (codes_foldl (codes_addLang _) _ _)

/-! ## Faults -/

end Heap

/-- A fault that is not one of the interpreter itself. -/
def HeapFault.Ordinary (f : HeapFault) : Prop :=
  f.kind ≠ .critical

namespace Heap

variable {h h' : Heap} {f : HeapFault}

theorem ordinary_declare {owner : ContainerId} {name : String} {d : Declared}
    (he : h.declare owner name d = .error f) : f.Ordinary := by
  unfold declare at he
  split at he
  · cases he
    exact nofun
  · dsimp only at he
    split at he <;> cases he

theorem ordinary_insertAlias {c : ContainerId} {name : String} {s : SlotId}
    (he : h.insertAlias c name s = .error f) : f.Ordinary := by
  unfold insertAlias at he
  split at he
  · cases he
    exact nofun
  · cases he

theorem ordinary_assign {s : SlotId} {v : Value} (he : h.assign s v = .error f) : f.Ordinary := by
  unfold assign at he
  dsimp only at he
  split at he
  · cases he
  · split at he
    · cases he
      exact nofun
    · cases he

theorem ordinary_append {l : ListId} {v : Value} (he : h.append l v = .error f) : f.Ordinary := by
  unfold append at he
  dsimp only at he
  split at he
  · cases he
    exact nofun
  · split at he
    · cases he
      exact nofun
    · cases he

theorem ordinary_addParent {c parent : ContainerId} (he : h.addParent c parent = .error f) :
    f.Ordinary := by
  unfold addParent at he
  split at he
  · cases he
    exact nofun
  · split at he
    · cases he
      exact nofun
    · split at he
      · cases he
        exact nofun
      · cases he

theorem ordinary_langProp {lang : ContainerId} {prop : String}
    (he : h.langProp lang prop = .error f) : f.Ordinary := by
  unfold langProp at he
  split at he
  · cases he
  · cases he
    exact nofun

theorem ordinary_classMember {c : ContainerId} {name : String}
    (he : h.classMember c name = .error f) : f.Ordinary := by
  unfold classMember at he
  split at he
  · cases he
  · dsimp only at he
    split at he
    · cases he
      exact nofun
    · split at he
      · cases he
      · split at he <;> cases he

theorem ordinary_plainMember {base : Value} {c : ContainerId} {name : String}
    (he : h.plainMember base c name = .error f) : f.Ordinary := by
  unfold plainMember at he
  split at he
  · cases he
  · cases he
    exact nofun

theorem ordinary_memberOfClass {c : ContainerId} {qualifier : Option ContainerId} {name : String}
    (he : h.memberOfClass c qualifier name = .error f) : f.Ordinary := by
  unfold memberOfClass at he
  dsimp only at he
  cases hm : h.classMember (qualifier.getD c) name with
  | error e =>
    rw [hm] at he
    cases he
    exact ordinary_classMember hm
  | ok found =>
    rw [hm] at he
    cases found with
    | missing =>
      cases he
      exact nofun
    | slot s => cases he
    | qualifier a => cases he

theorem IsKind.exists_func {c : ContainerId} (hc : h.IsKind .func c) :
    ∃ data, (h.container c).kind = .func data := by
  unfold IsKind at hc
  cases hk : (h.container c).kind with
  | func data => exact ⟨data, rfl⟩
  | _ => rw [hk] at hc; cases hc

theorem IsKind.exists_inst {c : ContainerId} (hc : h.IsKind .inst c) :
    ∃ cls, (h.container c).kind = .inst cls := by
  unfold IsKind at hc
  cases hk : (h.container c).kind with
  | inst cls => exact ⟨cls, rfl⟩
  | _ => rw [hk] at hc; cases hc

theorem ordinary_instanceMember {i : ContainerId} (hi : h.IsKind .inst i)
    {qualifier : Option ContainerId} {name : String}
    (he : h.instanceMember i qualifier name = .error f) : f.Ordinary := by
  unfold instanceMember at he
  dsimp only at he
  split at he
  · cases he
  · split at he
    · rename_i hnone
      obtain ⟨cls, hcls⟩ := hi.exists_inst
      rw [classOf?, hcls] at hnone
      cases hnone
    · rename_i cls _
      cases hm : h.classMember (qualifier.getD cls) name with
      | error e =>
        rw [hm] at he
        cases he
        exact ordinary_classMember hm
      | ok found =>
        rw [hm] at he
        cases found with
        | missing =>
          cases he
          exact nofun
        | slot s => cases he
        | qualifier a => cases he

/-- A member of a valid value is found, or there is a fault of the program. -/
theorem ordinary_member {base : Value} (hb : base.Valid h) {qualifier : Option ContainerId}
    {name : String} (he : h.member base qualifier name = .error f) : f.Ordinary := by
  cases base with
  | ditRef c | langRef c | funcRef c => exact ordinary_plainMember he
  | classRef c => exact ordinary_memberOfClass he
  | instanceRef i => exact ordinary_instanceMember hb he
  | _ =>
    cases he
    exact nofun

end Heap

theorem Guest.ordinary_ofLang {h : Heap} {lang : ContainerId} {f : HeapFault}
    (he : Markers.ofLang h lang = .error f) : f.Ordinary := by
  unfold Markers.ofLang at he
  cases hprop : h.langProp lang "file_extension" with
  | error e =>
    rw [hprop] at he
    cases he
    exact Heap.ordinary_langProp hprop
  | ok extension =>
    rw [hprop] at he
    cases he

end Ditlang
