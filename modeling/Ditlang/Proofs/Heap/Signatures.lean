import Ditlang.Proofs.Heap.Asking
import Ditlang.Proofs.Heap.Bodies

/-!
# Ditlang.Proofs.Heap.Signatures

What functions are declared with. A function is made by a definition or with the prelude, and its
parameters and the type of its result stay what they are. `FuncsFrom h h'` says that every function of
`h'` is one of `h`, at most with another file for its text. Every operation of the language does that
but the making of a function (`funcsFrom_declare`, `funcsFrom_assign`, …). So what definitions ensure
about functions, if the file does not matter to it (`FuncData.Lasting`), holds of `EachFunc` of a store.

One such property is that a function is `WellSigned`: its parameters have names of their own, and if it
is built in, it is declared with what the prelude says.
-/

namespace Ditlang

namespace FuncData

/-- Definitions give the property to functions, and it does not depend on where their text is kept. -/
structure Lasting (F : FuncData → Prop) : Prop where
  defined : ∀ {params : List Param} (ret : Option Declared) (lang : FuncLang),
    (params.map (·.name)).Nodup → F { params, ret, lang }
  becomes : ∀ {data data' : FuncData},
    (ContainerKind.func data).Becomes (.func data') → F data → F data'

/-- Parameters have names of their own, and a built-in function is declared as the prelude says. -/
structure WellSigned (data : FuncData) : Prop where
  names : (data.params.map (·.name)).Nodup
  native : ∀ b, data.native = some b → (data.params, data.ret) = Prelude.signature b

theorem WellSigned.becomes {data data' : FuncData}
    (hb : (ContainerKind.func data).Becomes (.func data')) (hd : data.WellSigned) :
    data'.WellSigned := by
  cases hb with
  | same => exact hd
  | func hparams hret _ hnative =>
    refine ⟨hparams ▸ hd.names, fun b hb => ?_⟩
    rw [hparams, hret]
    exact hd.native b (hnative ▸ hb)

theorem lasting_wellSigned : Lasting WellSigned where
  defined _ _ hnames := ⟨hnames, by rintro _ ⟨⟩⟩
  becomes := WellSigned.becomes

theorem wellSigned_builtin (b : Builtin) :
    WellSigned ⟨(Prelude.signature b).1, (Prelude.signature b).2, .ditlang, none, some b⟩ where
  names := by cases b <;> decide
  native := by
    rintro _ ⟨⟩
    rfl

end FuncData

theorem ContainerKind.Becomes.exists_func {k : ContainerKind} {data' : FuncData}
    (hk : k.Becomes (.func data')) :
    ∃ data, k = .func data ∧ (ContainerKind.func data).Becomes (.func data') := by
  cases hk with
  | same => exact ⟨data', rfl, .same _⟩
  | func hparams hret hlang hnative => exact ⟨_, rfl, .func hparams hret hlang hnative⟩

namespace Heap

def EachFunc (F : FuncData → Prop) (h : Heap) : Prop :=
  ∀ c data, (h.container c).kind = .func data → F data

/-- Every function was one before, declared with the same. -/
def FuncsFrom (h h' : Heap) : Prop :=
  ∀ c data', (h'.container c).kind = .func data' →
    ∃ data, (h.container c).kind = .func data ∧ (ContainerKind.func data).Becomes (.func data')

variable {h h' h'' : Heap} {F : FuncData → Prop}

theorem EachFunc.mono (he : h.EachFunc F) (hF : FuncData.Lasting F) (hf : h.FuncsFrom h') :
    h'.EachFunc F := by
  intro c data' hk
  obtain ⟨data, hdata, hb⟩ := hf c data' hk
  exact hF.becomes hb (he c data hdata)

namespace FuncsFrom

theorem of_containers (hc : h'.containers = h.containers) : h.FuncsFrom h' := by
  intro c data hk
  have hcon : h'.container c = h.container c := by rw [container, hc]; rfl
  exact ⟨data, hcon ▸ hk, .same _⟩

theorem refl (h : Heap) : h.FuncsFrom h :=
  of_containers rfl

theorem trans (hf : h.FuncsFrom h') (hf' : h'.FuncsFrom h'') : h.FuncsFrom h'' := by
  intro c data'' hk
  obtain ⟨data', hk', hb'⟩ := hf' c data'' hk
  obtain ⟨data, hk, hb⟩ := hf c data' hk'
  exact ⟨data, hk, hb.trans hb'⟩

theorem modifyContainer (c : ContainerId) {f : Container → Container}
    (hk : (h.container c).kind.Becomes (f (h.container c)).kind) :
    h.FuncsFrom (h.modifyContainer c f) := by
  intro d data' hdata
  rw [container_modifyContainer] at hdata
  split at hdata
  · rename_i hcd
    obtain ⟨rfl, -⟩ := hcd
    rw [hdata] at hk
    exact hk.exists_func
  · exact ⟨data', hdata, .same _⟩

theorem attach (c : ContainerId) (name : String) (s : SlotId) : h.FuncsFrom (h.attach c name s) :=
  .modifyContainer c (.same _)

theorem addConflicts (c : ContainerId) (found : List Conflict) :
    h.FuncsFrom (h.addConflicts c found) := by
  refine .modifyContainer c ?_
  split
  · rename_i data hk
    exact hk ▸ .cls (List.prefix_refl _)
  · exact .same _

end FuncsFrom

/-! ## The operations of the language -/

theorem EachFunc.alloc (he : h.EachFunc F) {c : Container} (hc : ∀ data, c.kind = .func data → F data) :
    (h.alloc c).2.EachFunc F := by
  intro d data hk
  rw [container_alloc] at hk
  split at hk
  · exact hc data hk
  · exact he d data hk

theorem EachFunc.modifyContainer (he : h.EachFunc F) {c : ContainerId} {f : Container → Container}
    (hf : ∀ data, (f (h.container c)).kind = .func data → F data) :
    (h.modifyContainer c f).EachFunc F := by
  intro d data hk
  rw [container_modifyContainer] at hk
  split at hk
  · rename_i hcd
    obtain ⟨rfl, -⟩ := hcd
    exact hf data hk
  · exact he d data hk

theorem funcsFrom_alloc {c : Container} (hc : ∀ data, c.kind ≠ .func data) :
    h.FuncsFrom (h.alloc c).2 := by
  intro d data hk
  rw [container_alloc] at hk
  split at hk
  · exact absurd hk (hc data)
  · exact ⟨data, hk, .same _⟩

theorem funcsFrom_declare {owner : ContainerId} {name : String} {d : Declared} {s : SlotId}
    (hok : h.declare owner name d = .ok (s, h')) : h.FuncsFrom h' := by
  have hslot : h.FuncsFrom (h.newSlot (.declare name d)).2 := .of_containers rfl
  obtain ⟨-, rfl, ⟨-, rfl⟩ | ⟨-, found, -, rfl⟩⟩ := declare_inv hok
  · exact hslot.trans (.attach owner name _)
  · exact (hslot.trans (.addConflicts owner found)).trans
      ((FuncsFrom.attach owner name _).trans (.of_containers rfl))

theorem funcsFrom_insertAlias {c : ContainerId} {name : String} {s : SlotId}
    (hok : h.insertAlias c name s = .ok h') : h.FuncsFrom h' := by
  obtain ⟨-, rfl⟩ := insertAlias_inv hok
  exact .modifyContainer c (.same _)

theorem funcsFrom_addParent {c parent : ContainerId} (hok : h.addParent c parent = .ok h') :
    h.FuncsFrom h' := by
  obtain ⟨-, -, -, found, -, rfl⟩ := addParent_inv hok
  have hparent := FuncsFrom.modifyContainer (h := h.addConflicts c found) c
    (becomes_withParent parent _).kind
  exact (FuncsFrom.addConflicts c found).trans (hparent.trans (.of_containers rfl))

theorem funcsFrom_mergeLangs (left right : ContainerId) :
    h.FuncsFrom (h.mergeLangs left right).2 :=
  (FuncsFrom.of_containers (containers_copySlots _)).trans (funcsFrom_alloc (by rintro _ ⟨⟩))

theorem funcsFrom_assign {s : SlotId} {v : Value} (hok : h.assign s v = .ok h') : h.FuncsFrom h' := by
  have hset {g : Heap} {w : Value} : g.FuncsFrom (g.setValue s w) := .of_containers rfl
  obtain ⟨-, rfl⟩ | ⟨-, -, rfl⟩ := assign_inv hok
  · exact hset
  · refine .trans ?_ hset
    rcases settle_cases (h := h) (h.slot s).declared (h.slot s).value v with
      hs | ⟨a, b, -, -, hs, -⟩ | ⟨l, -, -, -, -, hs⟩
    · rw [hs]
      exact .refl h
    · rw [hs]
      exact funcsFrom_mergeLangs a b
    · rw [hs]
      exact .of_containers rfl

theorem funcsFrom_append {l : ListId} {v : Value} (hok : h.append l v = .ok h') : h.FuncsFrom h' := by
  obtain ⟨-, -, rfl⟩ := append_inv hok
  exact .of_containers rfl

theorem funcsFrom_materialize (inst : ContainerId) (key : String) (template : SlotId) :
    h.FuncsFrom (h.materialize inst key template).2 := by
  rcases materialize_cases (h := h) inst key template with ⟨s, -, hm⟩ | ⟨-, hm⟩
  · rw [hm]
    exact .refl h
  · rw [hm]
    have hslot : h.FuncsFrom (h.newSlot { h.slot template with name := key }).2 := .of_containers rfl
    exact hslot.trans (.attach inst key _)

theorem funcsFrom_warmAll (asked : List ContainerId) : h.FuncsFrom (h.warmAll asked) :=
  .of_containers (containers_warmAll asked)

/-! ## The store at the start -/

theorem funcsFrom_bind (owner : ContainerId) (name : String) (ty : TypeSpec) (v : Value) :
    h.FuncsFrom (Prelude.bind h owner name ty v) := by
  have hslot : h.FuncsFrom (h.newSlot { Slot.declare name (.scalar ty) with value := v }).2 :=
    .of_containers rfl
  exact hslot.trans (.attach owner name _)

/-- A built-in function is added with what the prelude says. -/
theorem EachFunc.addBuiltin (he : h.EachFunc FuncData.WellSigned) (prelude : ContainerId) (b : Builtin) :
    (Prelude.addBuiltin prelude h b).EachFunc FuncData.WellSigned := by
  refine (he.alloc ?_).mono FuncData.lasting_wellSigned (funcsFrom_bind _ _ _ _)
  rintro _ ⟨⟩
  exact FuncData.wellSigned_builtin b

theorem funcsFrom_addLang (prelude : ContainerId) (lang : String × List (String × String)) :
    h.FuncsFrom (Prelude.addLang prelude h lang) := by
  have hnew : h.FuncsFrom (h.alloc { name := some lang.1, kind := .lang, scope := some prelude }).2 :=
    funcsFrom_alloc (by rintro _ ⟨⟩)
  refine .trans ?_ (funcsFrom_bind _ _ _ _)
  refine List.foldlRecOn (motive := h.FuncsFrom) lang.2 _ hnew fun g hg prop _ => ?_
  exact hg.trans (funcsFrom_bind _ _ _ _)

theorem eachFunc_install : Prelude.install.2.EachFunc FuncData.WellSigned := by
  have hempty : Heap.empty.EachFunc FuncData.WellSigned := by rintro _ _ ⟨⟩
  unfold Prelude.install
  refine List.foldlRecOn (motive := EachFunc FuncData.WellSigned) _ _ ?_ fun h he lang _ =>
    he.mono FuncData.lasting_wellSigned (funcsFrom_addLang _ lang)
  refine List.foldlRecOn (motive := EachFunc FuncData.WellSigned) _ _ ?_ fun h he b _ =>
    he.addBuiltin _ b
  exact hempty.alloc (by rintro _ ⟨⟩)

end Heap
end Ditlang
