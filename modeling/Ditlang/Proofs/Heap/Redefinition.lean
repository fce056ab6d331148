import Ditlang.Proofs.Heap.ListGraph
import Ditlang.Proofs.Heap.Properties
import Ditlang.Proofs.Heap.Writes

/-!
# Ditlang.Proofs.Heap.Redefinition

A Lang that is defined again and again. Each definition is merged into what the ones before have made;
other orders of merging are other bracketings of the same sequence of Langs. When no Lang of the
sequence has aliases and all have one priority, the later one wins in every merge: what comes out has
that priority again, and its table of properties is made of the entries of all Langs in turn, whatever
the bracketing (`Bracketing.merges`).
-/

namespace Ditlang

namespace Number

theorem le_of_same {x y p : Number} (hx : x.same p = true) (hy : y.same p = true) :
    x.le y = true := by
  simp only [same, Bool.and_eq_true, Bool.not_eq_true', beq_iff_eq] at hx hy
  simp [le, hx, hy]

end Number

/-- An order of merging some Langs in turn. -/
inductive Bracketing where
  | lang (c : ContainerId)
  | merge (first second : Bracketing)

namespace Bracketing

def langs : Bracketing → List ContainerId
  | lang c => [c]
  | merge first second => first.langs ++ second.langs

def mergeIn : Bracketing → Heap → ContainerId × Heap
  | lang c, h => (c, h)
  | merge first second, h =>
    let (left, h) := first.mergeIn h
    let (right, h) := second.mergeIn h
    h.mergeLangs left right

end Bracketing

namespace Heap

variable {h h' h'' : Heap} {p : Number} {c : ContainerId}

/-! ## What merging leaves alone -/

/-- Everything is as it was, and there may be more containers and slots. -/
structure OnlyAdds (h h' : Heap) : Prop where
  grows : h.Grows h'
  container : ∀ c, c.index < h.containers.size → h'.container c = h.container c
  slot : ∀ s, h.HasSlot s → h'.slot s = h.slot s
  lists : h'.lists = h.lists
  maps : h'.maps = h.maps

namespace OnlyAdds

theorem refl (h : Heap) : h.OnlyAdds h :=
  ⟨.refl h, fun _ _ => rfl, fun _ _ => rfl, rfl, rfl⟩

theorem trans (he : h.OnlyAdds h') (he' : h'.OnlyAdds h'') : h.OnlyAdds h'' where
  grows := he.grows.trans he'.grows
  container c hc := by
    rw [he'.container c (Nat.lt_of_lt_of_le hc he.grows.containers), he.container c hc]
  slot s hs := by
    rw [he'.slot s (hs.mono he.grows), he.slot s hs]
  lists := he'.lists.trans he.lists
  maps := he'.maps.trans he.maps

theorem mergeLangs (left right : ContainerId) : h.OnlyAdds (h.mergeLangs left right).2 := by
  have hc : h.Confined (h.mergeLangs left right).2 ⟨h.containers.size⟩ (fun _ => False)
      (fun _ => False) := confined_mergeLangs left right
  have hmaps : (h.copySlots (h.mergeSources left right)).2.maps = h.maps :=
    copySlots_induction (P := fun _ g => g.maps = h.maps) _ rfl fun _ _ _ _ _ hg => hg
  refine ⟨hc.grows, fun c hlt => hc.container c hlt fun he => ?_, fun s hs => hc.slot s hs id,
    lists_mergeLangs left right, hmaps⟩
  simp [he] at hlt

theorem findLocal? (he : h.OnlyAdds h') (hc : c.index < h.containers.size) (x : String) :
    h'.findLocal? c x = h.findLocal? c x := by
  rw [Heap.findLocal?, he.container c hc]
  rfl

theorem properties (he : h.OnlyAdds h') (hclosed : h.Closed) (hn : h.AttrsNodup)
    (hc : c.index < h.containers.size) : h'.properties c = h.properties c := by
  unfold Heap.properties
  rw [he.container c hc]
  congr 1
  refine List.map_congr_left fun e hmem => ?_
  have hs : (h.container c).attrs.get? e.1 = some e.2 := OrderedMap.get?_of_mem (hn c) hmem
  rw [he.slot e.2 ((hclosed.container c).attrs.get? hs)]

end OnlyAdds

/-! ## Langs of one priority -/

/-- A Lang without aliases whose priority is `p`. -/
structure PlainLang (h : Heap) (p : Number) (c : ContainerId) : Prop where
  kind : h.IsKind .lang c
  aliases : (h.container c).aliases = .empty
  priority : (h.priority c).same p = true

def priorityOf (property : Option Slot) : Number :=
  match property.map Slot.value with
  | some (.num x) => x
  | _ => .zero

/-- The priority of a Lang without aliases is read off its properties. -/
theorem priority_eq (ha : (h.container c).aliases = .empty) :
    h.priority c = priorityOf ((h.properties c).get? "priority") := by
  rw [get?_properties]
  unfold priority priorityOf findLocal? Container.find?
  rw [ha]
  cases (h.container c).attrs.get? "priority" <;> rfl

theorem PlainLang.mono (hl : h.PlainLang p c) (hclosed : h.Closed) (he : h.OnlyAdds h') :
    h'.PlainLang p c := by
  have hc := he.container c hl.kind.lt_size
  refine ⟨hl.kind.mono he.grows, by rw [hc, hl.aliases], ?_⟩
  have hvalue : ∀ s, h.findLocal? c "priority" = some s → h'.value s = h.value s := by
    intro s hs
    rw [findLocal?, Container.find?, hl.aliases, OrderedMap.get?_empty, Option.or_none] at hs
    exact congrArg Slot.value (he.slot s ((hclosed.container c).attrs.get? hs))
  have hsame : h'.priority c = h.priority c := by
    unfold Heap.priority
    rw [he.findLocal? hl.kind.lt_size]
    cases hs : h.findLocal? c "priority" with
    | none => rfl
    | some s => rw [Option.map_some, Option.map_some, hvalue s hs]
  rw [hsame, hl.priority]

/-- Two plain Langs of one priority merge into a third one. -/
theorem PlainLang.mergeLangs (hclosed : h.Closed) (hn : h.AttrsNodup) {left right : ContainerId}
    (hl : h.PlainLang p left) (hr : h.PlainLang p right) :
    (h.mergeLangs left right).2.PlainLang p (h.mergeLangs left right).1 := by
  have hmade := container_mergeLangs (h := h) left right
  have haliases : ((h.mergeLangs left right).2.container
      (h.mergeLangs left right).1).aliases = .empty := by rw [hmade]
  refine ⟨by rw [IsKind, hmade]; rfl, haliases, ?_⟩
  have hle := Number.le_of_same hl.priority hr.priority
  have hleft : (h.properties left).keys.Nodup := by simpa using hn left
  have hright : (h.properties right).keys.Nodup := by simpa using hn right
  rw [priority_eq haliases, properties_mergeLangs hclosed hn hle, OrderedMap.get?_ofList_append,
    OrderedMap.ofList_entries hleft, OrderedMap.ofList_entries hright]
  -- the deciding property of later merges is the one that this merge has chosen
  cases hp : (h.properties right).get? "priority" with
  | none =>
    rw [Option.none_or, ← priority_eq hl.aliases]
    exact hl.priority
  | some s =>
    rw [Option.some_or, ← hp, ← priority_eq hr.aliases]
    exact hr.priority

end Heap

namespace Bracketing

variable {h h' : Heap} {p : Number}

/-- The entries of all Langs of a sequence in turn. -/
def entries (h : Heap) (langs : List ContainerId) : List (String × Slot) :=
  langs.flatMap fun c => (h.properties c).entries

/-- Lang `m` of the later store is what the Langs of a sequence are merged into. -/
structure Result (h : Heap) (p : Number) (langs : List ContainerId) (m : ContainerId)
    (h' : Heap) : Prop where
  closed : h'.Closed
  nodup : h'.AttrsNodup
  onlyAdds : h.OnlyAdds h'
  plain : h'.PlainLang p m
  properties : h'.properties m = .ofList (entries h langs)

theorem merges (t : Bracketing) (hclosed : h.Closed) (hn : h.AttrsNodup)
    (hlangs : ∀ c ∈ t.langs, h.PlainLang p c) :
    Result h p t.langs (t.mergeIn h).1 (t.mergeIn h).2 := by
  induction t generalizing h with
  | lang c =>
    refine ⟨hclosed, hn, .refl h, hlangs c List.mem_cons_self, ?_⟩
    have hkeys : (h.properties c).keys.Nodup := by simpa using hn c
    simp [entries, langs, mergeIn, OrderedMap.ofList_entries hkeys]
  | merge first second ihfirst ihsecond =>
    have hfirst : ∀ c ∈ first.langs, h.PlainLang p c := fun c hc =>
      hlangs c (List.mem_append_left _ hc)
    have hsecond : ∀ c ∈ second.langs, h.PlainLang p c := fun c hc =>
      hlangs c (List.mem_append_right _ hc)
    have hl := ihfirst hclosed hn hfirst
    have hr := ihsecond hl.closed hl.nodup fun c hc => (hsecond c hc).mono hclosed hl.onlyAdds
    have hplain := hl.plain.mono hl.closed hr.onlyAdds
    have hle := Number.le_of_same hplain.priority hr.plain.priority
    -- the second part is merged in a store that has grown, where its Langs are as before
    have hentries : entries (first.mergeIn h).2 second.langs = entries h second.langs := by
      unfold entries
      refine List.flatMap_congr fun c hc => ?_
      rw [hl.onlyAdds.properties hclosed hn (hsecond c hc).kind.lt_size]
    refine ⟨hr.closed.mergeLangs _ _, hr.nodup.mergeLangs _ _,
      hl.onlyAdds.trans (hr.onlyAdds.trans (.mergeLangs _ _)),
      .mergeLangs hr.closed hr.nodup hplain hr.plain, ?_⟩
    rw [mergeIn]
    dsimp only
    rw [Heap.properties_mergeLangs hr.closed hr.nodup hle,
      hr.onlyAdds.properties hl.closed hl.nodup hl.plain.kind.lt_size, hl.properties, hr.properties,
      hentries, OrderedMap.ofList_append_ofList]
    simp [entries, langs]

/-- The names come in the order in which the Langs have them first. -/
theorem keys_ofList_entries (h : Heap) (langs : List ContainerId) :
    (OrderedMap.ofList (entries h langs)).keys =
      (langs.flatMap fun c => (h.container c).attrs.keys).eraseDups := by
  rw [OrderedMap.keys_ofList, entries, List.map_flatMap]
  congr 1
  refine List.flatMap_congr fun c _ => ?_
  exact Heap.keys_properties c

/-- Under each name there is what the last Lang has that has the name. -/
theorem get?_ofList_entries (hn : h.AttrsNodup) (langs : List ContainerId) (x : String) :
    (OrderedMap.ofList (entries h langs)).get? x =
      langs.reverse.findSome? fun c => (h.properties c).get? x := by
  induction langs using List.reverseRecOn with
  | nil => rfl
  | append_singleton langs c ih =>
    have hkeys : (h.properties c).keys.Nodup := by simpa using hn c
    have hlast : entries h (langs ++ [c]) = entries h langs ++ (h.properties c).entries := by
      simp [entries]
    rw [hlast, OrderedMap.get?_ofList_append, OrderedMap.ofList_entries hkeys, ih,
      List.reverse_append, List.reverse_singleton, List.singleton_append, List.findSome?_cons]
    cases (h.properties c).get? x <;> rfl

end Bracketing
end Ditlang
