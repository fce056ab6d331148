import Ditlang.Proofs.Heap.Walk

/-!
# Ditlang.Proofs.Heap.Definers

What an ancestry lists, said of the class graph alone.

* `Enumerates`: the classes in the order in which a recursion over the parents comes to them, with
  repetitions. The order of an ancestry is this list with every class at its first place.
* `Definer`: a class that owns a name and is reached by a path of parents on which no earlier class
  owns it. These are the classes that an ancestry has under the name, each once.

Both are shown of `plainAncestry` by induction on the generations, and hold of `ancestry` in every
lineal heap.
-/

namespace Ditlang

/-! ## Lists without repetition -/

section Union

variable {α : Type} [BEq α]

theorem union_append (xs ys zs : List α) : union xs (ys ++ zs) = union (union xs ys) zs :=
  List.foldl_append

theorem union_singleton (xs : List α) (x : α) : union xs [x] = addNew xs x := rfl

@[simp] theorem union_nil (xs : List α) : union xs [] = xs := rfl

variable [LawfulBEq α]

theorem addNew_of_mem {xs : List α} {x : α} (hx : x ∈ xs) : addNew xs x = xs :=
  if_pos (List.contains_iff_mem.2 hx)

theorem addNew_of_not_mem {xs : List α} {x : α} (hx : x ∉ xs) : addNew xs x = xs ++ [x] :=
  if_neg fun h => hx (List.contains_iff_mem.1 h)

theorem eraseDups_concat (xs : List α) (x : α) :
    (xs ++ [x]).eraseDups = addNew xs.eraseDups x := by
  rw [List.eraseDups_append]
  by_cases hx : x ∈ xs
  · rw [addNew_of_mem (List.mem_eraseDups.2 hx)]
    simp [List.removeAll, hx]
  · rw [addNew_of_not_mem fun h => hx (List.mem_eraseDups.1 h)]
    simp [List.removeAll, hx, List.eraseDups_cons]

/-- Adding what is new, starting from nothing, keeps first occurrences. -/
theorem union_nil_left (xs : List α) : union [] xs = xs.eraseDups := by
  induction xs using List.reverseRecOn with
  | nil => rfl
  | append_singleton xs x ih => rw [union_append, ih, union_singleton, eraseDups_concat]

theorem union_eraseDups (xs ys : List α) : union xs ys.eraseDups = union xs ys := by
  induction ys using List.reverseRecOn with
  | nil => rfl
  | append_singleton ys y ih =>
    rw [eraseDups_concat, union_append, union_singleton]
    by_cases hy : y ∈ ys
    · have hmem : y ∈ union xs ys := mem_union.2 (.inr hy)
      rw [addNew_of_mem (List.mem_eraseDups.2 hy), ih, addNew_of_mem hmem]
    · rw [addNew_of_not_mem fun h => hy (List.mem_eraseDups.1 h), union_append, ih,
        union_singleton]

end Union

/-! ## Tables of definers -/

namespace OrderedMap

variable {α : Type}

theorem contains_iff_mem_keys {m : OrderedMap α} {key : String} :
    m.contains key = true ↔ key ∈ m.keys := by
  unfold contains get? keys
  rw [List.lookup_isSome_iff]
  simp

theorem nodup_keys_insert {m : OrderedMap α} (hm : m.keys.Nodup) (key : String) (value : α) :
    (m.insert key value).keys.Nodup := by
  rw [keys_insert]
  split
  · exact hm
  · rename_i hk
    rw [← List.concat_eq_append]
    exact hm.concat hk

theorem get?_of_mem {m : OrderedMap α} (hm : m.keys.Nodup) {key : String} {value : α}
    (he : (key, value) ∈ m.entries) : m.get? key = some value := by
  unfold keys at hm
  unfold get?
  generalize m.entries = es at hm he
  induction es with
  | nil => cases he
  | cons e es ih =>
    obtain ⟨k, v⟩ := e
    simp only [List.map_cons, List.nodup_cons] at hm
    rcases List.mem_cons.1 he with heq | he
    · cases heq
      simp
    · have hne : key ≠ k := fun h => hm.1 (h ▸ List.mem_map_of_mem he)
      rw [List.lookup_cons, beq_eq_false_iff_ne.2 hne]
      exact ih hm.2 he

theorem mem_entries_iff {m : OrderedMap α} (hm : m.keys.Nodup) {key : String} {value : α} :
    (key, value) ∈ m.entries ↔ m.get? key = some value := by
  constructor
  · exact get?_of_mem hm
  · intro hg
    obtain ⟨before, after, he, -⟩ := List.lookup_eq_some_iff.1 hg
    rw [he]
    exact List.mem_append_right _ List.mem_cons_self

theorem ofList_concat (es : List (String × α)) (key : String) (value : α) :
    ofList (es ++ [(key, value)]) = (ofList es).insert key value := by
  simp [ofList, List.foldl_append]

end OrderedMap

/-- The classes a table has under a name. -/
def OrderedMap.definersOf (t : OrderedMap (List ContainerId)) (x : String) : List ContainerId :=
  (t.get? x).getD []

/-- A table that has every name once, and under each name some classes, each once. -/
structure OrderedMap.Proper (t : OrderedMap (List ContainerId)) : Prop where
  keys : t.keys.Nodup
  ne_nil : ∀ x ds, t.get? x = some ds → ds ≠ []
  nodup : ∀ x ds, t.get? x = some ds → ds.Nodup

namespace OrderedMap

variable {t : OrderedMap (List ContainerId)} {x : String}

theorem Proper.nodup_definersOf (ht : t.Proper) : (t.definersOf x).Nodup := by
  unfold definersOf
  cases hx : t.get? x with
  | none => exact List.nodup_nil
  | some ds => exact ht.nodup x ds hx

theorem Proper.contains_iff (ht : t.Proper) : t.contains x = true ↔ t.definersOf x ≠ [] := by
  unfold contains definersOf
  cases hx : t.get? x with
  | none => simp
  | some ds => simpa using ht.ne_nil x ds hx

theorem proper_empty : (empty : OrderedMap (List ContainerId)).Proper :=
  ⟨List.nodup_nil, fun _ _ h => (nomatch h), fun _ _ h => (nomatch h)⟩

theorem definersOf_addDefiners (name : String) (defs : List ContainerId) :
    (Ancestry.addDefiners t name defs).definersOf x =
      if x = name then union (t.definersOf x) defs else t.definersOf x := by
  unfold definersOf Ancestry.addDefiners
  rw [get?_insert]
  split
  · rename_i hx
    rw [hx]
    rfl
  · rfl

theorem union_ne_nil {xs ys : List ContainerId} (hys : ys ≠ []) : union xs ys ≠ [] := by
  obtain ⟨y, hy⟩ := List.exists_mem_of_ne_nil ys hys
  exact List.ne_nil_of_mem (mem_union.2 (.inr hy))

theorem Proper.addDefiners (ht : t.Proper) {name : String} {defs : List ContainerId}
    (hd : defs ≠ []) : (Ancestry.addDefiners t name defs).Proper := by
  refine ⟨nodup_keys_insert ht.keys _ _, ?_, ?_⟩ <;> intro y ds hy <;>
    rw [Ancestry.addDefiners, get?_insert] at hy <;> split at hy
  · cases hy
    exact union_ne_nil hd
  · exact ht.ne_nil y ds hy
  · cases hy
    exact nodup_union defs ht.nodup_definersOf
  · exact ht.nodup y ds hy

/-- The definers of a second table added to a first one, except those of hidden names. -/
def addAll (hidden : String → Bool) (t t' : OrderedMap (List ContainerId)) :
    OrderedMap (List ContainerId) :=
  t'.entries.foldl
    (fun table (name, defs) =>
      if hidden name then table else Ancestry.addDefiners table name defs) t

theorem Proper.addAll {hidden : String → Bool} {t' : OrderedMap (List ContainerId)}
    (ht : t.Proper) (ht' : t'.Proper) : (addAll hidden t t').Proper := by
  have hne : ∀ e ∈ t'.entries, e.2 ≠ [] := fun e he => ht'.ne_nil e.1 e.2 (get?_of_mem ht'.keys he)
  unfold OrderedMap.addAll
  generalize t'.entries = es at hne
  induction es generalizing t with
  | nil => exact ht
  | cons e es ih =>
    obtain ⟨name, defs⟩ := e
    rw [List.foldl_cons]
    refine ih ?_ fun d hd => hne d (List.mem_cons_of_mem _ hd)
    dsimp only
    split
    · exact ht
    · exact ht.addDefiners (hne (name, defs) List.mem_cons_self)

theorem definersOf_addAll {hidden : String → Bool} {t' : OrderedMap (List ContainerId)}
    (ht' : t'.keys.Nodup) :
    (addAll hidden t t').definersOf x =
      if hidden x then t.definersOf x else union (t.definersOf x) (t'.definersOf x) := by
  unfold keys at ht'
  rw [addAll, show t'.definersOf x = (t'.entries.lookup x).getD [] from rfl]
  generalize t'.entries = es at ht'
  induction es generalizing t with
  | nil => simp
  | cons e es ih =>
    obtain ⟨name, defs⟩ := e
    simp only [List.map_cons, List.nodup_cons] at ht'
    rw [List.foldl_cons, ih ht'.2, List.lookup_cons]
    by_cases hx : x = name
    · subst hx
      -- the name does not come again
      have hlast : es.lookup x = none := by
        rw [List.lookup_eq_none_iff]
        intro e he
        have hne : x ≠ e.1 := fun h => ht'.1 (h ▸ List.mem_map_of_mem he)
        simp [hne]
      cases hh : hidden x <;> simp [hlast, hh, definersOf_addDefiners]
    · rw [beq_eq_false_iff_ne.2 hx]
      cases hh : hidden name <;> simp [hh, definersOf_addDefiners, hx]

theorem definersOf_ofList (c : ContainerId) (names : List String) :
    (ofList (names.map fun name => (name, [c]))).definersOf x = if x ∈ names then [c] else [] := by
  induction names using List.reverseRecOn with
  | nil => rfl
  | append_singleton names name ih =>
    rw [List.map_append, List.map_cons, List.map_nil, ofList_concat]
    unfold definersOf at ih ⊢
    rw [get?_insert]
    by_cases hx : x = name
    · simp [hx]
    · simpa [hx] using ih

theorem proper_ofList (c : ContainerId) (names : List String) :
    (ofList (names.map fun name => (name, [c]))).Proper := by
  induction names using List.reverseRecOn with
  | nil => exact proper_empty
  | append_singleton names name ih =>
    rw [List.map_append, List.map_cons, List.map_nil, ofList_concat]
    refine ⟨nodup_keys_insert ih.keys _ _, ?_, ?_⟩ <;> intro y ds hy <;>
      rw [get?_insert] at hy <;> split at hy
    · cases hy
      exact List.cons_ne_nil _ _
    · exact ih.ne_nil y ds hy
    · cases hy
      exact List.nodup_singleton c
    · exact ih.nodup y ds hy

end OrderedMap

namespace Heap

variable {h : Heap}

/-! ## The order of an ancestry -/

/-- `l` is what a recursion over the parents comes to from each of `cs` in turn: the class itself, and
then what it comes to from the parents of that class. -/
inductive Enumerates (h : Heap) : List ContainerId → List ContainerId → Prop where
  | nil : Enumerates h [] []
  | cons {c : ContainerId} {cs up rest : List ContainerId} :
      Enumerates h (h.parents c) up → Enumerates h cs rest →
      Enumerates h (c :: cs) (c :: (up ++ rest))

theorem order_foldl_inherit (hidden : String → Bool) (as : List Ancestry) (a : Ancestry) :
    (as.foldl (Ancestry.inherit hidden) a).order = union a.order (as.flatMap (·.order)) := by
  induction as generalizing a with
  | nil => rfl
  | cons b as ih => rw [List.foldl_cons, ih, List.flatMap_cons, union_append]; rfl

/-- What the parents list is what the recursion comes to, up to repetition. -/
theorem enumerates_parents {n : Nat} {ps : List ContainerId}
    (ih : ∀ p ∈ ps, ∃ l, h.Enumerates [p] l ∧ (h.plainAncestry n p).order = l.eraseDups) :
    ∃ up, h.Enumerates ps up ∧
      ∀ xs, union xs ((ps.map (h.plainAncestry n)).flatMap (·.order)) = union xs up := by
  induction ps with
  | nil => exact ⟨[], .nil, fun _ => rfl⟩
  | cons p ps ihps =>
    obtain ⟨l, hl, ho⟩ := ih p List.mem_cons_self
    obtain ⟨rest, hrest, hunion⟩ := ihps fun q hq => ih q (List.mem_cons_of_mem _ hq)
    cases hl with
    | @cons _ _ up _ hup hnil =>
      cases hnil
      refine ⟨_, .cons hup hrest, fun xs => ?_⟩
      rw [List.map_cons, List.flatMap_cons, union_append, hunion, ho, union_eraseDups,
        List.append_nil, ← union_append]
      rfl

theorem order_plainAncestry {n : Nat} {c : ContainerId} (hs : h.Shallow n c) :
    ∃ l, h.Enumerates [c] l ∧ (h.plainAncestry n c).order = l.eraseDups := by
  induction n generalizing c with
  | zero => exact hs.elim
  | succ n ih =>
    obtain ⟨up, hup, hunion⟩ := enumerates_parents fun p hp => ih (hs p hp)
    refine ⟨_, .cons hup .nil, ?_⟩
    rw [plainAncestry, combineAncestry, order_foldl_inherit, List.append_nil, hunion,
      ← union_nil_left]
    rfl

theorem nodup_order_plainAncestry (n : Nat) (c : ContainerId) :
    (h.plainAncestry n c).order.Nodup := by
  cases n with
  | zero => exact List.nodup_nil
  | succ n =>
    rw [plainAncestry, combineAncestry, order_foldl_inherit]
    exact nodup_union _ (List.nodup_singleton c)

/-! ## The definers of a name -/

def Owns (h : Heap) (c : ContainerId) (x : String) : Prop :=
  (h.container c).attrs.contains x = true

instance (h : Heap) (c : ContainerId) (x : String) : Decidable (h.Owns c x) :=
  inferInstanceAs (Decidable (_ = true))

/-- `d` owns `x` and is reached from `c` by a path of parents on which no earlier class owns `x`. -/
inductive Definer (h : Heap) (x : String) : ContainerId → ContainerId → Prop where
  | own {c : ContainerId} : h.Owns c x → Definer h x c c
  | up {c p d : ContainerId} : ¬ h.Owns c x → p ∈ h.parents c → Definer h x p d → Definer h x c d

/-- `d` defines `x` for one of the classes `ps`. -/
def DefinerVia (h : Heap) (x : String) (ps : List ContainerId) (d : ContainerId) : Prop :=
  ∃ p ∈ ps, h.Definer x p d

namespace Definer

variable {x : String} {c d : ContainerId}

theorem owns (hd : h.Definer x c d) : h.Owns d x := by
  induction hd with
  | own ho => exact ho
  | up _ _ _ ih => exact ih

theorem subclass (hd : h.Definer x c d) : h.Subclass c d := by
  induction hd with
  | own => exact .refl
  | up _ hp _ ih => exact .head hp ih

theorem eq_of_owns (hd : h.Definer x c d) (hc : h.Owns c x) : d = c := by
  cases hd with
  | own => rfl
  | up hn => exact absurd hc hn

theorem iff_of_not_owns (hc : ¬ h.Owns c x) :
    h.Definer x c d ↔ h.DefinerVia x (h.parents c) d := by
  constructor
  · intro hd
    cases hd with
    | own ho => exact absurd ho hc
    | up _ hp hd => exact ⟨_, hp, hd⟩
  · rintro ⟨p, hp, hd⟩
    exact .up hc hp hd

/-- Who defines a name for a class depends on what its ancestors own and extend. -/
theorem congr {h' : Heap} (hsame : ∀ e, h.Subclass c e →
    (h'.Owns e x ↔ h.Owns e x) ∧ h'.parents e = h.parents e) :
    h'.Definer x c d ↔ h.Definer x c d := by
  constructor
  · intro hd
    induction hd with
    | own ho => exact .own ((hsame _ .refl).1.1 ho)
    | up hn hp _ ih =>
      obtain ⟨howns, hpar⟩ := hsame _ .refl
      rw [hpar] at hp
      exact .up (fun ho => hn (howns.2 ho)) hp (ih fun e he => hsame e (.head hp he))
  · intro hd
    induction hd with
    | own ho => exact .own ((hsame _ .refl).1.2 ho)
    | up hn hp _ ih =>
      obtain ⟨howns, hpar⟩ := hsame _ .refl
      exact .up (fun ho => hn (howns.1 ho)) (hpar ▸ hp) (ih fun e he => hsame e (.head hp he))

end Definer

/-- The definers in an ancestry put together from others: of an own name the class, of any other one
those of the others. -/
theorem definers_combineAncestry {c : ContainerId} {as : List Ancestry}
    (has : ∀ a ∈ as, a.definers.Proper) :
    (h.combineAncestry c as).definers.Proper ∧
    ∀ x, (h.combineAncestry c as).definers.definersOf x =
      if (h.container c).attrs.contains x then [c]
      else union [] (as.flatMap (·.definers.definersOf x)) := by
  have hfold : ∀ (as : List Ancestry) (a : Ancestry), (∀ b ∈ as, b.definers.Proper) →
      a.definers.Proper →
      let all := as.foldl (Ancestry.inherit (h.container c).attrs.contains) a
      all.definers.Proper ∧ ∀ x, all.definers.definersOf x =
        if (h.container c).attrs.contains x then a.definers.definersOf x
        else union (a.definers.definersOf x) (as.flatMap (·.definers.definersOf x)) := by
    intro as
    induction as with
    | nil =>
      intro a _ ha
      exact ⟨ha, fun x => by simp⟩
    | cons b as ih =>
      intro a has ha
      have hb := has b List.mem_cons_self
      obtain ⟨hp, hx⟩ := ih (Ancestry.inherit (h.container c).attrs.contains a b)
        (fun d hd => has d (List.mem_cons_of_mem _ hd)) (ha.addAll hb)
      refine ⟨hp, fun x => (hx x).trans ?_⟩
      rw [show (Ancestry.inherit (h.container c).attrs.contains a b).definers.definersOf x = _ from
        OrderedMap.definersOf_addAll hb.keys, List.flatMap_cons, union_append]
      split <;> rfl
  obtain ⟨hp, hx⟩ := hfold as (.own c (h.container c).attrs.keys) has (OrderedMap.proper_ofList c _)
  refine ⟨hp, fun x => (hx x).trans ?_⟩
  have hown : (Ancestry.own c (h.container c).attrs.keys).definers.definersOf x = _ :=
    OrderedMap.definersOf_ofList c _
  rw [hown]
  by_cases ho : (h.container c).attrs.contains x = true
  · rw [if_pos ho, if_pos ho, if_pos (OrderedMap.contains_iff_mem_keys.1 ho)]
  · rw [if_neg ho, if_neg ho, if_neg fun hm => ho (OrderedMap.contains_iff_mem_keys.2 hm)]

theorem proper_plainAncestry (n : Nat) (c : ContainerId) :
    (h.plainAncestry n c).definers.Proper := by
  induction n generalizing c with
  | zero => exact OrderedMap.proper_empty
  | succ n ih =>
    rw [plainAncestry]
    refine (definers_combineAncestry fun a ha => ?_).1
    obtain ⟨p, -, rfl⟩ := List.mem_map.1 ha
    exact ih p

theorem mem_definers_plainAncestry {n : Nat} {c d : ContainerId} {x : String}
    (hs : h.Shallow n c) : d ∈ (h.plainAncestry n c).definers.definersOf x ↔ h.Definer x c d := by
  induction n generalizing c with
  | zero => exact hs.elim
  | succ n ih =>
    have hproper : ∀ a ∈ (h.parents c).map (h.plainAncestry n), a.definers.Proper := by
      intro a ha
      obtain ⟨p, -, rfl⟩ := List.mem_map.1 ha
      exact proper_plainAncestry n p
    rw [plainAncestry, (definers_combineAncestry hproper).2]
    change d ∈ (if h.Owns c x then [c] else _) ↔ _
    by_cases hc : h.Owns c x
    · rw [if_pos hc, List.mem_singleton]
      constructor
      · rintro rfl
        exact .own hc
      · intro hd
        exact hd.eq_of_owns hc
    · rw [if_neg hc, mem_union, Definer.iff_of_not_owns hc]
      simp only [List.not_mem_nil, false_or, List.mem_flatMap, List.mem_map, DefinerVia]
      constructor
      · rintro ⟨_, ⟨p, hp, rfl⟩, hd⟩
        exact ⟨p, hp, (ih (hs p hp)).1 hd⟩
      · rintro ⟨p, hp, hd⟩
        exact ⟨_, ⟨p, hp, rfl⟩, (ih (hs p hp)).2 hd⟩

namespace Lineal

variable {c d : ContainerId} {x : String}

theorem proper_definers (hl : h.Lineal) (hc : (h.container c).isClass = true) :
    (h.ancestry c).definers.Proper := by
  rw [hl.ancestry_eq hc]
  exact proper_plainAncestry _ c

theorem mem_definers_iff (hl : h.Lineal) (hc : (h.container c).isClass = true) :
    d ∈ (h.ancestry c).definers.definersOf x ↔ h.Definer x c d := by
  rw [hl.ancestry_eq hc]
  exact mem_definers_plainAncestry (shallow_of_acyclic hl.acyclic c)

end Lineal
end Heap
end Ditlang
