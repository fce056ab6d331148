import Ditlang.Proofs.Heap.Redefinition
import Ditlang.Proofs.Session.Reached

/-!
# Ditlang.Proofs.Session.LangMerging

Langs that are defined more than once, in the stores that a session can reach.

* `redefinitions_keep_order`: Langs of one priority and without aliases can be merged in any
  bracketing of their order. The result has that priority, the names in the order in which they came
  first, and under each name what the last Lang has that has the name.
* `merged_lang_answers_iff`: a merged Lang shares nothing with the two it is made of, and answers for
  a name as it should exactly when one of them has the answer as an attribute of its own, or none of
  them has one. Without aliases that is always so.
* `imported_property_lost`: a property that is imported into the body of a Lang is lost when the Lang
  is defined again.

All who ask a Lang for a property look among its attributes and then among its aliases, which an import
inside the Lang makes. Merging looks among the attributes only. So a merged Lang gives the answer that it
should give (`due`) exactly when one of the two has that answer as an attribute of its own
(`answer_mergeLangs_iff`); a property that is there by an alias gets lost, or gives way to one that should
not have won.
-/

namespace Ditlang

/-! ## What a Lang answers -/

namespace Heap

variable {h : Heap} {left right : ContainerId} {x : String}

/-- The type and the value that are found under a name in a container. -/
def answer (h : Heap) (c : ContainerId) (x : String) : Option (Declared × Value) :=
  (h.findLocal? c x).map fun s => ((h.slot s).declared, (h.slot s).value)

/-- The first of two Langs has the higher priority. -/
def Outranks (h : Heap) (left right : ContainerId) : Prop :=
  (h.priority right).orderKey < (h.priority left).orderKey

instance (h : Heap) (left right : ContainerId) : Decidable (h.Outranks left right) :=
  inferInstanceAs (Decidable (_ < _))

/-- What two Langs merged should answer: what the one answers that knows the name, and if both know
it, what the first answers if it has the higher priority and else what the second answers. -/
def due (h : Heap) (left right : ContainerId) (x : String) : Option (Declared × Value) :=
  match h.answer left x, h.answer right x with
  | some a, some b => some (if h.Outranks left right then a else b)
  | some a, none => some a
  | none, b => b

theorem due_eq_none_iff :
    h.due left right x = none ↔ h.answer left x = none ∧ h.answer right x = none := by
  unfold due
  cases h.answer left x <;> cases h.answer right x <;> simp

theorem priority_le_iff (hl : (h.priority left).isNaN = false)
    (hr : (h.priority right).isNaN = false) :
    (h.priority left).le (h.priority right) = true ↔ ¬ h.Outranks left right := by
  simp [Number.le, hl, hr, Outranks]

/-- What a container has as an attribute of its own. -/
def ownAnswer (h : Heap) (c : ContainerId) (x : String) : Option (Declared × Value) :=
  ((h.container c).attrs.get? x).map fun s => ((h.slot s).declared, (h.slot s).value)

theorem answer_of_ownAnswer {c : ContainerId} {a : Declared × Value}
    (ha : h.ownAnswer c x = some a) : h.answer c x = some a := by
  unfold ownAnswer at ha
  unfold answer findLocal? Container.find?
  cases hs : (h.container c).attrs.get? x with
  | none => simp [hs] at ha
  | some s => simpa [hs] using ha

theorem answer_of_no_aliases {c : ContainerId} (hc : (h.container c).aliases = .empty) :
    h.answer c x = h.ownAnswer c x := by
  unfold answer ownAnswer findLocal? Container.find?
  rw [hc, OrderedMap.get?_empty, Option.or_none]

/-- A merged Lang answers from what the two have as attributes of their own. -/
theorem answer_mergeLangs (hc : h.Closed) (hl : (h.priority left).isNaN = false)
    (hr : (h.priority right).isNaN = false) :
    (h.mergeLangs left right).2.answer (h.mergeLangs left right).1 x =
      match h.ownAnswer left x, h.ownAnswer right x with
      | some a, some b => some (if h.Outranks left right then a else b)
      | some a, none => some a
      | none, b => b := by
  have hmade := container_mergeLangs (h := h) left right
  rw [answer_of_no_aliases (by rw [hmade])]
  have hx := (merged_mergeLangs hc left right).property x
  unfold ownAnswer
  cases hl' : (h.container left).attrs.get? x <;>
    cases hr' : (h.container right).attrs.get? x <;> simp only [hl', hr'] at hx
  · simp [hx]
  · obtain ⟨t, ht, -, hcopy⟩ := hx
    simp [ht, hcopy]
  · obtain ⟨t, ht, -, hcopy⟩ := hx
    simp [ht, hcopy]
  · obtain ⟨t, ht, -, hcopy⟩ := hx
    by_cases hrank : h.Outranks left right
    · have hle : (h.priority left).le (h.priority right) = false := by
        rw [← Bool.not_eq_true, priority_le_iff hl hr, not_not]
        exact hrank
      simp [ht, hcopy, hle, hrank]
    · have hle := (priority_le_iff hl hr).2 hrank
      simp [ht, hcopy, hle, hrank]

/-- A merged Lang answers as it should when none of the two should answer, or one of them has what
should be answered as an attribute of its own, and only then. -/
theorem answer_mergeLangs_iff (hc : h.Closed) (hl : (h.priority left).isNaN = false)
    (hr : (h.priority right).isNaN = false) :
    (h.mergeLangs left right).2.answer (h.mergeLangs left right).1 x = h.due left right x ↔
      h.due left right x = none ∨ h.ownAnswer left x = h.due left right x ∨
        h.ownAnswer right x = h.due left right x := by
  rw [answer_mergeLangs hc hl hr]
  cases hol : h.ownAnswer left x with
  | none =>
    cases hor : h.ownAnswer right x with
    | none => simp [eq_comm]
    | some b =>
      have hdue : h.due left right x ≠ none := by
        simp [due_eq_none_iff, answer_of_ownAnswer hor]
      simp [hdue, hdue.symm]
  | some a =>
    have hdue : h.due left right x ≠ none := by
      simp [due_eq_none_iff, answer_of_ownAnswer hol]
    cases hor : h.ownAnswer right x with
    | none => simp [hdue, hdue.symm]
    | some b =>
      by_cases hrank : h.Outranks left right <;>
        simp [due, answer_of_ownAnswer hol, answer_of_ownAnswer hor, hrank]

end Heap

/-! ## Sessions -/

open Heap

theorem redefinitions_keep_order {h : Heap} (hr : h.Reachable) (p : Number) :
    (∀ a b c, h.PlainLang p a → h.PlainLang p b → h.PlainLang p c →
      ∀ ab h₁ left h₂ bc g₁ right g₂,
        h.mergeLangs a b = (ab, h₁) → h₁.mergeLangs ab c = (left, h₂) →
        h.mergeLangs b c = (bc, g₁) → g₁.mergeLangs a bc = (right, g₂) →
        h₂.properties left = g₂.properties right ∧
          (h₂.priority left).same p = true ∧ (g₂.priority right).same p = true) ∧
    ∀ t : Bracketing, (∀ c ∈ t.langs, h.PlainLang p c) → ∀ m h', t.mergeIn h = (m, h') →
      (h'.priority m).same p = true ∧
      (h'.properties m).keys = (t.langs.flatMap fun c => (h.container c).attrs.keys).eraseDups ∧
      (∀ x, (h'.properties m).get? x =
        t.langs.reverse.findSome? fun c => (h.properties c).get? x) ∧
      ∀ t' : Bracketing, t'.langs = t.langs → ∀ m' g, t'.mergeIn h = (m', g) →
        g.properties m' = h'.properties m := by
  have hmerges : ∀ t : Bracketing, (∀ c ∈ t.langs, h.PlainLang p c) →
      ∀ m h', t.mergeIn h = (m, h') → Bracketing.Result h p t.langs m h' := by
    intro t ht m h' hm
    have hres := t.merges hr.closed hr.attrsNodup ht
    rw [hm] at hres
    exact hres
  constructor
  · intro a b c ha hb hc ab h₁ left h₂ bc g₁ right g₂ hab hleft hbc hright
    have hall : ∀ d ∈ [a, b, c], h.PlainLang p d := by
      intro d hd
      simp only [List.mem_cons, List.not_mem_nil, or_false] at hd
      rcases hd with rfl | rfl | rfl
      · exact ha
      · exact hb
      · exact hc
    have hl := hmerges (.merge (.merge (.lang a) (.lang b)) (.lang c)) hall left h₂
      (by simp only [Bracketing.mergeIn, hab, hleft])
    have hr := hmerges (.merge (.lang a) (.merge (.lang b) (.lang c))) hall right g₂
      (by simp only [Bracketing.mergeIn, hbc, hright])
    exact ⟨hl.properties.trans hr.properties.symm, hl.plain.priority, hr.plain.priority⟩
  · intro t ht m h' hm
    have hres := hmerges t ht m h' hm
    refine ⟨hres.plain.priority, ?_, fun x => ?_, fun t' ht' m' g hm' => ?_⟩
    · rw [hres.properties, Bracketing.keys_ofList_entries]
    · rw [hres.properties, Bracketing.get?_ofList_entries hr.attrsNodup]
    · have hres' := hmerges t' (fun c hc => ht c (ht' ▸ hc)) m' g hm'
      rw [hres'.properties, hres.properties, ht']

/-- Three Langs of priority 2; the first and the last have a property `x`. -/
def threeLangsProgram : String :=
  "lang A \x7b Num priority = 2; Str x = \"a\"; Str y = \"b\"; \x7d " ++
    "lang B \x7b Num priority = 2; Str z = \"c\"; \x7d " ++
    "lang C \x7b Num priority = 2; Str x = \"d\"; \x7d"

theorem redefinitions_keep_order_of_three_langs :
    ∃ (s : Session) (m : ContainerId) (h' : Heap),
      Session.bare.evalSource threeLangsProgram = some (.ok (), s) ∧
      (Bracketing.merge (.lang ⟨8⟩) (.merge (.lang ⟨9⟩) (.lang ⟨10⟩))).mergeIn s.heap = (m, h') ∧
      (h'.properties m).keys = ["priority", "x", "y", "z"] ∧
      ((h'.properties m).get? "x").map Slot.value = some (.str "d") ∧
      (h'.priority m).same (.ofInt 2) = true := by
  let langs : List ContainerId := [⟨8⟩, ⟨9⟩, ⟨10⟩]
  obtain ⟨s, hrun, hs, hp⟩ := Session.exists_reached threeLangsProgram
    (p := fun s => decide ((∀ c ∈ langs, (s.heap.container c).kind.valueKind? = some .lang ∧
        (s.heap.container c).aliases.entries.isEmpty = true ∧
        (s.heap.priority c).same (.ofInt 2) = true) ∧
      (langs.flatMap fun c => (s.heap.container c).attrs.keys).eraseDups =
        ["priority", "x", "y", "z"] ∧
      (langs.reverse.findSome? fun c => (s.heap.properties c).get? "x").map Slot.value =
        some (.str "d")))
    (by decide +kernel)
  obtain ⟨hlangs, hkeys, hx⟩ := of_decide_eq_true hp
  obtain ⟨⟨m, h'⟩, hm⟩ : ∃ r,
      (Bracketing.merge (.lang ⟨8⟩) (.merge (.lang ⟨9⟩) (.lang ⟨10⟩))).mergeIn s.heap = r := ⟨_, rfl⟩
  obtain ⟨hprio, hnames, hget, -⟩ := (redefinitions_keep_order hs.sound.heap (.ofInt 2)).2 _
    (fun c hc => by
      obtain ⟨hkind, haliases, hpriority⟩ := hlangs c hc
      exact ⟨hkind, congrArg OrderedMap.mk (List.isEmpty_iff.1 haliases), hpriority⟩) m h' hm
  refine ⟨s, m, h', hrun, hm, hnames.trans hkeys, ?_, hprio⟩
  rw [hget "x"]
  exact hx

theorem merged_lang_answers_iff {h h' : Heap} (hr : h.Reachable) {left right m : ContainerId}
    (hleft : h.IsKind .lang left) (hright : h.IsKind .lang right)
    (hl : (h.priority left).isNaN = false) (hr' : (h.priority right).isNaN = false)
    (hm : h.mergeLangs left right = (m, h')) :
    (h.OnlyAdds h' ∧ h'.container left = h.container left ∧
      h'.container right = h.container right ∧
      ∀ x s, h'.findLocal? m x = some s → ¬ h.HasSlot s) ∧
    (∀ x, h'.answer m x = h.due left right x ↔ h.due left right x = none ∨
      h.ownAnswer left x = h.due left right x ∨ h.ownAnswer right x = h.due left right x) ∧
    ((h.container left).aliases = .empty → (h.container right).aliases = .empty →
      ∀ x, h'.answer m x = h.due left right x) := by
  have hext : h.OnlyAdds (h.mergeLangs left right).2 := .mergeLangs left right
  have hmade := container_mergeLangs (h := h) left right
  have hmerged := merged_mergeLangs hr.closed left right
  have hadds := adds_mergeLangs (h := h) left right
  have hiff := fun x => answer_mergeLangs_iff (x := x) hr.closed hl hr'
  have hanswer := fun x => answer_mergeLangs (x := x) hr.closed hl hr'
  rw [hm] at hext hmade hmerged hadds hiff hanswer
  dsimp only at hext hmade hmerged hadds hiff hanswer
  refine ⟨⟨hext, hext.container left hleft.lt_size, hext.container right hright.lt_size, ?_⟩,
    hiff, fun hal har x => ?_⟩
  · intro x s hs
    have haliases : (h'.container m).aliases = .empty := by rw [hmade]
    rw [findLocal?, Container.find?, haliases, OrderedMap.get?_empty, Option.or_none] at hs
    rcases hadds m x s hs with hold | ⟨-, hnew⟩
    · -- there was no container in the place of the merged one
      rw [container_of_size_le hmerged.new] at hold
      cases hold
    · exact Nat.not_lt.2 hnew
  · rw [hanswer, ← answer_of_no_aliases hal, ← answer_of_no_aliases har]
    rfl

theorem merged_lang_answers_iff_for_two_langs :
    ∃ (s : Session) (m : ContainerId) (h' : Heap),
      Session.bare.evalSource threeLangsProgram = some (.ok (), s) ∧
      s.heap.mergeLangs ⟨8⟩ ⟨10⟩ = (m, h') ∧
      (h'.answer m "x").map Prod.snd = some (.str "d") ∧
      (h'.answer m "y").map Prod.snd = some (.str "b") ∧ h'.answer m "z" = none := by
  obtain ⟨s, hrun, hs, hp⟩ := Session.exists_reached threeLangsProgram
    (p := fun s => decide (
      (s.heap.container ⟨8⟩).kind.valueKind? = some .lang ∧
      (s.heap.container ⟨10⟩).kind.valueKind? = some .lang ∧
      (s.heap.priority ⟨8⟩).isNaN = false ∧ (s.heap.priority ⟨10⟩).isNaN = false ∧
      (s.heap.container ⟨8⟩).aliases.entries.isEmpty = true ∧
      (s.heap.container ⟨10⟩).aliases.entries.isEmpty = true ∧
      (s.heap.due ⟨8⟩ ⟨10⟩ "x").map Prod.snd = some (.str "d") ∧
      (s.heap.due ⟨8⟩ ⟨10⟩ "y").map Prod.snd = some (.str "b") ∧
      s.heap.due ⟨8⟩ ⟨10⟩ "z" = none))
    (by decide +kernel)
  obtain ⟨hkl, hkr, hnl, hnr, hal, har, hx, hy, hz⟩ := of_decide_eq_true hp
  obtain ⟨⟨m, h'⟩, hm⟩ : ∃ r, s.heap.mergeLangs ⟨8⟩ ⟨10⟩ = r := ⟨_, rfl⟩
  have hanswer := (merged_lang_answers_iff hs.sound.heap hkl hkr hnl hnr hm).2.2
    (congrArg OrderedMap.mk (List.isEmpty_iff.1 hal))
    (congrArg OrderedMap.mk (List.isEmpty_iff.1 har))
  refine ⟨s, m, h', hrun, hm, ?_, ?_, ?_⟩
  · rw [hanswer, hx]
  · rw [hanswer, hy]
  · rw [hanswer, hz]

/-- A session with a file that can be imported. -/
def importingSession : Session :=
  .start "main.dit" "/tmp" none
    { files := (Host.FileTree.startingIn []).set ["p.dit"]
        (.file (Text.bytes "Str file_extension = \"x\";")), commands := [] }

/-- A Lang that answers for a property which its body imports, and does so no longer when it is
defined again. -/
theorem imported_property_lost :
    ∃ s s' : Session,
      importingSession.evalSource "lang L \x7b import \"p.dit\"; \x7d" = some (.ok (), s) ∧
      s.evalSource "lang L \x7b Num n = 1; \x7d" = some (.ok (), s') ∧ s'.Reached ∧
      (s.heap.findLocal? s.main "L").map s.heap.value = some (.langRef ⟨8⟩) ∧
      (s.heap.answer ⟨8⟩ "file_extension").map Prod.snd = some (.str "x") ∧
      (s'.heap.findLocal? s'.main "L").map s'.heap.value = some (.langRef ⟨11⟩) ∧
      s'.heap.answer ⟨11⟩ "file_extension" = none ∧
      s'.heap.IsKind .lang ⟨8⟩ ∧ s'.heap.IsKind .lang ⟨10⟩ ∧
      (s'.heap.priority ⟨8⟩).isNaN = false ∧ (s'.heap.priority ⟨10⟩).isNaN = false ∧
      (s'.heap.mergeLangs ⟨8⟩ ⟨10⟩).2.answer (s'.heap.mergeLangs ⟨8⟩ ⟨10⟩).1 "file_extension" ≠
        s'.heap.due ⟨8⟩ ⟨10⟩ "file_extension" := by
  obtain ⟨s, hrun, hp⟩ := importingSession.exists_ok "lang L \x7b import \"p.dit\"; \x7d"
    (fun s => decide (
        (s.heap.findLocal? s.main "L").map s.heap.value = some (.langRef ⟨8⟩) ∧
        (s.heap.answer ⟨8⟩ "file_extension").map Prod.snd = some (.str "x")) &&
      (s.evalSource "lang L \x7b Num n = 1; \x7d").any fun (r : _ × Session) =>
        r.1.isOk && decide (
          (r.2.heap.findLocal? r.2.main "L").map r.2.heap.value = some (.langRef ⟨11⟩) ∧
          r.2.heap.answer ⟨11⟩ "file_extension" = none ∧
          (r.2.heap.container ⟨8⟩).kind.valueKind? = some .lang ∧
          (r.2.heap.container ⟨10⟩).kind.valueKind? = some .lang ∧
          (r.2.heap.priority ⟨8⟩).isNaN = false ∧ (r.2.heap.priority ⟨10⟩).isNaN = false ∧
          (r.2.heap.mergeLangs ⟨8⟩ ⟨10⟩).2.answer (r.2.heap.mergeLangs ⟨8⟩ ⟨10⟩).1
            "file_extension" ≠ r.2.heap.due ⟨8⟩ ⟨10⟩ "file_extension"))
    (by decide +kernel)
  obtain ⟨hbefore, hafter⟩ := Bool.and_eq_true_iff.1 hp
  obtain ⟨hval, hans⟩ := of_decide_eq_true hbefore
  obtain ⟨⟨result, s'⟩, hrun', hand⟩ := (Option.any_eq_true _ _).1 hafter
  obtain ⟨hok, hp'⟩ := Bool.and_eq_true_iff.1 hand
  cases result with
  | error e => cases hok
  | ok =>
    have hreached : s'.Reached :=
      (Session.Reached.evalSource (.start _ _ _ _) hrun).evalSource hrun'
    have hlost := of_decide_eq_true hp'
    exact ⟨s, s', hrun, hrun', hreached, hval, hans, hlost⟩

end Ditlang
