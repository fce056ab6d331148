import Ditlang.Guest.Loop
import Mathlib.Computability.Language

/-!
# Ditlang.Proofs.Guest.Conversation

What is said on one connection, and the order in which the protocol wants it.

* `protocol`: the language of whole conversations; `Disciplined` is said of the beginnings of its
  words.
* `Stepwise`: a condition on each item and the one before it. `disciplined_iff` turns the language
  into such a condition, which is checked where a conversation grows, at its end.
* `conversation`: the part of a talk that one connection hears.
-/

namespace Ditlang
namespace Guest

open Computability

/-- What the daemon writes to a worker. -/
def JobKind.isLine : JobKind → Bool
  | .callFunc | .ditlangCallback => true
  | _ => false

/-- What the daemon takes from a worker as the answer to a line. -/
def JobKind.isReply : JobKind → Bool
  | .exeDitlang | .finishFunc | .crash => true
  | _ => false

/-- The conversations of a worker: calls one after another, each with requests that are answered
and then with its end. -/
def protocol : Language JobKind :=
  ({[.callFunc]} * ({[.exeDitlang]} * {[.ditlangCallback]})∗ * ({[.finishFunc]} + {[.crash]}))∗

/-- The beginning of a conversation. -/
def Disciplined (w : List JobKind) : Prop :=
  ∃ v, w ++ v ∈ protocol

/-- The last item allows the next one in a conversation of the protocol. -/
def Permits : Option JobKind → JobKind → Bool
  | some .callFunc, x | some .ditlangCallback, x => x.isReply
  | some .exeDitlang, x => x == .ditlangCallback
  | _, x => x == .callFunc

/-- A line is followed by a reply, and nothing else is. -/
def Alternates (last : Option JobKind) (x : JobKind) : Bool :=
  if last.any JobKind.isLine then x.isReply else x.isLine

/-- Each item stands in a relation to the one before it. -/
def Stepwise (R : Option JobKind → JobKind → Bool) (w : List JobKind) : Prop :=
  ∀ u x v, w = u ++ x :: v → R u.getLast? x

/-! ## Growing at the end -/

/-- Where an item stands in a list that has grown by one: at the end, or where it stood before. -/
theorem concat_eq_append_cons_iff {α : Type} {w u v : List α} {a b : α} :
    w ++ [a] = u ++ b :: v ↔
      (v = [] ∧ w = u ∧ a = b) ∨ ∃ v', v = v' ++ [a] ∧ w = u ++ b :: v' := by
  rcases List.eq_nil_or_concat v with rfl | ⟨v', c, rfl⟩
  · simp
  · rw [List.concat_eq_append]
    constructor
    · intro h
      have happ : w ++ [a] = (u ++ b :: v') ++ [c] := by simpa using h
      obtain ⟨rfl, hac⟩ := List.append_inj' happ rfl
      cases hac
      exact .inr ⟨v', rfl, rfl⟩
    · rintro (⟨hnil, -⟩ | ⟨v'', hv, rfl⟩)
      · simp at hnil
      · rw [hv]
        simp

section Stepwise

variable {R : Option JobKind → JobKind → Bool} {w : List JobKind}

theorem stepwise_nil : Stepwise R [] := by
  intro u x v h
  simp at h

@[simp] theorem stepwise_concat {x : JobKind} :
    Stepwise R (w ++ [x]) ↔ Stepwise R w ∧ R w.getLast? x := by
  constructor
  · intro h
    refine ⟨?_, h w x [] rfl⟩
    rintro u y v rfl
    exact h u y (v ++ [x]) (by simp)
  · rintro ⟨hw, hx⟩ u y v he
    rcases concat_eq_append_cons_iff.1 he with ⟨-, rfl, rfl⟩ | ⟨v', -, rfl⟩
    · exact hx
    · exact hw u y v' rfl

theorem Stepwise.left {v : List JobKind} (h : Stepwise R (w ++ v)) : Stepwise R w := by
  rintro u x v' rfl
  exact h u x (v' ++ v) (by simp)

instance (R : Option JobKind → JobKind → Bool) (w : List JobKind) : Decidable (Stepwise R w) :=
  decidable_of_iff (∀ i : Fin w.length, R (w.take i).getLast? (w.get i) = true) <| by
    constructor
    · rintro h u x v rfl
      have := h ⟨u.length, by simp⟩
      simpa using this
    · intro h i
      refine h (w.take i) (w.get i) (w.drop (i + 1)) ?_
      rw [List.get_eq_getElem, ← List.drop_eq_getElem_cons, List.take_append_drop]

end Stepwise

/-- Where lines and replies alternate, the protocol is broken only by a call that meets an open
request and by an answer that meets none. -/
theorem permits_of_alternates {last : Option JobKind} {x : JobKind} (h : Alternates last x) :
    Permits last x ↔
      (x = .callFunc → last ≠ some .exeDitlang) ∧
        (x = .ditlangCallback → last = some .exeDitlang) := by
  revert h
  rcases last with _ | last
  · cases x <;> decide
  · cases last <;> cases x <;> decide

theorem permits_of_isLine {last : Option JobKind} (h : last.any JobKind.isLine) {x : JobKind}
    (hx : x.isReply) : Permits last x := by
  rcases last with _ | last
  · cases h
  · cases last with
    | callFunc | ditlangCallback => exact hx
    | exeDitlang | finishFunc | crash | heart => cases h

/-! ## The language, step by step -/

/-- What keeps a property of a word keeps it however often it is repeated. -/
theorem append_kstar {α : Type} {l : Language α} {P : List α → Prop}
    (hstep : ∀ w y, P w → y ∈ l → P (w ++ y)) {w z : List α} (hw : P w) (hz : z ∈ l∗) :
    P (w ++ z) := by
  obtain ⟨ys, rfl, hys⟩ := Language.mem_kstar.1 hz
  clear hz
  induction ys generalizing w with
  | nil => simpa using hw
  | cons y ys ih =>
    have hy := hstep w y hw (hys y List.mem_cons_self)
    have := ih hy fun y' hy' => hys y' (List.mem_cons_of_mem y hy')
    simpa using this

theorem append_mem_kstar {α : Type} {l : Language α} {w y : List α} (hw : w ∈ l∗) (hy : y ∈ l) :
    w ++ y ∈ l∗ := by
  obtain ⟨ys, rfl, hys⟩ := Language.mem_kstar.1 hw
  refine Language.mem_kstar.2 ⟨ys ++ [y], by simp, ?_⟩
  intro z hz
  rcases List.mem_append.1 hz with hz | hz
  · exact hys z hz
  · rw [List.mem_singleton.1 hz]
    exact hy

/-- A request and its answer. -/
def exchange : Language JobKind :=
  {[.exeDitlang]} * {[.ditlangCallback]}

theorem mem_exchange {y : List JobKind} :
    y ∈ exchange ↔ y = [.exeDitlang, .ditlangCallback] := by
  constructor
  · rintro ⟨_, rfl, _, rfl, rfl⟩
    rfl
  · rintro rfl
    exact ⟨_, rfl, _, rfl, rfl⟩

theorem call_mem {q : List JobKind} (hq : q ∈ exchange∗) {e : JobKind}
    (he : e = .finishFunc ∨ e = .crash) :
    .callFunc :: (q ++ [e]) ∈
      ({[.callFunc]} * exchange∗ * ({[.finishFunc]} + {[.crash]}) : Language JobKind) := by
  refine ⟨.callFunc :: q, ⟨_, rfl, q, hq, rfl⟩, [e], ?_, rfl⟩
  rcases he with rfl | rfl
  · exact .inl rfl
  · exact .inr rfl

theorem stepwise_append_exchanges {w q : List JobKind}
    (hw : Stepwise Permits w ∧ w.getLast?.any JobKind.isLine) (hq : q ∈ exchange∗) :
    Stepwise Permits (w ++ q) ∧ (w ++ q).getLast?.any JobKind.isLine := by
  refine append_kstar (P := fun w => Stepwise Permits w ∧ w.getLast?.any JobKind.isLine)
    ?_ hw hq
  rintro w y ⟨hw, hline⟩ hy
  rw [mem_exchange.1 hy, ← List.singleton_append, ← List.append_assoc, stepwise_concat,
    stepwise_concat]
  exact ⟨⟨⟨hw, permits_of_isLine hline rfl⟩, by simp [Permits]⟩, by simp [JobKind.isLine]⟩

theorem stepwise_of_mem_protocol {z : List JobKind} (hz : z ∈ protocol) :
    Stepwise Permits z := by
  suffices h : Stepwise Permits ([] ++ z) ∧ Permits ([] ++ z).getLast? .callFunc from h.1
  refine append_kstar
    (P := fun w => Stepwise Permits w ∧ Permits w.getLast? .callFunc) ?_ ?_ hz
  · rintro w _ ⟨hw, hrest⟩ ⟨_, ⟨_, rfl, q, hq, rfl⟩, e, he, rfl⟩
    have hcall : Stepwise Permits (w ++ [JobKind.callFunc]) ∧
        (w ++ [JobKind.callFunc]).getLast?.any JobKind.isLine :=
      ⟨stepwise_concat.2 ⟨hw, hrest⟩, by simp [JobKind.isLine]⟩
    obtain ⟨hq, hline⟩ := stepwise_append_exchanges hcall hq
    have hend : e = [.finishFunc] ∨ e = [.crash] := he
    have happ : w ++ ([JobKind.callFunc] ++ q ++ e) = w ++ [JobKind.callFunc] ++ q ++ e := by simp
    rw [happ]
    rcases hend with rfl | rfl
    · rw [stepwise_concat, List.getLast?_concat]
      exact ⟨⟨hq, permits_of_isLine hline rfl⟩, rfl⟩
    · rw [stepwise_concat, List.getLast?_concat]
      exact ⟨⟨hq, permits_of_isLine hline rfl⟩, rfl⟩
  · exact ⟨stepwise_nil, rfl⟩

/-- Whose turn it is, with what has been said. -/
def Turn (w : List JobKind) : Option JobKind → Prop
  | none | some .finishFunc | some .crash => w ∈ protocol
  | some .callFunc | some .ditlangCallback =>
    ∃ p ∈ protocol, ∃ q ∈ exchange∗, w = p ++ .callFunc :: q
  | some .exeDitlang => ∃ p ∈ protocol, ∃ q ∈ exchange∗, w = p ++ .callFunc :: (q ++ [.exeDitlang])
  | some .heart => False

theorem turn_concat {w : List JobKind} {last : Option JobKind} (h : Turn w last) {x : JobKind}
    (hx : Permits last x) : Turn (w ++ [x]) (some x) := by
  have hcall : w ∈ protocol → Turn (w ++ [.callFunc]) (some .callFunc) :=
    fun hw => ⟨w, hw, [], Language.nil_mem_kstar _, rfl⟩
  have hreply : (∃ p ∈ protocol, ∃ q ∈ exchange∗, w = p ++ .callFunc :: q) → x.isReply →
      Turn (w ++ [x]) (some x) := by
    rintro ⟨p, hp, q, hq, rfl⟩ hreply
    have happ : p ++ .callFunc :: q ++ [x] = p ++ .callFunc :: (q ++ [x]) := by simp
    rw [happ]
    cases x with
    | exeDitlang => exact ⟨p, hp, q, hq, rfl⟩
    | finishFunc => exact append_mem_kstar hp (call_mem hq (.inl rfl))
    | crash => exact append_mem_kstar hp (call_mem hq (.inr rfl))
    | callFunc | ditlangCallback | heart => cases hreply
  rcases last with _ | last
  · rw [eq_of_beq hx]
    exact hcall h
  · cases last with
    | callFunc | ditlangCallback => exact hreply h hx
    | finishFunc | crash =>
      rw [eq_of_beq hx]
      exact hcall h
    | exeDitlang =>
      rw [eq_of_beq hx]
      obtain ⟨p, hp, q, hq, rfl⟩ := h
      refine ⟨p, hp, _, append_mem_kstar hq (mem_exchange.2 rfl), ?_⟩
      simp
    | heart => cases h

theorem turn_of_stepwise {w : List JobKind} (h : Stepwise Permits w) :
    Turn w w.getLast? := by
  induction w using List.reverseRecOn with
  | nil => exact Language.nil_mem_kstar _
  | append_singleton w x ih =>
    obtain ⟨hw, hx⟩ := stepwise_concat.1 h
    rw [List.getLast?_concat]
    exact turn_concat (ih hw) hx

/-- A conversation keeps to the protocol exactly when each item is one that the item before it
allows. -/
theorem disciplined_iff {w : List JobKind} : Disciplined w ↔ Stepwise Permits w := by
  constructor
  · rintro ⟨v, hv⟩
    exact (stepwise_of_mem_protocol hv).left
  · intro h
    have hturn := turn_of_stepwise h
    revert hturn
    cases w.getLast? with
    | none => exact fun hw => ⟨[], by simpa [Turn] using hw⟩
    | some x =>
      cases x with
      | callFunc | ditlangCallback =>
        rintro ⟨p, hp, q, hq, rfl⟩
        refine ⟨[.finishFunc], ?_⟩
        have := append_mem_kstar hp (call_mem hq (.inl rfl))
        simpa [protocol, exchange] using this
      | exeDitlang =>
        rintro ⟨p, hp, q, hq, rfl⟩
        refine ⟨[.ditlangCallback, .finishFunc], ?_⟩
        have hq' := append_mem_kstar hq (mem_exchange.2 rfl)
        have := append_mem_kstar hp (call_mem hq' (.inl rfl))
        simpa [protocol, exchange] using this
      | finishFunc | crash => exact fun hw => ⟨[], by simpa [Turn] using hw⟩
      | heart => exact fun hf => hf.elim

instance (w : List JobKind) : Decidable (Disciplined w) :=
  decidable_of_iff _ disciplined_iff.symm

/-! ## What one connection hears -/

/-- What was said on a connection. -/
def conversation (key : Nat) (talk : List Said) : List JobKind :=
  (talk.filter (·.key = key)).map Said.kind

/-- What was said last on a connection. -/
def lastOn (key : Nat) (talk : List Said) : Option JobKind :=
  (conversation key talk).getLast?

section Talk

variable {key : Nat} {talk : List Said} {x : Said}

theorem conversation_concat_self : conversation x.key (talk ++ [x]) =
    conversation x.key talk ++ [x.kind] := by
  simp [conversation]

theorem conversation_concat_of_ne (h : x.key ≠ key) :
    conversation key (talk ++ [x]) = conversation key talk := by
  simp [conversation, h]

@[simp] theorem lastOn_concat_self : lastOn x.key (talk ++ [x]) = some x.kind := by
  rw [lastOn, conversation_concat_self, List.getLast?_concat]

theorem lastOn_concat_of_ne (h : x.key ≠ key) : lastOn key (talk ++ [x]) = lastOn key talk := by
  rw [lastOn, conversation_concat_of_ne h, lastOn]

/-- Something was said on a connection that heard something last. -/
theorem exists_mem_of_lastOn {kind : JobKind} (h : lastOn key talk = some kind) :
    ∃ x ∈ talk, x.key = key := by
  obtain ⟨x, hx, -⟩ := List.mem_map.1 (List.mem_of_getLast? h)
  obtain ⟨hm, hk⟩ := List.mem_filter.1 hx
  exact ⟨x, hm, of_decide_eq_true hk⟩

end Talk

end Guest
end Ditlang
