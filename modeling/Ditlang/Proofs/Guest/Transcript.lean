import Ditlang.Proofs.Guest.Conversation

/-!
# Ditlang.Proofs.Guest.Transcript

What is said in the course of an evaluation, on all connections together.

A worker that runs a guest function may ask for a fragment of Ditlang; while that is evaluated other
guest functions may be called, and these may ask in turn. A `Transcript` is a talk in which the ends
of those evaluations are marked. `Told` gives the form of transcripts: a call is a line and its
reply; after a reply that asks for a fragment comes what the evaluation of the fragment says, and
then, if it succeeded, the line with its value.

`Undisturbed` says of a connection that the calls on it and the requests on it do not run into each
other.
-/

namespace Ditlang
namespace Guest

/-- An entry of a transcript. -/
inductive Mark where
  | said (x : Said)
  /-- The fragment that `x` asked for was evaluated without a failure, to a value that a line can
  hold. -/
  | evaluated (x : Said)
deriving DecidableEq, Repr

abbrev Transcript := List Mark

namespace Transcript

/-- The talk without the marks. -/
def talk (t : Transcript) : List Said :=
  t.filterMap fun
    | .said x => some x
    | .evaluated _ => none

/-- The requests that are left open after one more entry. -/
def leaves (asked : List Said) : Mark → List Said
  | .said x => if x.kind = .exeDitlang then x :: asked else asked
  | .evaluated _ => asked.tail

/-- The requests whose fragments have not been evaluated, the last one first. The evaluation of such
a fragment is still under way, or it has failed, or its value cannot be written in a line. -/
def requests (t : Transcript) : List Said :=
  t.foldl leaves []

/-- A job is written, the last time to the connection `key`. A call is written again when its worker
was lost. -/
inductive Sent (lang : String) (kind : JobKind) (key : Nat) : Transcript → Prop where
  | last : kind.isLine → Sent lang kind key [.said ⟨key, lang, kind⟩]
  | again {lost : Nat} {u : Transcript} : kind = .callFunc → Sent lang kind key u →
      Sent lang kind key (.said ⟨lost, lang, kind⟩ :: u)

/-- What is said during an evaluation (`none`), or from a job of a Lang on to the end of its call;
the second argument tells whether that succeeds. -/
inductive Told : Option (String × JobKind) → Bool → Transcript → Prop where
  | nothing (ok : Bool) : Told none ok []
  | call {lang : String} {ok : Bool} {u v : Transcript} : Told (some (lang, .callFunc)) true u →
      Told none ok v → Told none ok (u ++ v)
  | brokenOff {lang : String} {u : Transcript} : Told (some (lang, .callFunc)) false u →
      Told none false u
  | finished {lang : String} {kind : JobKind} {key : Nat} {u : Transcript} :
      Sent lang kind key u → Told (some (lang, kind)) true (u ++ [.said ⟨key, lang, .finishFunc⟩])
  | crashed {lang : String} {kind : JobKind} {key : Nat} {u : Transcript} :
      Sent lang kind key u → Told (some (lang, kind)) false (u ++ [.said ⟨key, lang, .crash⟩])
  | unheard {lang : String} {kind : JobKind} {u : Transcript} :
      (u = [] ∨ ∃ key, Sent lang kind key u) → Told (some (lang, kind)) false u
  | answered {lang : String} {kind : JobKind} {key : Nat} {ok : Bool} {u v w : Transcript} :
      Sent lang kind key u → Told none true v → Told (some (lang, .ditlangCallback)) ok w →
      Told (some (lang, kind)) ok
        (u ++ [.said ⟨key, lang, .exeDitlang⟩] ++ v ++ [.evaluated ⟨key, lang, .exeDitlang⟩] ++ w)
  | unanswered {lang : String} {kind : JobKind} {key : Nat} {u v : Transcript} :
      Sent lang kind key u → Told none false v →
      Told (some (lang, kind)) false (u ++ [.said ⟨key, lang, .exeDitlang⟩] ++ v)

/-- What is said in a session: during one program or line after another. -/
inductive Whole : Transcript → Prop where
  | start : Whole []
  | input {ok : Bool} {t u : Transcript} : Whole t → Told none ok u → Whole (t ++ u)

/-- On a connection, no call is written while a request of it is open, and what is answered is a
request of its own. -/
structure Undisturbed (key : Nat) (t : Transcript) : Prop where
  calls : ∀ u x v, t = u ++ .said x :: v → x.key = key → x.kind = .callFunc →
    ∀ y ∈ requests u, y.key ≠ key
  answers : ∀ u y x v, t = u ++ .evaluated y :: .said x :: v → x.key = key →
    x.kind = .ditlangCallback → y.key = key

/-! ## Growing at the end -/

variable {t : Transcript} {x y : Said} {key : Nat}

@[simp] theorem talk_nil : talk [] = [] := rfl

@[simp] theorem talk_concat_said : talk (t ++ [.said x]) = t.talk ++ [x] := by
  simp [talk]

@[simp] theorem talk_concat_evaluated : talk (t ++ [.evaluated x]) = t.talk := by
  simp [talk]

@[simp] theorem requests_concat (m : Mark) : requests (t ++ [m]) = leaves (requests t) m := by
  simp [requests]

theorem mem_talk_of_mem_requests (h : y ∈ requests t) : y ∈ t.talk ∧ y.kind = .exeDitlang := by
  induction t using List.reverseRecOn with
  | nil => cases h
  | append_singleton t m ih =>
    rw [requests_concat] at h
    cases m with
    | said x =>
      rw [talk_concat_said]
      simp only [leaves] at h
      split at h
      · rename_i hx
        rcases List.mem_cons.1 h with rfl | h
        · simp [hx]
        · have := ih h
          simp [this]
      · have := ih h
        simp [this]
    | evaluated x =>
      rw [talk_concat_evaluated]
      exact ih (List.mem_of_mem_tail h)

theorem undisturbed_nil : Undisturbed key [] := by
  constructor
  · intro u x v h
    simp at h
  · intro u y x v h
    simp at h

theorem undisturbed_concat_said : Undisturbed key (t ++ [.said x]) ↔ Undisturbed key t ∧
    (x.key = key → x.kind = .callFunc → ∀ y ∈ requests t, y.key ≠ key) ∧
    (x.key = key → x.kind = .ditlangCallback → ∀ u y, t = u ++ [.evaluated y] → y.key = key) := by
  constructor
  · intro h
    refine ⟨⟨?_, ?_⟩, h.calls t x [] rfl, ?_⟩
    · rintro u z v rfl
      exact h.calls u z (v ++ [.said x]) (by simp)
    · rintro u y z v rfl
      exact h.answers u y z (v ++ [.said x]) (by simp)
    · rintro hk hx u y rfl
      exact h.answers u y x [] (by simp) hk hx
  · rintro ⟨h, hcall, hanswer⟩
    constructor
    · intro u z v he
      rcases concat_eq_append_cons_iff.1 he with ⟨-, rfl, hz⟩ | ⟨v', -, rfl⟩
      · cases hz
        exact hcall
      · exact h.calls u z v' rfl
    · intro u y z v he
      have he' : t ++ [.said x] = (u ++ [.evaluated y]) ++ .said z :: v := by simpa using he
      rcases concat_eq_append_cons_iff.1 he' with ⟨-, rfl, hz⟩ | ⟨v', -, rfl⟩
      · cases hz
        exact fun hk hx => hanswer hk hx u y rfl
      · exact h.answers u y z v' (by simp)

theorem undisturbed_concat_evaluated :
    Undisturbed key (t ++ [.evaluated y]) ↔ Undisturbed key t := by
  constructor
  · intro h
    constructor
    · rintro u x v rfl
      exact h.calls u x (v ++ [.evaluated y]) (by simp)
    · rintro u z x v rfl
      exact h.answers u z x (v ++ [.evaluated y]) (by simp)
  · intro h
    constructor
    · intro u x v he
      rcases concat_eq_append_cons_iff.1 he with ⟨-, -, hx⟩ | ⟨v', -, rfl⟩
      · cases hx
      · exact h.calls u x v' rfl
    · intro u z x v he
      have he' : t ++ [.evaluated y] = (u ++ [.evaluated z]) ++ .said x :: v := by simpa using he
      rcases concat_eq_append_cons_iff.1 he' with ⟨-, -, hx⟩ | ⟨v', -, rfl⟩
      · cases hx
      · exact h.answers u z x v' (by simp)

/-! ## What succeeds leaves no request open -/

theorem Sent.foldl_leaves {lang : String} {kind : JobKind} {u : Transcript}
    (h : Sent lang kind key u) (asked : List Said) : u.foldl leaves asked = asked := by
  induction h with
  | last hline =>
    cases kind with
    | callFunc | ditlangCallback => rfl
    | exeDitlang | finishFunc | crash | heart => cases hline
  | again hkind _ ih =>
    subst hkind
    exact ih

theorem Told.foldl_leaves {stage : Option (String × JobKind)} {u : Transcript}
    (h : Told stage true u) (asked : List Said) : u.foldl leaves asked = asked := by
  generalize hok : true = ok at h
  induction h generalizing asked with
  | nothing => rfl
  | call _ _ ihu ihv => rw [List.foldl_append, ihu asked rfl, ihv asked hok]
  | brokenOff => cases hok
  | finished hs =>
    rw [List.foldl_append, hs.foldl_leaves]
    rfl
  | crashed => cases hok
  | unheard => cases hok
  | answered hs _ _ ihv ihw =>
    simp only [List.foldl_append, List.foldl_cons, List.foldl_nil, hs.foldl_leaves, ihv _ rfl]
    simp only [leaves, if_true, List.tail_cons]
    exact ihw asked hok
  | unanswered => cases hok

theorem Told.append {ok : Bool} {u v : Transcript} (hu : Told none true u) (hv : Told none ok v) :
    Told none ok (u ++ v) := by
  generalize hstage : none = stage at hu
  generalize hok : true = ok' at hu
  induction hu with
  | nothing => exact hv
  | @call _ _ u₁ u₂ h₁ _ _ ih =>
    rw [List.append_assoc]
    exact .call h₁ (ih rfl hok)
  | brokenOff => cases hok
  | finished | crashed | unheard | answered | unanswered => cases hstage

/-- What is said before a failure may be all that is said before a success. -/
theorem Told.weaken {u : Transcript} (h : Told none true u) : Told none false u := by
  have := h.append (.nothing false)
  rwa [List.append_nil] at this

theorem Told.requests_append {u : Transcript} (h : Told none true u) (t : Transcript) :
    requests (t ++ u) = requests t := by
  rw [requests, List.foldl_append, h.foldl_leaves, requests]

end Transcript
end Guest
end Ditlang
