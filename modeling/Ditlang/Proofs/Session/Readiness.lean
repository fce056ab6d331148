import Ditlang.Proofs.Session.Driven

/-!
# Ditlang.Proofs.Session.Readiness

Classes and Langs that count as interpreted. A body is interpreted when it is needed for the first time,
and from then on it counts as interpreted, however that ended.

* `Driven.ready_iff_not_broken`: whenever a class or a Lang counts as interpreted, its statements have
  come to their end or are being run, exactly if no failure and no throw has ended them; and they are
  not run a second time.
* `ready_when_broken`: after a failure in the body of a class, the next use of the class goes ahead with
  the attributes that were declared before the failure.
-/

namespace Ditlang

namespace History

/-- Whether an event is the end of all statements of a body. -/
def completes (c : ContainerId) : BodyEvent → Bool
  | .finished d .normal => d == c
  | _ => false

/-- Whether an event ends a body before its last statement. -/
def breaks (c : ContainerId) : BodyEvent → Bool
  | .finished _ .normal => false
  | .finished d _ | .failed d _ => d == c
  | _ => false

/-- Whether the statements of a body have come to their end. -/
def completed (c : ContainerId) (log : List BodyEvent) : Bool :=
  log.any (completes c)

/-- Whether a failure, a return or a throw has ended a body. -/
def broken (c : ContainerId) (log : List BodyEvent) : Bool :=
  log.any (breaks c)

/-- Whether a body is being run. -/
def running (c : ContainerId) (log : List BodyEvent) : Bool :=
  (active log).any (·.body == c)

variable {c : ContainerId} {log past later : List BodyEvent}

theorem any_eq_true_iff_countP {α : Type} {p : α → Bool} {xs : List α} :
    xs.any p = true ↔ 0 < xs.countP p := by
  rw [List.any_eq_true, List.countP_pos_iff]

/-- A body that has ended came to the end of its statements or was broken off. -/
theorem countP_ends (c : ContainerId) (log : List BodyEvent) :
    log.countP (ends c) = log.countP (completes c) + log.countP (breaks c) := by
  induction log with
  | nil => rfl
  | cons e past ih =>
    have he : (if ends c e then 1 else 0) =
        (if completes c e then 1 else 0) + if breaks c e then 1 else 0 := by
      cases e with
      | finished d signal => cases signal <;> simp [ends, completes, breaks]
      | _ => simp [ends, completes, breaks]
    rw [List.countP_cons, List.countP_cons, List.countP_cons, ih, he]
    omega

/-- Of a body that began once, exactly one of three things can be said. -/
theorem Kept.completed_or_running (h : Kept log) (hbegun : begun c log = 1) :
    (completed c log || running c log) = !broken c log := by
  have hcount := h.begun_eq (c := c)
  rw [hbegun, countP_ends] at hcount
  unfold completed running broken
  rw [Bool.eq_iff_iff, Bool.or_eq_true, Bool.not_eq_true', ← Bool.not_eq_true,
    any_eq_true_iff_countP, any_eq_true_iff_countP, any_eq_true_iff_countP]
  omega

theorem begun_append (c : ContainerId) (later past : List BodyEvent) :
    begun c (later ++ past) = begun c later + begun c past :=
  List.countP_append

end History

namespace Session

open History

variable {s : Session} {c : ContainerId} {later past : List BodyEvent}

/-- Whatever inputs were run in a session, failed ones among them: whenever a class or a Lang counted as
interpreted, its statements had come to their end or were being run, unless a failure, a return or a
throw had ended them before. They had begun once, and in the whole session they are not run again. -/
theorem Driven.ready_iff_not_broken (hs : s.Driven) (hlog : s.log = later ++ .ready c :: past) :
    (completed c past || running c past) = !broken c past ∧ begun c past = 1 ∧ begun c s.log = 1 := by
  have hrecorded := hs.atRest.orderly.recorded
  have hkept : Kept (.ready c :: past) := Kept.drop (hlog ▸ hrecorded.kept)
  cases hkept with
  | ready hpast hbegun =>
    refine ⟨hpast.completed_or_running hbegun, hbegun, ?_⟩
    have hmem : .ready c ∈ s.log := by simp [hlog]
    have hlazy := hrecorded.lazy c (hrecorded.ready c hmem).2
    have hsplit : begun c s.log = begun c later + begun c (.ready c :: past) := by
      rw [hlog, begun_append]
    rw [begun_cons, hbegun] at hsplit
    have hle : begun c s.log ≤ 1 := by
      rw [hlazy]
      split <;> omega
    omega

/-- Whether an event is that a class or a Lang counted as interpreted, with `p` about what led to it. -/
def readyWith (p : ContainerId → List BodyEvent → Bool) : BodyEvent → List BodyEvent → Bool
  | .ready c, past => p c past
  | _, _ => false

theorem readyWith_eq_true {p : ContainerId → List BodyEvent → Bool} {e : BodyEvent}
    (h : readyWith p e past = true) : ∃ c, e = .ready c ∧ p c past = true := by
  cases e with
  | ready c => exact ⟨c, rfl, h⟩
  | _ => cases h

/-- A class whose body names the class itself: it counts as interpreted while it is being run. -/
theorem ready_iff_not_broken_within : ∃ (s : Session) (c : ContainerId) (later past : List BodyEvent),
    s.Driven ∧ s.log = later ++ .ready c :: past ∧ running c past = true ∧ completed c past = false ∧
      ((completed c past || running c past) = !broken c past ∧ begun c past = 1 ∧
        begun c s.log = 1) := by
  obtain ⟨failures, s, -, hs, hp⟩ := exists_driven
    [.source "class A \x7b Num x = 1; Num y = A.x; \x7d", .line "A.y"]
    (fun _ s => happened (readyWith fun c past => running c past && !completed c past) s.log)
    (by decide +kernel)
  obtain ⟨later, e, past, hlog, he⟩ := exists_event hp
  obtain ⟨c, rfl, hrunning⟩ := readyWith_eq_true he
  simp only [Bool.and_eq_true, Bool.not_eq_true'] at hrunning
  exact ⟨s, c, later, past, hs, hlog, hrunning.1, hrunning.2, hs.ready_iff_not_broken hlog⟩

/-- The body of a class fails, and with it the input that needed the class for the first time. The same
input succeeds when it is given again, although the statements of the body have not come to their end
and are not being run. -/
theorem ready_when_broken : ∃ (s : Session) (c : ContainerId) (later past : List BodyEvent)
    (failure : Failure),
    bare.feed [.source "class A \x7b Num x = 1; Num y = nope; \x7d", .line "A.x", .line "A.x"] =
      some ([failure], s) ∧
    s.log = later ++ .ready c :: past ∧ completed c past = false ∧ running c past = false := by
  obtain ⟨failures, s, hfeed, -, hp⟩ := exists_driven
    [.source "class A \x7b Num x = 1; Num y = nope; \x7d", .line "A.x", .line "A.x"]
    (fun failures s => failures.length == 1 &&
      happened (readyWith fun c past => !completed c past && !running c past) s.log)
    (by decide +kernel)
  rw [Bool.and_eq_true, beq_iff_eq] at hp
  obtain ⟨failure, rfl⟩ := List.length_eq_one_iff.1 hp.1
  obtain ⟨later, e, past, hlog, he⟩ := exists_event hp.2
  obtain ⟨c, rfl, hbroken⟩ := readyWith_eq_true he
  simp only [Bool.and_eq_true, Bool.not_eq_true'] at hbroken
  exact ⟨s, c, later, past, failure, hfeed, hlog, hbroken.1, hbroken.2⟩

end Session
end Ditlang
