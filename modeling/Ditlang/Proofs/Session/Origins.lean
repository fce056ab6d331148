import Ditlang.Proofs.Session.Driven

/-!
# Ditlang.Proofs.Session.Origins

Where the failures stand that are reported. A diagnostic is placed when it comes out of the first body:
in that body, or in the text of the guest function that was being made ready for its file. On its way
out of the bodies around it gets frames of the trace and nothing else.

* `Caught`: where the way of a diagnostic starts, with an origin that stands in the source
  (`Origin.At`); `Outward`: the way itself, event by event.
* `Kept.outward`: every diagnostic that came out of a body has come such a way.
* `Driven.origin_of_failed`: the same for every session, and for what its inputs end with.
-/

namespace Ditlang

open Source (View)

/-- The diagnostic with more frames of the trace. -/
def Diagnostic.framed (d : Diagnostic) (frames : List TraceFrame) : Diagnostic :=
  { d with trace := d.trace ++ frames }

namespace History

variable {a : Activation} {first d : Diagnostic} {before log past later : List BodyEvent}
  {c : ContainerId}

/-- The texts in which a failure may stand that comes out of a body, after what happened before: the
body, or the text of a guest function that was just being made ready. -/
inductive Texts (a : Activation) : List BodyEvent → String → View → Prop where
  | body (before : List BodyEvent) : Texts a before a.path a.view
  | guest (func : ContainerId) (path : String) (view : View) (before : List BodyEvent) :
      Texts a (.fenced func path view :: before) path view

/-- A diagnostic came out of the body `a` as `first`, when nothing else was on its way, and got its origin
there: a place of the text that failed. -/
structure Caught (a : Activation) (first : Diagnostic) (before : List BodyEvent) (o : Origin) : Prop where
  innermost : (active before).head? = some a
  calm : inFlight before = none
  origin : first.origin = some o
  place : ∃ path view, Texts a before path view ∧ o.At path view ∧ view.Placed

/-- The way of a diagnostic that came out of the body `a` as `first`, and then out of bodies around it,
each of which added frames to its trace at most. -/
inductive Outward (a : Activation) (first : Diagnostic) (before : List BodyEvent) :
    List BodyEvent → Diagnostic → Prop where
  | first : Outward a first before (.failed a.body (.diagnostic first) :: before) first
  | next {d : Diagnostic} {past : List BodyEvent} (outer : ContainerId) (frames : List TraceFrame) :
      Outward a first before past d →
      Outward a first before (.failed outer (.diagnostic (d.framed frames)) :: past) (d.framed frames)

theorem Outward.framed (h : Outward a first before log d) : ∃ frames, d = first.framed frames := by
  induction h with
  | first => exact ⟨[], by simp [Diagnostic.framed]⟩
  | next _ more _ ih =>
    obtain ⟨frames, rfl⟩ := ih
    exact ⟨frames ++ more, by simp [Diagnostic.framed]⟩

theorem Outward.origin_eq (h : Outward a first before log d) : d.origin = first.origin := by
  obtain ⟨frames, rfl⟩ := h.framed
  rfl

/-- What is on its way out is the last event. -/
theorem inFlight_eq_some {e : Failure} (h : inFlight log = some e) :
    ∃ c past, log = .failed c e :: past := by
  cases log with
  | nil => cases h
  | cons event past =>
    cases event with
    | failed c e' =>
      cases h
      exact ⟨c, past, rfl⟩
    | _ => cases h

/-- The bodies that are being run lie in their buffers. -/
theorem Kept.placed (h : Kept log) (ha : a ∈ active log) : a.view.Placed := by
  induction h with
  | nil => cases ha
  | began _ hv ih =>
    rcases List.mem_cons.1 ha with rfl | ha
    · exact hv
    · exact ih ha
  | finished _ _ _ ih | failed _ _ _ ih => exact ih (List.mem_of_mem_tail ha)
  | ready _ _ ih | fenced _ _ ih => exact ih ha

/-- A diagnostic that came out of a body has been placed in the body that it came out of first, when
nothing else was on its way, and is still there. -/
theorem Kept.outward (h : Kept (.failed c (.diagnostic d) :: past)) :
    ∃ a first before o, Outward a first before (.failed c (.diagnostic d) :: past) d ∧
      Caught a first before o := by
  -- the induction is on what happened before: a failure that was on its way is its last event
  induction past generalizing c d with
  | nil =>
    cases h with
    | failed _ hactive _ => cases hactive
  | cons event past ih =>
    cases h with
    | @failed a outer _ _ hpast hactive hleaves =>
      have hhead : (active (event :: past)).head? = some a := by rw [hactive]; rfl
      cases hleaves with
      | @caught _ o hcalm ho hat =>
        have hplaced := hpast.placed (a := a) (by rw [hactive]; exact List.mem_cons_self)
        exact ⟨a, d, _, o, .first, hhead, hcalm, ho, _, _, .body _, hat, hplaced⟩
      | @fenced _ o func path view hfenced ho hat =>
        cases hfenced
        cases hpast with
        | fenced _ hv =>
          exact ⟨a, d, _, o, .first, hhead, rfl, ho, path, view, .guest _ _ _ _, hat, hv⟩
      | @carried d' frames hflight =>
        obtain ⟨inner, older, hlog⟩ := inFlight_eq_some hflight
        cases hlog
        obtain ⟨a', first, before, o, hway, hcaught⟩ := ih hpast
        exact ⟨a', first, before, o, hway.next a.body frames, hcaught⟩

end History

namespace Session

open History

variable {s : Session}

/-- Whatever inputs were run in a session: every diagnostic that came out of a body has an origin. It got
it when it came out of the first body, and nothing but its trace has changed since. The origin is a place
of the text that failed, a body or a guest function: its line and its column are those of its offset in
the whole buffer, and its code is the line of that number. What an input ends with is such a diagnostic,
unless nothing caught a throw, or the file to run could not be read. -/
theorem Driven.origin_of_failed (hs : s.Driven) :
    (∀ later c d past, s.log = later ++ .failed c (.diagnostic d) :: past →
      ∃ a first before o, Outward a first before (.failed c (.diagnostic d) :: past) d ∧
        Caught a first before o ∧ d.origin = some o) ∧
    ∀ input d s', s.take input = some (some (.diagnostic d), s') →
      (∃ c past, s'.log = .failed c (.diagnostic d) :: past) ∨
      (∃ text, .diagnostic d = uncaughtThrow text) ∨
      ∃ host path, Host.load host path = (.error d, s'.host) := by
  refine ⟨?_, ?_⟩
  · intro later c d past hlog
    have hkept : Kept (later ++ .failed c (.diagnostic d) :: past) :=
      hlog ▸ hs.atRest.orderly.recorded.kept
    obtain ⟨a, first, before, o, hway, hcaught⟩ := hkept.drop.outward
    exact ⟨a, first, before, o, hway, hcaught, hway.origin_eq.trans hcaught.origin⟩
  · intro input d s' ht
    cases (hs.atRest.take ht).2.ends _ rfl with
    | left hleft => exact .inl (inFlight_eq_some hleft.inFlight)
    | thrown text => exact .inr (.inl ⟨text, rfl⟩)
    | unread hload => exact .inr (.inr ⟨_, _, hload⟩)

/-- Whether an event is that a diagnostic came out of a body, with `p` about the diagnostic. -/
def failedWith (p : Diagnostic → Bool) : BodyEvent → List BodyEvent → Bool
  | .failed _ (.diagnostic d), _ => p d
  | .failed _ (.io _), _ | .began _, _ | .finished _ _, _ | .ready _, _ | .fenced _ _ _, _ => false

theorem failedWith_eq_true {p : Diagnostic → Bool} {e : BodyEvent} {past : List BodyEvent}
    (h : failedWith p e past = true) : ∃ c d, e = .failed c (.diagnostic d) ∧ p d = true := by
  cases e with
  | failed c e =>
    cases e with
    | diagnostic d => exact ⟨c, d, rfl, h⟩
    | io reason => cases h
  | _ => cases h

/-- A class inside a class, whose body fails in the third line of the source: the failure comes out of
three bodies, with the place that it has in the whole source. -/
theorem origin_of_failed_in_nested_body : ∃ (s : Session) (c : ContainerId) (d : Diagnostic)
    (later past : List BodyEvent) (a : Activation) (first : Diagnostic) (before : List BodyEvent),
    s.Driven ∧ s.log = later ++ .failed c (.diagnostic d) :: past ∧ d.trace.length = 4 ∧
      Outward a first before (.failed c (.diagnostic d) :: past) d ∧
      Caught a first before ⟨"main.dit", ⟨13, 3, 13⟩, "    Num y = nope;"⟩ := by
  obtain ⟨failures, s, -, hs, hp⟩ := exists_driven
    [.source "class A \x7b\n  class B \x7b\n    Num y = nope;\n  \x7d\n  Num z = B.y;\n\x7d",
      .line "A.z"]
    (fun _ s => happened (failedWith fun d => d.trace.length == 4 &&
      d.origin == some ⟨"main.dit", ⟨13, 3, 13⟩, "    Num y = nope;"⟩) s.log)
    (by decide +kernel)
  obtain ⟨later, e, past, hlog, he⟩ := exists_event hp
  obtain ⟨c, d, rfl, hd⟩ := failedWith_eq_true he
  simp only [Bool.and_eq_true, beq_iff_eq] at hd
  obtain ⟨a, first, before, o, hway, hcaught, ho⟩ := hs.origin_of_failed.1 later c d past hlog
  cases hd.2.symm.trans ho
  exact ⟨s, c, d, later, past, a, first, before, hs, hlog, hd.1, hway, hcaught⟩

/-- A dit may come from a server: its diagnostic has the URL as its path, and a place of its text. -/
example :
    let host := { bare.host with web := fun _ _ => .ok "Num n = 1;\nNum m = nope;" }
    let failed (past : List Failure × Session) : Bool := happened (failedWith fun d =>
      d.origin == some ⟨"http://h/m.dit", ⟨19, 2, 9⟩, "Num m = nope;"⟩) past.2.log
    ({ bare with host }.feed [.source "import 'http://h/m.dit';"]).any failed = true := by
  decide +kernel

end Session
end Ditlang
