import Ditlang.Proofs.Guest.Submission
import Ditlang.Session.Basic

/-!
# Ditlang.Proofs.Session.Talk

A session and what its guest workers were told. Between jobs a session `Rests`: its daemon has come
to its state with what a transcript says. `Tells` compares two sessions by what is said on the way
from one to the other.
-/

namespace Ditlang

open Guest

/-- The daemon of the session is at rest after what the transcript says; without a daemon nothing was
said. -/
def Session.Rests (s : Session) (t : Transcript) : Prop :=
  match s.daemon with
  | none => t = []
  | some d => d.fleet.Rests t

/-- What was said to the workers of the daemon and taken from them. -/
def Session.talk (s : Session) : List Said :=
  (s.daemon.map fun d => d.fleet.talk).getD []

/-- What an evaluation that leads from one session to another says; `ok` tells whether it
succeeds. -/
def Session.Tells (ok : Bool) (s s' : Session) : Prop :=
  ∀ t, s.Rests t → ∃ w, Transcript.Told none ok w ∧ s'.Rests (t ++ w)

theorem Guest.Fleet.rests_start (launcher : Launcher) (tmpDir : String) :
    Fleet.Rests { launcher, tmpDir } [] := by
  refine ⟨⟨⟨⟨⟨.nil, .nil, by simp⟩, ?_, by simp, by simp, ?_⟩, ?_, .nil, ?_, ?_⟩, rfl, ?_⟩, rfl, ?_⟩
  · rintro k (hk | hk)
    · cases hk
    · cases hk
  · exact fun k => stepwise_nil
  · intro k _ hlast
    cases hlast
  · exact fun k => ⟨fun _ => Transcript.undisturbed_nil, fun _ => stepwise_nil⟩
  · intro k _
    exact ⟨Nat.zero_le _, fun hm => nomatch hm⟩
  · intro k _ _
    rfl
  · intro r hr
    cases hr

namespace Session

variable {s s' s'' : Session} {t t₁ : Transcript} {ok : Bool}

theorem rests_of_daemon (h : s'.daemon = s.daemon) (hs : s.Rests t) : s'.Rests t := by
  rw [Rests, h]
  exact hs

theorem Rests.talk_eq (h : s.Rests t) : t.talk = s.talk := by
  unfold Rests at h
  unfold talk
  split at h
  · rename_i hd
    rw [hd, h]
    rfl
  · rename_i d hd
    rw [hd]
    exact h.talk.symm

/-- On every connection lines and replies alternate, and the protocol is kept exactly where the
transcript leaves the connection undisturbed. -/
theorem Rests.conversation (h : s.Rests t) (key : Nat) :
    Stepwise Alternates (conversation key s.talk) ∧
      (Disciplined (conversation key s.talk) ↔ t.Undisturbed key) := by
  rw [← h.talk_eq, disciplined_iff]
  unfold Rests at h
  split at h
  · subst h
    exact ⟨stepwise_nil, fun _ => Transcript.undisturbed_nil, fun _ => stepwise_nil⟩
  · exact ⟨h.course.turns key, h.course.disciplined key⟩

theorem Tells.of_daemon (h : s'.daemon = s.daemon) (ok : Bool) : s.Tells ok s' := by
  intro t ht
  refine ⟨[], .nothing ok, ?_⟩
  rw [List.append_nil]
  exact rests_of_daemon h ht

theorem Tells.trans (h : s.Tells true s') (h' : s'.Tells ok s'') : s.Tells ok s'' := by
  intro t ht
  obtain ⟨u, hu, htu⟩ := h t ht
  obtain ⟨v, hv, htv⟩ := h' _ htu
  refine ⟨u ++ v, hu.append hv, ?_⟩
  rw [← List.append_assoc]
  exact htv

theorem ensureDaemon_rests (hs : s.Rests t) :
    s.ensureDaemon.1.fleet.Rests t := by
  unfold ensureDaemon
  unfold Rests at hs
  split at hs
  · rename_i hd
    rw [hd, hs]
    exact Fleet.rests_start _ _
  · rename_i d hd
    rw [hd]
    exact hs

/-- A job that is run leaves the session at rest. It may fail before it is submitted; then nothing is
said. -/
theorem runJob_rests {spec : LaunchSpec} {job : Job} {result : Except Diagnostic Job}
    (hs : s.Rests t) (hp : Prompted t job t₁) (hr : s.runJob spec job = some (result, s')) :
    (∃ w, Ran job.lang job.kind result w ∧ s'.Rests (t₁ ++ w)) ∨
      ∃ d, result = .error d ∧ s'.Rests t := by
  have hd := ensureDaemon_rests hs
  obtain ⟨⟨result', d, host⟩, hrun, he⟩ := Option.map_eq_some_iff.1 hr
  cases he
  obtain ⟨⟨_, handle, fleet, _⟩, hrun', he'⟩ := Option.map_eq_some_iff.1 hrun
  cases he'
  exact runJobWith_rests hd hp hrun'

/-! ## A call from its first job to its end -/

/-- What is said from a job on to the end of its call. The job may fail before it is submitted; then
nothing is said. -/
def Speaks (job : Job) (ok : Bool) (s s' : Session) : Prop :=
  ∀ t t₁, s.Rests t → Prompted t job t₁ →
    (∃ w, Transcript.Told (some (job.lang, job.kind)) ok w ∧ s'.Rests (t₁ ++ w)) ∨
      ok = false ∧ s'.Rests t

section Speaks

variable {spec : LaunchSpec} {job j : Job}

theorem Speaks.tells (h : s.Speaks job ok s') (hk : job.kind = .callFunc) : s.Tells ok s' := by
  intro t ht
  rcases h t t ht (.call hk) with ⟨w, hw, hr⟩ | ⟨rfl, hr⟩
  · refine ⟨w, ?_, hr⟩
    rw [hk] at hw
    cases ok with
    | false => exact .brokenOff hw
    | true =>
      have := Transcript.Told.call hw (.nothing true)
      rwa [List.append_nil] at this
  · refine ⟨[], .nothing false, ?_⟩
    rwa [List.append_nil]

theorem speaks_of_error {d : Diagnostic} (hr : s.runJob spec job = some (.error d, s')) :
    s.Speaks job false s' := by
  intro t t₁ ht hp
  rcases runJob_rests ht hp hr with ⟨w, hran, hw⟩ | ⟨-, -, hw⟩
  · refine .inl ⟨w, ?_, hw⟩
    cases hran with
    | crashed hs => exact .crashed hs
    | unheard hu => exact .unheard hu
  · exact .inr ⟨rfl, hw⟩

/-- The worker replies: it asks for a fragment or finishes. -/
theorem runJob_ok (hr : s.runJob spec job = some (.ok j, s')) (ht : s.Rests t)
    (hp : Prompted t job t₁) : ∃ key u, Transcript.Sent job.lang job.kind key u ∧
      j.lang = job.lang ∧ (j.kind = .exeDitlang ∨ j.kind = .finishFunc) ∧
      s'.Rests (t₁ ++ (u ++ [.said ⟨key, job.lang, j.kind⟩])) := by
  rcases runJob_rests ht hp hr with ⟨w, hran, hw⟩ | ⟨d, hd, -⟩
  · cases hran with
    | @replied _ key u hs hlang hkind => exact ⟨key, u, hs, hlang, hkind, hw⟩
  · cases hd

theorem speaks_of_finished (hr : s.runJob spec job = some (.ok j, s')) (hk : j.kind = .finishFunc)
    (hd : s''.daemon = s'.daemon) : s.Speaks job true s'' := by
  intro t t₁ ht hp
  obtain ⟨key, u, hs, -, -, hw⟩ := runJob_ok hr ht hp
  rw [hk] at hw
  exact .inl ⟨_, .finished hs, rests_of_daemon hd hw⟩

theorem speaks_of_other (hr : s.runJob spec job = some (.ok j, s')) (hexe : j.kind ≠ .exeDitlang)
    (hfinish : j.kind ≠ .finishFunc) : s.Speaks job false s' := by
  intro t t₁ ht hp
  obtain ⟨key, u, -, -, hk, -⟩ := runJob_ok hr ht hp
  rcases hk with hk | hk
  · exact absurd hk hexe
  · exact absurd hk hfinish

theorem speaks_of_unanswered (hr : s.runJob spec job = some (.ok j, s')) (hk : j.kind = .exeDitlang)
    (htells : s'.Tells false s'') : s.Speaks job false s'' := by
  intro t t₁ ht hp
  obtain ⟨key, u, hs, -, -, hw⟩ := runJob_ok hr ht hp
  rw [hk] at hw
  obtain ⟨v, hv, hvr⟩ := htells _ hw
  refine .inl ⟨_, .unanswered hs hv, ?_⟩
  simpa only [List.append_assoc] using hvr

/-- The fragment is evaluated, and its value is the next job. -/
theorem speaks_of_answered (hr : s.runJob spec job = some (.ok j, s')) (hk : j.kind = .exeDitlang)
    (htells : s'.Tells true s'') {result : Json} {s₃ : Session}
    (hnext : s''.Speaks (j.callback result) ok s₃) : s.Speaks job ok s₃ := by
  intro t t₁ ht hp
  obtain ⟨key, u, hs, hlang, -, hw⟩ := runJob_ok hr ht hp
  rw [hk] at hw
  obtain ⟨v, hv, hvr⟩ := htells _ hw
  have hreq : Transcript.requests (t₁ ++ (u ++ [.said ⟨key, job.lang, .exeDitlang⟩]) ++ v) =
      ⟨key, job.lang, .exeDitlang⟩ :: Transcript.requests (t₁ ++ u) := by
    rw [hv.requests_append, ← List.append_assoc, Transcript.requests_concat]
    rfl
  have hlang' : job.lang = (j.callback result).lang := hlang.symm
  rcases hnext _ _ hvr (.callback rfl hreq hlang') with ⟨w, hw', hwr⟩ | ⟨rfl, hwr⟩
  · rw [← hlang'] at hw'
    refine .inl ⟨_, .answered hs hv hw', ?_⟩
    simpa only [List.append_assoc] using hwr
  · refine .inl ⟨_, .unanswered hs hv.weaken, ?_⟩
    simpa only [List.append_assoc] using hwr

end Speaks

end Session
end Ditlang
