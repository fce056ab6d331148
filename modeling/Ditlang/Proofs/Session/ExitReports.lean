import Ditlang.Proofs.Guest.Reports
import Ditlang.Proofs.Session.Langs

/-!
# Ditlang.Proofs.Session.ExitReports

Reports that a worker has exited never reach a later job.

* `Guest.Exchange.exit_report_settles_awaited`: a report settles the submission that it was made for, or
  an earlier one that was given up. No session gives one up, as far as asking for a worker succeeds.
* `Guest.Exchange.exit_report_ends_given_up_call`: a submission that was given up, because asking for its
  worker failed, can be settled by the report that was made for the next one.
-/

namespace Ditlang

open Guest

/-- The daemon of a session is where submissions, and workers that come and go, have led it. -/
theorem Session.Past.exchanged {s : Session} {os : List Order} (hs : s.Past os) {d : Daemon}
    (hd : s.daemon = some d) : d.fleet.Exchanged := by
  induction hs generalizing d with
  | start => cases hd
  | work _ _ hsame ih => exact ih (hsame ▸ hd)
  | @order s s' os c job result _ _ hrun ih =>
    have hfirst : s.ensureDaemon.1.fleet.Exchanged := by
      unfold Session.ensureDaemon
      split
      · exact ih ‹_›
      · exact ⟨.refl, rfl⟩
    obtain ⟨⟨answer, d', host⟩, hjob, he⟩ := Option.map_eq_some_iff.1 hrun
    obtain ⟨⟨answer', handle', g, host'⟩, hr, he'⟩ := Option.map_eq_some_iff.1 hjob
    cases he
    cases he'
    cases hd
    exact hfirst.runJobWith hr
  | @settle s os _ ih =>
    unfold Session.settle at hd
    split at hd
    · exact ih hd
    · rename_i d₀ hd₀
      cases hd
      exact (ih hd₀).acts (d₀.acts_settle s.host)
  | @shutdown s os _ ih =>
    unfold Session.shutdown at hd
    split at hd
    · exact ih hd
    · cases hd

namespace Guest

namespace Exchange

/-- In every run of the handle and the daemon, a report that comes up settles the submission that it
was made for, or an earlier one that the handle has given up, and never a later one. If that submission
was answered before, the report changes nothing, unless one that was given up is still pending. In a run
in which nothing is given up, it changes nothing but the submission that it was made for. The daemon of
every session is where such a run leads. -/
theorem exit_report_settles_awaited :
    (∀ x : Exchange, x.Reached → ∀ lang awaited rest, x.queue = .exited lang awaited :: rest →
      ∀ write : Nat → String → Option String,
      let after := (x.loop.workerExited lang).dispatch write
      (∀ r ∈ after.replies, r ∈ x.loop.replies ∨ r.1 = awaited ∨
        r.1 < awaited ∧ r.1 ∈ x.givenUp) ∧
      (awaited ∈ x.loop.replies.map Prod.fst → after = x.loop ∨
        ∃ p, x.loop.pending = some p ∧ p.ticket < awaited ∧ p.ticket ∈ x.givenUp) ∧
      (x.givenUp = [] →
        (∀ r ∈ after.replies, r ∈ x.loop.replies ∨ r.1 = awaited) ∧
        (awaited ∈ x.loop.replies.map Prod.fst → after = x.loop))) ∧
    ∀ s : Session, s.Reached → ∀ d, s.daemon = some d → d.fleet.Exchanged := by
  refine ⟨?_, fun s hs d hd => ?_⟩
  · intro x hx lang awaited rest hq write
    obtain ⟨hsettled, hanswered⟩ := hx.settled_by_report hq write
    refine ⟨hsettled, hanswered, fun hnone => ⟨fun r hr => ?_, fun hm => ?_⟩⟩
    · rcases hsettled r hr with hold | he | ⟨-, hgiven⟩
      · exact .inl hold
      · exact .inr he
      · rw [hnone] at hgiven
        cases hgiven
    · rcases hanswered hm with he | ⟨p, -, -, hgiven⟩
      · exact he
      · rw [hnone] at hgiven
        cases hgiven
  · obtain ⟨os, hos⟩ := hs.past
    exact hos.exchanged hd

/-- A worker gets a call and closes its connection, and the handle reports its exit when the call has
been lost already. The report stands before the same call, submitted again: it changes nothing. -/
theorem exit_report_settles_awaited_before_next_call :
    ∃ x : Exchange, x.Reached ∧
      x.queue = [.exited "Python" 0, .submit (.call "Python" "f" "tmp/f.py") 1] ∧
      x.loop.connected "Python" = false ∧ x.loop.replies.map Prod.fst = [0] ∧
      (x.loop.workerExited "Python").dispatch (fun _ _ => none) = x.loop := by
  let job := Job.call "Python" "f" "tmp/f.py"
  let write : Nat → String → Option String := fun _ _ => none
  have hstart : Steps {} {} := .refl
  have hknown := hstart.tail (.accept write rfl) |>.tail (.event (.connected 0 "Python") write rfl)
  have hsent := hknown.tail (.submit job rfl) |>.tail (.takeJob write rfl rfl)
  have hlost := hsent.tail (.event (.closed 0) write rfl)
  have hreported := hlost.tail (.report rfl)
  have hanswered := hreported.tail
    (.receive (a := .lost job) rfl (List.mem_singleton.2 rfl))
  have hagain := hanswered.tail (.submit job rfl)
  refine ⟨_, hagain, rfl, rfl, rfl, ?_⟩
  exact ((exit_report_settles_awaited.1 _ hagain _ _ _ rfl write).2.2 rfl).2
    (List.mem_singleton.2 rfl)

/-- The worker for a call never connects, and the handle gives the call up because it cannot find out
whether the worker has exited. It calls again, finds now that the worker has exited, and reports it. The
second call has been refused when the report comes up, since the first one is still pending, and the
report made for the second call ends the first one with a crash. -/
theorem exit_report_ends_given_up_call :
    ∃ (x : Exchange) (crashed : Job), x.Reached ∧ x.queue = [.exited "Python" 1] ∧
      1 ∈ x.loop.replies.map Prod.fst ∧ 0 ∉ x.loop.replies.map Prod.fst ∧ crashed.crashed = true ∧
      ((x.loop.workerExited "Python").dispatch fun _ _ => none).replies =
        x.loop.replies ++ [(0, .done crashed)] := by
  let job := Job.call "Python" "f" "tmp/f.py"
  let write : Nat → String → Option String := fun _ _ => none
  have hstart : Steps {} {} := .refl
  have hwaiting := hstart.tail (.submit job rfl) |>.tail (.takeJob write rfl rfl)
  have hagain := hwaiting.tail (.giveUp rfl) |>.tail (.submit job rfl)
  have hreported := hagain.tail (.report rfl)
  have hrefused := hreported.tail (.takeJob write rfl rfl)
  refine ⟨_, job.settle .crash (.str "Python worker exited before it connected"), hrefused, rfl,
    List.mem_singleton.2 rfl, fun hm => ?_, rfl, rfl⟩
  cases List.mem_singleton.1 hm

end Exchange
end Guest
end Ditlang
