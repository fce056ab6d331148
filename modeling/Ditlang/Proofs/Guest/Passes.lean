import Ditlang.Guest.Handle
import Ditlang.Proofs.Guest.Progress

/-!
# Ditlang.Proofs.Guest.Passes

The daemon under any schedule. It works in passes: in each it takes one thing from outside, and then
it writes the pending job if it can. A `Bench` is the daemon together with what is still to come
(how launches end, and what submissions meet until they are answered), so that every order of events
is a bench, and `Bench.backend` puts the handle in front of it.

* `Failure`: how the worker of a job can fail it.
* `Unsettled`, `Settled`: a job before and after its answer. A pass leads from the one to the other
  (`Unsettled.pass`), and what the daemon knows of the Lang when the job has failed is said once, in
  `Verdict`.
* `Bench.submit_settles`: from a bench at rest, a submission that is answered leads to a bench at
  rest.
-/

namespace Ditlang
namespace Guest

/-- What the daemon takes in a pass that brings no submission. -/
inductive Move where
  | accept
  | event (e : Event)
  | exited (lang : String)

/-- The move makes a worker of the Lang known. -/
def Move.Announces (lang : String) : Move → Prop
  | .event (.connected _ l) => l = lang
  | _ => False

/-- A pass of the daemon. `write` says why a line could not be written to a connection. -/
structure Pass where
  move : Move
  write : Nat → String → Option String := fun _ _ => none

/-- How the worker of a job fails it. -/
inductive Failure where
  | disconnected
  /-- The worker exited and had not connected. -/
  | unconnected
  | unwritten (kind : JobKind)
deriving DecidableEq, Repr

/-- Whether the failure comes to the knowledge of those who start workers. -/
def Failure.noticed : Failure → Bool
  | .disconnected => true
  | .unconnected => false
  | .unwritten kind => kind == .callFunc

instance Event.decidableDue (e : Event) (s : Loop) : Decidable (e.Due s) :=
  match e with
  | .connected _ _ => inferInstanceAs (Decidable (_ ∧ _))
  | .message _ _ | .malformed _ _ | .closed _ => inferInstanceAs (Decidable True)

namespace Loop

/-- The daemon after a move. An event that cannot come is left out. -/
def take (s : Loop) : Move → Loop
  | .accept => s.accept.2
  | .event e => if e.Due s then s.handle e else s
  | .exited lang => s.workerExited lang

def pass (s : Loop) (t : Pass) : Loop :=
  (s.take t.move).dispatch t.write

/-- The pending job waits for a worker of the Lang to connect. -/
def awaitsWorker (s : Loop) (lang : String) : Bool :=
  match s.pending with
  | some p => p.job.lang == lang && !p.job.active && !s.connected lang
  | none => false

/-- The failure that a move brings to the pending job. -/
def ends? (s : Loop) : Move → Option Failure
  | .event (.closed key) => if s.activeFor key then some .disconnected else none
  | .exited lang => if s.awaitsWorker lang then some .unconnected else none
  | _ => none

/-- The failure to write the pending job. -/
def unwritten? (s : Loop) (write : Nat → String → Option String) : Option Failure :=
  s.outgoing?.bind fun (key, job) => (write key job.wire).map fun _ => .unwritten job.kind

/-- The failure that a pass brings to the pending job. -/
def failure? (s : Loop) (t : Pass) : Option Failure :=
  (s.ends? t.move).or ((s.take t.move).unwritten? t.write)

/-- A worker of the Lang was connected once, and none is now. -/
def gone (s : Loop) (lang : String) : Bool :=
  !s.connected lang && s.lost.contains lang

end Loop

/-- What a submission meets until it is answered: how the job is written in the pass in which it is
submitted, and the passes that follow. -/
structure Wait where
  write : Nat → String → Option String := fun _ _ => none
  passes : List Pass := []

/-- What a submission meets when every line can be written. -/
def Wait.of (moves : List Move) : Wait where
  passes := moves.map fun move => { move }

/-- The daemon, and what is to come. -/
structure Bench where
  loop : Loop := {}
  tickets : Nat := 0
  /-- The workers that were asked for, oldest first. -/
  launches : List LaunchSpec := []
  /-- How many passes were taken that brought no submission. -/
  taken : Nat := 0
  /-- How the worker failed the last job, if it did. -/
  failure : Option Failure := none
  /-- How the coming launches end. -/
  starts : List (Except String Nat) := []
  /-- What the coming submissions meet. -/
  waits : List Wait := []

namespace Bench

def launch (spec : LaunchSpec) (b : Bench) : Except String Nat × Bench :=
  (b.starts.headD (.error "no more workers"),
    { b with starts := b.starts.tail, launches := b.launches ++ [spec], failure := none })

def pass (b : Bench) (t : Pass) : Bench :=
  { b with loop := b.loop.pass t, taken := b.taken + 1, failure := b.loop.failure? t }

/-- Turns are taken until the submission is answered. -/
def await (ticket : Nat) : List Pass → Bench → Option (Answer × Bench)
  | [], b => (b.loop.replies.lookup ticket).map (·, b)
  | t :: passes, b =>
    match b.loop.replies.lookup ticket with
    | some a => some (a, b)
    | none => await ticket passes (b.pass t)

/-- The pass in which a job is submitted. -/
def enter (job : Job) (write : Nat → String → Option String) (b : Bench) : Bench :=
  let s := b.loop.submit job b.tickets
  { b with
    loop := s.dispatch write
    tickets := b.tickets + 1
    failure := if b.loop.gone job.lang then some .disconnected else s.unwritten? write
    waits := b.waits.tail }

def submit (job : Job) (b : Bench) : Option (Answer × Bench) :=
  let wait := b.waits.headD {}
  await b.tickets wait.passes (b.enter job wait.write)

def backend : Backend Bench where
  launch := launch
  terminate := fun _ b => b
  submit := fun job _ => submit job
  stop := fun b => (some b.loop.teardown.1, { b with loop := b.loop.teardown.2 })

end Bench

namespace Loop

variable {s : Loop} {lang : String}

theorem connected_eq_false_iff : s.connected lang = false ↔ ∀ key, (key, lang) ∉ s.connections := by
  rw [← Bool.not_eq_true, connected_iff]
  simp

theorem connected_congr {t : Loop} (h : t.connections = s.connections) :
    t.connected lang = s.connected lang := by
  rw [connected, connected, h]

theorem connected_drop_of_eq_false {key : Nat} (h : s.connected lang = false) :
    (s.drop key).connected lang = false := by
  rw [connected_eq_false_iff] at h ⊢
  exact fun k hm => h k (List.mem_filter.1 hm).1

/-- What is not connected is not written to. -/
theorem dispatch_eq_self {p : Pending} (h : s.pending = some p) (hc : s.connected p.job.lang = false)
    (write : Nat → String → Option String) : s.dispatch write = s ∧ s.unwritten? write = none := by
  have ho : s.outgoing? = none := by
    cases ho : s.outgoing? with
    | none => rfl
    | some out =>
      obtain ⟨key, job⟩ := out
      obtain ⟨q, hq, rfl, -, hm⟩ := outgoing_spec ho
      cases h.symm.trans hq
      exact absurd hm (connected_eq_false_iff.1 hc key)
  simp [dispatch, unwritten?, ho]

theorem dispatch_of_pending (h : s.pending = none) (write : Nat → String → Option String) :
    s.dispatch write = s ∧ s.unwritten? write = none := by
  simp [dispatch, unwritten?, outgoing?_of_pending h]

theorem dispatch_of_active {p : Pending} (h : s.pending = some p) (hp : p.job.active = true)
    (write : Nat → String → Option String) : s.dispatch write = s ∧ s.unwritten? write = none := by
  simp [dispatch, unwritten?, outgoing?_of_active h hp]

/-! ## A Lang without a worker -/

/-- No worker of the Lang is connected, and the mark that one has gone is set or not. -/
structure Without (s : Loop) (lang : String) (lost : Prop) : Prop where
  connected : s.connected lang = false
  mark : lang ∈ s.lost ↔ lost

variable {lost : Prop}

theorem Without.congr {t : Loop} (h : s.Without lang lost) (hc : t.connections = s.connections)
    (hl : t.lost = s.lost) : t.Without lang lost :=
  ⟨(connected_congr hc).trans h.connected, hl ▸ h.mark⟩

theorem Without.drop (h : s.Without lang lost) (key : Nat) : (s.drop key).Without lang lost :=
  ⟨connected_drop_of_eq_false h.connected, h.mark⟩

theorem Without.onClosed (h : s.Without lang lost) (key : Nat) :
    (s.onClosed key).Without lang lost := by
  unfold Loop.onClosed
  split
  · exact h.drop key
  · rename_i l hk
    have hne : lang ≠ l := by
      rintro rfl
      exact connected_eq_false_iff.1 h.connected key (mem_of_lookup hk)
    dsimp only
    split
    · exact (h.drop key).congr (connections_lose _) (lost_lose _)
    · -- the mark that is set is that of another Lang
      have hmark : ∀ t : Loop, t.Without lang lost →
          ({ t with lost := if t.lost.contains l then t.lost else t.lost ++ [l] } : Loop).Without
            lang lost := by
        intro t ht
        refine ⟨ht.connected, ?_⟩
        dsimp only
        split
        · exact ht.mark
        · simp [hne, ht.mark]
      apply hmark
      split
      · exact (h.drop key).congr (connections_crash _ _) (lost_crash _ _)
      · exact h.drop key

/-- A Lang stays without a worker until one announces it. -/
theorem Without.take (h : s.Without lang lost) {m : Move} (hm : ¬ m.Announces lang) :
    (s.take m).Without lang lost := by
  cases m with
  | accept => exact h.congr rfl rfl
  | exited l =>
    simp only [Loop.take, Loop.workerExited]
    split
    · split
      · exact h.congr (connections_crash _ _) (lost_crash _ _)
      · exact h
    · exact h
  | event e =>
    simp only [Loop.take]
    split
    · rename_i he
      cases e with
      | connected key l =>
        simp only [Loop.handle]
        split
        · exact h.congr rfl rfl
        · rw [register_of_lookup he.2]
          have hne : l ≠ lang := hm
          refine ⟨?_, ?_⟩
          · have hold := h.connected
            simp only [Loop.connected, List.any_append, List.any_cons, List.any_nil, Bool.or_false,
              Bool.or_eq_false_iff] at hold ⊢
            exact ⟨hold, by simpa using hne⟩
          · simp [hne.symm, h.mark]
      | message key m =>
        obtain ⟨hc, hl, -⟩ := onMessage_cases s key m
        exact h.congr hc hl
      | malformed key line =>
        simp only [Loop.handle]
        split
        · exact h.congr (connections_crash _ _) (lost_crash _ _)
        · exact h
      | closed key => exact h.onClosed key
    · exact h

theorem Without.dispatch (h : s.Without lang lost) (write : Nat → String → Option String) :
    (s.dispatch write).Without lang lost := by
  unfold Loop.dispatch
  split
  · exact h
  · rename_i key job _
    split
    · exact h.congr rfl rfl
    · unfold unwritten
      dsimp only
      split
      · exact (h.drop key).congr (connections_lose _) (lost_lose _)
      · exact (h.drop key).congr (connections_crash _ _) (lost_crash _ _)

theorem Without.pass (h : s.Without lang lost) {t : Pass} (ht : ¬ t.move.Announces lang) :
    (s.pass t).Without lang lost :=
  (h.take ht).dispatch t.write

theorem registered_take (h : s.Registered) (m : Move) : (s.take m).Registered := by
  cases m with
  | accept => exact h.congr rfl fun _ hm => hm
  | exited l => exact h.workerExited l
  | event e =>
    simp only [Loop.take]
    split
    · rename_i he
      exact registered_handle h he
    · exact h

theorem registered_pass (h : s.Registered) (t : Pass) : (s.pass t).Registered :=
  (registered_take h t.move).dispatch t.write

/-- Nothing comes of a pass while no job is pending, but for the connections. -/
theorem pass_of_pending (h : s.pending = none) (t : Pass) :
    (s.pass t).pending = none ∧ (s.pass t).replies = s.replies := by
  have htake : (s.take t.move).pending = none ∧ (s.take t.move).replies = s.replies := by
    cases t.move with
    | accept => exact ⟨h, rfl⟩
    | exited l => simp [take, workerExited, h]
    | event e =>
      simp only [take]
      split
      · obtain ⟨hp, hr⟩ := handle_of_inactive (activeFor_of_pending h e.key)
        exact ⟨hp.trans h, hr⟩
      · exact ⟨h, rfl⟩
  rw [pass, (dispatch_of_pending htake.1 _).1]
  exact htake

/-! ## A job under way -/

/-- How a job was answered, how its worker has failed it, and what the daemon then knows of the
Lang. -/
inductive Verdict (job : Job) (s : Loop) : Answer → Option Failure → Prop where
  | replied (j : Job) : Verdict job s (.done j) none
  | lost {f : Failure} : f.noticed = true →
      Verdict job s (.lost { job with active := false }) (some f)
  | broken : s.Without job.lang True →
      Verdict job s (.done (job.settle .crash
        (.str (job.lang ++ " worker disconnected during the call")))) (some .disconnected)
  | unconnected : s.Without job.lang False →
      Verdict job s (.done (job.settle .crash
        (.str (job.lang ++ " worker exited before it connected")))) (some .unconnected)
  | unreachable (reason : String) : s.Without job.lang False →
      Verdict job s (.done (job.settle .crash
        (.str ("Could not reach the " ++ job.lang ++ " worker: " ++ reason))))
        (some (.unwritten .ditlangCallback))

/-- A job without an answer waits for a worker, or a worker has it. -/
inductive Stage (job : Job) (ticket : Nat) (s : Loop) : Prop where
  | waiting {heard : Bool} : s.pending = some ⟨job, ticket, heard⟩ → s.Without job.lang False →
      Stage job ticket s
  | active {heard : Bool} {key : Nat} : s.pending = some ⟨{ job with active := true }, ticket, heard⟩ →
      (key, job.lang) ∈ s.connections → Stage job ticket s

/-- The last submission has no answer. -/
structure Unsettled (job : Job) (ticket : Nat) (s : Loop) : Prop where
  registered : s.Registered
  earlier : ∀ r ∈ s.replies, r.1 < ticket
  stage : Stage job ticket s

structure Settled (job : Job) (ticket : Nat) (s : Loop) (a : Answer) (f : Option Failure) :
    Prop where
  registered : s.Registered
  pending : s.pending = none
  answer : s.replies.lookup ticket = some a
  bound : ∀ r ∈ s.replies, r.1 < ticket + 1
  verdict : Verdict job s a f

variable {job : Job} {ticket : Nat} {heard : Bool} {a : Answer} {f : Option Failure}

theorem lookup_of_earlier (h : ∀ r ∈ s.replies, r.1 < ticket) : s.replies.lookup ticket = none := by
  refine List.lookup_eq_none_iff.2 fun r hr => ?_
  have := h r hr
  simp
  omega

theorem settled_of_replies {t : Loop} (he : ∀ r ∈ s.replies, r.1 < ticket) (hr : t.Registered)
    (hp : t.pending = none) (ht : t.replies = s.replies ++ [(ticket, a)])
    (hv : Verdict job t a f) : Settled job ticket t a f := by
  refine ⟨hr, hp, ?_, ?_, hv⟩
  · rw [ht, List.lookup_append, lookup_of_earlier he]
    simp
  · intro r hm
    rw [ht] at hm
    rcases List.mem_append.1 hm with hm | hm
    · exact Nat.lt_succ_of_lt (he r hm)
    · rw [List.mem_singleton.1 hm]
      exact Nat.lt_succ_self _

/-- A Lang that has a connection to drop is known not to be lost. -/
theorem without_drop (hr : s.Registered) {key : Nat} (hm : (key, lang) ∈ s.connections) :
    (s.drop key).Without lang False := by
  refine ⟨?_, ?_⟩
  · rw [← Bool.not_eq_true, connected_iff]
    exact hr.lang_notMem_drop (lookup_of_mem hr.keys hm)
  · exact iff_false_intro fun hl => hr.lost lang hl (List.mem_map_of_mem hm)

/-- A job that no worker has is written if its worker is connected; if that fails, a call is lost
and an answer is not heard of again. -/
theorem dispatch_waiting (hr : s.Registered) (he : ∀ r ∈ s.replies, r.1 < ticket)
    (hp : s.pending = some ⟨job, ticket, heard⟩) (hidle : job.active = false)
    (hline : job.kind.isLine) (hw : s.connected job.lang = true ∨ s.Without job.lang False)
    (write : Nat → String → Option String) :
    Unsettled job ticket (s.dispatch write) ∧ s.unwritten? write = none ∨
      ∃ a, Settled job ticket (s.dispatch write) a (s.unwritten? write) := by
  cases ho : s.outgoing? with
  | none =>
    have hsame : s.dispatch write = s ∧ s.unwritten? write = none := by
      simp [dispatch, unwritten?, ho]
    rw [hsame.1]
    refine .inl ⟨⟨hr, he, .waiting hp (hw.resolve_left ?_)⟩, hsame.2⟩
    rw [Bool.not_eq_true, connected_eq_false_iff]
    exact notMem_of_outgoing? hp hidle hline ho
  | some out =>
    obtain ⟨key, job'⟩ := out
    obtain ⟨p, hq, rfl, -, hm⟩ := outgoing_spec ho
    cases hp.symm.trans hq
    cases hwrite : write key job.wire with
    | none =>
      refine .inl ⟨⟨hr.dispatch write, ?_, ?_⟩, by simp [unwritten?, ho, hwrite]⟩
      · simpa [dispatch, ho, hwrite, written, modifyPending] using he
      · have hm' : (key, job.lang) ∈ (s.dispatch write).connections := by
          simpa [dispatch, ho, hwrite, written, modifyPending] using hm
        have hp' : (s.dispatch write).pending =
            some ⟨{ job with active := true }, ticket, false⟩ := by
          simp [dispatch, ho, hwrite, written, modifyPending, hp]
        exact .active hp' hm'
    | some reason =>
      have hfail : s.unwritten? write = some (.unwritten job.kind) := by
        simp [unwritten?, ho, hwrite]
      have hloop : s.dispatch write = s.unwritten key job reason := by
        simp [dispatch, ho, hwrite]
      have hreg := hr.dispatch write
      rw [hloop] at hreg ⊢
      have hdrop : (s.drop key).pending = some ⟨job, ticket, heard⟩ := hp
      rw [hfail]
      by_cases hk : job.kind = .callFunc
      · refine .inr ⟨.lost { job with active := false }, settled_of_replies he hreg (by simp) ?_
          (.lost (by simp [Failure.noticed, hk]))⟩
        rw [unwritten, if_pos hk, lose_eq hdrop]
        rfl
      · have hcallback : job.kind = .ditlangCallback := by
          revert hline hk
          cases job.kind <;> simp [JobKind.isLine]
        have hcrash : s.unwritten key job reason = (s.drop key).crash _ := if_neg hk
        rw [hcallback]
        refine .inr ⟨_, settled_of_replies (a := .done (job.settle .crash
          (.str ("Could not reach the " ++ job.lang ++ " worker: " ++ reason)))) he hreg (by simp)
          ?_ (.unreachable reason ?_)⟩
        · rw [hcrash, crash, settle_eq hdrop]
          rfl
        · rw [hcrash]
          exact (without_drop hr hm).congr (connections_crash _ _) (lost_crash _ _)

/-- A move while the job waits: it keeps waiting, or a worker connects, or the one it waits for has
exited. -/
theorem take_waiting (hr : s.Registered) (he : ∀ r ∈ s.replies, r.1 < ticket)
    (hp : s.pending = some ⟨job, ticket, heard⟩) (hidle : job.active = false)
    (hw : s.Without job.lang False) (m : Move) :
    ((s.take m).pending = s.pending ∧ (s.take m).replies = s.replies ∧ s.ends? m = none ∧
        ((s.take m).Without job.lang False ∨
          m.Announces job.lang ∧ (s.take m).connected job.lang = true)) ∨
      s.ends? m = some .unconnected ∧
        ∃ a, Settled job ticket (s.take m) a (some .unconnected) := by
  cases m with
  | accept => exact .inl ⟨rfl, rfl, rfl, .inl (hw.congr rfl rfl)⟩
  | exited l =>
    by_cases hl : job.lang = l
    · subst hl
      have hexit : s.take (.exited job.lang) =
          s.crash (job.lang ++ " worker exited before it connected") := by
        simp [take, workerExited, hp, hidle, hw.connected]
      refine .inr ⟨by simp [ends?, awaitsWorker, hp, hidle, hw.connected],
        .done (job.settle .crash (.str (job.lang ++ " worker exited before it connected"))), ?_⟩
      refine settled_of_replies he (registered_take hr _) ?_ ?_ (.unconnected ?_)
      · rw [hexit]
        exact pending_crash _ _
      · rw [hexit, crash, settle_eq hp]
      · rw [hexit]
        exact hw.congr (connections_crash _ _) (lost_crash _ _)
    · have hsame : s.take (.exited l) = s := by
        simp [take, workerExited, hp, hl]
      rw [hsame]
      exact .inl ⟨rfl, rfl, by simp [ends?, awaitsWorker, hp, hl], .inl hw⟩
  | event e =>
    have hn := activeFor_of_inactive hp hidle e.key
    have hends : s.ends? (.event e) = none := by
      cases e with
      | closed key =>
        rw [Event.key] at hn
        simp [ends?, hn]
      | connected | message | malformed => rfl
    left
    by_cases hd : e.Due s
    · obtain ⟨hpending, hreplies⟩ := handle_of_inactive hn
      have htake : s.take (.event e) = s.handle e := if_pos hd
      refine ⟨by rw [htake, hpending], by rw [htake, hreplies], hends, ?_⟩
      by_cases ha : (Move.event e).Announces job.lang
      · cases e with
        | connected key l =>
          have hl : l = job.lang := ha
          subst hl
          refine .inr ⟨ha, ?_⟩
          rw [htake, handle, if_neg (by simp [hw.connected]), register_of_lookup hd.2]
          simp [connected]
        | message | malformed | closed => cases ha
      · exact .inl (hw.take ha)
    · have htake : s.take (.event e) = s := if_neg hd
      rw [htake]
      exact ⟨rfl, rfl, hends, .inl hw⟩


theorem activeFor_of_active (hr : s.Registered)
    (hp : s.pending = some ⟨{ job with active := true }, ticket, heard⟩) {key : Nat}
    (hm : (key, job.lang) ∈ s.connections) {k : Nat} : s.activeFor k = true ↔ k = key := by
  rw [activeFor_iff hr]
  constructor
  · rintro ⟨p, hp', -, hk⟩
    cases hp.symm.trans hp'
    exact hr.key_unique hk hm
  · rintro rfl
    exact ⟨_, hp, rfl, hm⟩

/-- The connection of the worker that has the job ends. -/
theorem onClosed_active (hr : s.Registered) (he : ∀ r ∈ s.replies, r.1 < ticket)
    (hp : s.pending = some ⟨{ job with active := true }, ticket, heard⟩) {key : Nat}
    (hm : (key, job.lang) ∈ s.connections) :
    ∃ a, Settled job ticket (s.onClosed key) a (some .disconnected) := by
  have hn := (activeFor_of_active hr hp hm).2 rfl
  have hk := lookup_of_mem hr.keys hm
  have hpending := pending_onClosed hn
  have hdrop : (s.drop key).pending = some ⟨{ job with active := true }, ticket, heard⟩ := hp
  cases hcall : s.unansweredCall with
  | true =>
    have hclosed : s.onClosed key = (s.drop key).lose := by
      simp [onClosed, hk, hn, hcall]
    refine ⟨_, settled_of_replies (a := .lost { job with active := false }) he (hr.onClosed key)
      hpending ?_ (.lost rfl)⟩
    rw [hclosed, lose_eq hdrop]
    rfl
  | false =>
    refine ⟨_, settled_of_replies (a := .done (job.settle .crash
      (.str (job.lang ++ " worker disconnected during the call")))) he (hr.onClosed key) hpending ?_
      (.broken ⟨?_, ?_⟩)⟩
    all_goals
      simp only [onClosed, hk, hn, hcall, Bool.and_false, Bool.false_eq_true, if_false, if_true]
    · rw [crash, settle_eq hdrop]
      rfl
    · exact (connected_congr (connections_crash _ _)).trans (without_drop hr hm).connected
    · split
      · rename_i hl
        simpa using hl
      · simp

/-- A move while a worker has the job: it keeps the job, or it answers, or its connection ends. -/
theorem take_active (hr : s.Registered) (he : ∀ r ∈ s.replies, r.1 < ticket)
    (hp : s.pending = some ⟨{ job with active := true }, ticket, heard⟩) {key : Nat}
    (hm : (key, job.lang) ∈ s.connections) (m : Move) :
    (∃ heard', (s.take m).pending = some ⟨{ job with active := true }, ticket, heard'⟩ ∧
        (s.take m).replies = s.replies ∧ (key, job.lang) ∈ (s.take m).connections ∧
        s.ends? m = none) ∨
      ∃ a, Settled job ticket (s.take m) a (s.ends? m) := by
  cases m with
  | accept => exact .inl ⟨heard, hp, rfl, hm, rfl⟩
  | exited l =>
    have hsame : s.take (.exited l) = s := by
      simp [take, workerExited, hp]
    rw [hsame]
    exact .inl ⟨heard, hp, rfl, hm, by simp [ends?, awaitsWorker, hp]⟩
  | event e =>
    by_cases hd : e.Due s
    swap
    · have htake : s.take (.event e) = s := if_neg hd
      rw [htake]
      refine .inl ⟨heard, hp, rfl, hm, ?_⟩
      cases e with
      | connected => rfl
      | message | malformed | closed => exact absurd trivial hd
    have htake : s.take (.event e) = s.handle e := if_pos hd
    have hn := @activeFor_of_active s job ticket heard hr hp key hm
    have hreplied : ∀ kind result, s.handle e = s.settle kind result → s.ends? (.event e) = none →
        ∃ a, Settled job ticket (s.take (.event e)) a (s.ends? (.event e)) := by
      intro kind result hsettle hends
      rw [hends]
      refine ⟨_, settled_of_replies (a := .done (job.settle kind result)) he
        (registered_take hr _) ?_ ?_ (.replied _)⟩
      · rw [htake, hsettle]
        exact pending_settle _ _ _
      · rw [htake, hsettle, settle_eq hp]
        rfl
    by_cases hkey : e.key = key
    · subst hkey
      have hkey := hn.2 rfl
      cases e with
      | connected k l =>
        have := lookup_of_mem hr.keys hm
        rw [Event.key, hd.2] at this
        cases this
      | malformed k line => exact .inr (hreplied .crash _ (if_pos hkey) rfl)
      | closed k =>
        have hends : s.ends? (.event (.closed k)) = some .disconnected := if_pos hkey
        rw [htake, hends]
        exact .inr (onClosed_active hr he hp hm)
      | message k m =>
        cases m with
        | crash result => exact .inr (hreplied .crash result (if_pos hkey) rfl)
        | exeDitlang result => exact .inr (hreplied .exeDitlang result (if_pos hkey) rfl)
        | finishFunc result => exact .inr (hreplied .finishFunc result (if_pos hkey) rfl)
        | connect l =>
          have hsame : s.handle (.message k (.connect l)) = s := if_pos hkey
          rw [htake, hsame]
          exact .inl ⟨heard, hp, rfl, hm, rfl⟩
        | heart =>
          have hheard : s.handle (.message k .heart) =
              s.modifyPending fun p => { p with heard := true } := if_pos hkey
          rw [htake, hheard]
          exact .inl ⟨true, by simp [modifyPending, hp], rfl, hm, rfl⟩
    · have hoff : s.activeFor e.key = false := by
        rw [← Bool.not_eq_true, hn]
        exact hkey
      obtain ⟨hpending, hreplies⟩ := handle_of_inactive hoff
      rw [htake]
      refine .inl ⟨heard, hpending.trans hp, hreplies, mem_connections_handle hm hd hkey, ?_⟩
      cases e with
      | closed k =>
        rw [Event.key] at hoff
        simp [ends?, hoff]
      | connected | message | malformed => rfl

/-- A pass leaves a job as it was, or answers it. -/
theorem Unsettled.pass (h : Unsettled job ticket s) (hidle : job.active = false)
    (hline : job.kind.isLine) (t : Pass) :
    Unsettled job ticket (s.pass t) ∧ s.failure? t = none ∨
      ∃ a, Settled job ticket (s.pass t) a (s.failure? t) := by
  obtain ⟨hr, he, hstage⟩ := h
  have hreg := registered_take hr t.move
  have hanswered : ∀ {a f}, Settled job ticket (s.take t.move) a f → f = s.ends? t.move →
      Settled job ticket (s.pass t) a (s.failure? t) := by
    intro a f h hf
    obtain ⟨hloop, hnone⟩ := dispatch_of_pending h.pending t.write
    rw [Loop.pass, failure?, hloop, hnone, Option.or_none, ← hf]
    exact h
  cases hstage with
  | waiting hp hw =>
    rcases take_waiting hr he hp hidle hw t.move with ⟨hp', hr', hends, hw'⟩ | ⟨hends, a, h⟩
    · rw [Loop.pass, failure?, hends, Option.none_or]
      refine dispatch_waiting hreg (hr' ▸ he) (hp'.trans hp) hidle hline ?_ t.write
      rcases hw' with hw' | ⟨-, hc⟩
      · exact .inr hw'
      · exact .inl hc
    · exact .inr ⟨a, hanswered h hends.symm⟩
  | active hp hm =>
    rcases take_active hr he hp hm t.move with ⟨heard', hp', hr', hm', hends⟩ | ⟨a, h⟩
    · obtain ⟨hloop, hnone⟩ := dispatch_of_active hp' rfl t.write
      rw [Loop.pass, failure?, hloop, hnone, hends]
      exact .inl ⟨⟨hreg, hr' ▸ he, .active hp' hm'⟩, rfl⟩
    · exact .inr ⟨a, hanswered h rfl⟩


/-- A job that waits where no worker becomes known goes on waiting, or the report comes that the
worker has exited. -/
theorem pass_waiting (hr : s.Registered) (he : ∀ r ∈ s.replies, r.1 < ticket)
    (hp : s.pending = some ⟨job, ticket, heard⟩) (hidle : job.active = false)
    (hw : s.Without job.lang False) {t : Pass} (ht : ¬ t.move.Announces job.lang) :
    ((s.pass t).pending = some ⟨job, ticket, heard⟩ ∧ (s.pass t).replies = s.replies) ∨
      s.failure? t = some .unconnected ∧
        ∃ a, Settled job ticket (s.pass t) a (some .unconnected) := by
  rcases take_waiting hr he hp hidle hw t.move with ⟨hp', hr', -, -⟩ | ⟨hends, a, h⟩
  · have hw' := hw.take ht
    have hsame := (dispatch_eq_self (hp'.trans hp) hw'.connected t.write).1
    rw [Loop.pass, hsame]
    exact .inl ⟨hp'.trans hp, hr'⟩
  · have hsame := (dispatch_of_pending h.pending t.write).1
    rw [Loop.pass, hsame, failure?, hends]
    exact .inr ⟨rfl, a, h⟩

end Loop

/-- No worker of the Lang becomes known. -/
def Silent (lang : String) (passes : List Pass) : Prop :=
  ∀ t ∈ passes, ¬ t.move.Announces lang

namespace Bench

open Loop

variable {b b' : Bench} {job : Job} {ticket : Nat} {a : Answer}

theorem launches_submit (hs : b.submit job = some (a, b')) :
    b'.launches = b.launches := by
  have hawait : ∀ passes (c : Bench), await b.tickets passes c = some (a, b') →
      b'.launches = c.launches := by
    intro passes
    induction passes with
    | nil =>
      intro c hc
      obtain ⟨_, -, he⟩ := Option.map_eq_some_iff.1 hc
      cases he
      rfl
    | cons t passes ih =>
      intro c hc
      rw [await] at hc
      split at hc
      · cases hc
        rfl
      · exact ih (c.pass t) hc
  exact hawait (b.waits.headD {}).passes (b.enter job (b.waits.headD {}).write) hs

/-- Between two submissions. -/
structure AtRest (b : Bench) : Prop where
  registered : b.loop.Registered
  pending : b.loop.pending = none
  bound : ∀ r ∈ b.loop.replies, r.1 < b.tickets

theorem AtRest.pass (h : b.AtRest) (t : Pass) : (b.pass t).AtRest := by
  obtain ⟨hp, hr⟩ := pass_of_pending h.pending t
  refine ⟨registered_pass h.registered t, hp, ?_⟩
  rw [Bench.pass, hr]
  exact h.bound

/-- The last submission is that of the job. -/
def Underway (job : Job) (ticket : Nat) (b : Bench) : Prop :=
  Unsettled job ticket b.loop ∧ b.failure = none ∨ ∃ a, Settled job ticket b.loop a b.failure

/-- A job whose worker has gone is lost as it is submitted. -/
theorem submit_gone (h : b.AtRest) (hg : b.loop.gone job.lang = true) :
    (b.loop.submit job b.tickets).pending = none ∧
      (b.loop.submit job b.tickets).replies =
        b.loop.replies ++ [(b.tickets, .lost { job with active := false })] := by
  rw [gone] at hg
  simp only [Loop.submit, h.pending, Option.isSome_none, Bool.false_eq_true, if_false, if_pos hg]
  exact ⟨pending_lose _, rfl⟩

theorem submit_eq (h : b.AtRest) (hg : b.loop.gone job.lang = false) :
    b.loop.submit job b.tickets = { b.loop with pending := some ⟨job, b.tickets, false⟩ } := by
  rw [gone] at hg
  simp only [Loop.submit, h.pending, Option.isSome_none, Bool.false_eq_true, if_false, hg]

theorem underway_enter (h : b.AtRest) (hidle : job.active = false) (hline : job.kind.isLine)
    (write : Nat → String → Option String) : Underway job b.tickets (b.enter job write) := by
  have hreg := h.registered.submit job b.tickets
  cases hg : b.loop.gone job.lang with
  | true =>
    obtain ⟨hp, hr⟩ := submit_gone h hg
    simp only [Underway, enter, hg, if_true, (dispatch_of_pending hp write).1]
    exact .inr ⟨_, settled_of_replies h.bound hreg hp hr (.lost rfl)⟩
  | false =>
    have hloop := submit_eq h hg
    have hw : b.loop.connected job.lang = true ∨ b.loop.Without job.lang False := by
      cases hc : b.loop.connected job.lang with
      | true => exact .inl rfl
      | false =>
        refine .inr ⟨hc, iff_false_intro fun hl => ?_⟩
        simp [gone, hc, hl] at hg
    rw [hloop] at hreg
    simp only [Underway, enter, hg, Bool.false_eq_true, if_false, hloop]
    exact dispatch_waiting hreg h.bound rfl hidle hline
      (hw.imp id fun hw => hw.congr rfl rfl) write

/-- A job that was submitted is answered by one of the passes. -/
theorem await_settles (hidle : job.active = false) (hline : job.kind.isLine) {passes : List Pass}
    (h : Underway job ticket b) (hs : await ticket passes b = some (a, b')) :
    Settled job ticket b'.loop a b'.failure ∧ b'.tickets = b.tickets := by
  induction passes generalizing b with
  | nil =>
    obtain ⟨a', ha, he⟩ := Option.map_eq_some_iff.1 hs
    cases he
    rcases h with ⟨h, -⟩ | ⟨a', h⟩
    · rw [lookup_of_earlier h.earlier] at ha
      cases ha
    · cases h.answer.symm.trans ha
      exact ⟨h, rfl⟩
  | cons t passes ih =>
    rw [await] at hs
    rcases h with ⟨h, -⟩ | ⟨a', h⟩
    · rw [lookup_of_earlier h.earlier] at hs
      exact ih (b := b.pass t) (h.pass hidle hline t) hs
    · rw [h.answer] at hs
      cases hs
      exact ⟨h, rfl⟩

/-- A submission that is answered leads from rest to rest. -/
theorem submit_settles (h : b.AtRest) (hidle : job.active = false) (hline : job.kind.isLine)
    (hs : b.submit job = some (a, b')) :
    b'.AtRest ∧ Verdict job b'.loop a b'.failure := by
  obtain ⟨hsettled, ht⟩ := await_settles hidle hline (underway_enter h hidle hline _) hs
  refine ⟨⟨hsettled.registered, hsettled.pending, ?_⟩, hsettled.verdict⟩
  rw [ht]
  exact hsettled.bound

theorem await_of_answer {passes : List Pass} (h : b.loop.replies.lookup ticket = some a) :
    await ticket passes b = some (a, b) := by
  cases passes with
  | nil => simp [await, h]
  | cons t passes => simp [await, h]

/-- A job whose worker has gone is answered before anything else happens. -/
theorem submit_of_gone (h : b.AtRest) (hg : b.loop.gone job.lang = true) :
    ∃ b₁ : Bench, b.submit job = some (.lost { job with active := false }, b₁) ∧
      b₁.launches = b.launches ∧ b₁.taken = b.taken := by
  obtain ⟨hp, hr⟩ := submit_gone h hg
  refine ⟨_, await_of_answer ?_, rfl, rfl⟩
  rw [enter, (dispatch_of_pending hp _).1, hr, List.lookup_append, lookup_of_earlier h.bound]
  simp

/-- Where no worker becomes known, a job that waits for one is answered by the report that the worker
has exited, if it is answered. -/
theorem await_waiting (hidle : job.active = false) {passes : List Pass} {heard : Bool}
    (hr : b.loop.Registered) (he : ∀ r ∈ b.loop.replies, r.1 < ticket)
    (hp : b.loop.pending = some ⟨job, ticket, heard⟩) (hw : b.loop.Without job.lang False)
    (hsilent : Silent job.lang passes) (hs : await ticket passes b = some (a, b')) :
    b'.failure = some .unconnected ∧ Verdict job b'.loop a (some .unconnected) := by
  induction passes generalizing b with
  | nil =>
    rw [await, lookup_of_earlier he] at hs
    cases hs
  | cons t passes ih =>
    rw [await, lookup_of_earlier he] at hs
    have ht := hsilent t List.mem_cons_self
    rcases pass_waiting hr he hp hidle hw ht with ⟨hp', hr'⟩ | ⟨hf, a', h⟩
    · refine ih (b := b.pass t) (registered_pass hr t) ?_ hp' (hw.pass ht)
        (fun t' ht' => hsilent t' (List.mem_cons_of_mem _ ht')) hs
      rw [Bench.pass, hr']
      exact he
    · rw [await_of_answer (b := b.pass t) h.answer] at hs
      cases hs
      exact ⟨hf, h.verdict⟩

theorem submit_waiting (h : b.AtRest) (hidle : job.active = false) (hw : b.loop.Without job.lang False)
    (hsilent : ∀ w ∈ b.waits, Silent job.lang w.passes) (hs : b.submit job = some (a, b')) :
    b'.failure = some .unconnected ∧ Verdict job b'.loop a (some .unconnected) := by
  have hg : b.loop.gone job.lang = false := by
    have := hw.mark
    simp [gone, hw.connected, this]
  have hreg := h.registered.submit job b.tickets
  have hloop : b.loop.submit job b.tickets =
      { b.loop with pending := some ⟨job, b.tickets, false⟩ } := submit_eq h hg
  rw [hloop] at hreg
  have hw' : Loop.Without { b.loop with pending := some ⟨job, b.tickets, false⟩ } job.lang False :=
    hw.congr rfl rfl
  have hsame := (dispatch_eq_self (s := { b.loop with pending := some ⟨job, b.tickets, false⟩ }) rfl
    hw'.connected (b.waits.headD {}).write).1
  have henter : (b.enter job (b.waits.headD {}).write).loop =
      { b.loop with pending := some ⟨job, b.tickets, false⟩ } := by
    rw [enter, hloop]
    exact hsame
  have hpending : (b.enter job (b.waits.headD {}).write).loop.pending =
      some ⟨job, b.tickets, false⟩ := by rw [henter]
  refine await_waiting hidle ?_ ?_ hpending ?_ ?_ hs
  · rw [henter]
    exact hreg
  · rw [henter]
    exact h.bound
  · rw [henter]
    exact hw'
  · cases hwaits : b.waits with
    | nil => exact fun t ht => nomatch ht
    | cons w waits => exact hsilent w (hwaits ▸ List.mem_cons_self)

end Bench
end Guest
end Ditlang
