import Ditlang.Proofs.History.Law

/-!
# Ditlang.Proofs.History.Running

Running a body inside another one. The evaluator one level deeper is asked to bring every body back
that it was given (`Deeper.Keeping`): with what was being read before, with the bodies active that were
active before, and with a failure that has its place. A body that comes back is a step of the one around
it (`keeps_body`), also when it is that of a class or a Lang, which only counts as interpreted if it
has begun (`keeps_ensureReady`).
-/

namespace Ditlang

open Source (Location View)

/-- A state in which a body can be run. -/
structure EvalState.Enters (s : EvalState) (x : Activation) : Prop where
  sound : s.Sound
  there : x.body.index < s.session.heap.containers.size
  sourced : s.session.heap.Sourced
  recorded : History.Recorded s.session.heap (.began x :: s.session.log)
  unlocated : s.session.Unlocated

/-- A state in which a body came back that was run in another state. -/
structure EvalState.After (s : EvalState) (x : Activation) (t : EvalState) : Prop where
  reading : t.reading = s.reading
  session : t.session.Orderly
  active : History.active t.session.log = History.active s.session.log
  onward : (s.session.note (.began x)).Onward t.session

/-- A failure that has come out of a body: a diagnostic has its place. -/
structure Failure.Left (e : Failure) (s : Session) : Prop where
  inFlight : History.inFlight s.log = some e
  placed : ∀ d, e = .diagnostic d → d.origin.isSome
  ordinary : e.IsCritical → s.daemon.isSome

/-- How a body comes back. -/
def Outcome.Returns (x : Activation) (s : EvalState) : Outcome BodyResult → Prop
  | .done _ t => s.After x t ∧ t.session.Calm
  | .failed e t => s.After x t ∧ e.Left t.session
  | .outOfFuel => True

/-- The evaluator one level deeper keeps to the law of the log. -/
structure Deeper.Keeping (d : Deeper) : Prop where
  sound : d.Sound
  term : ∀ a outer h, Eval.Obeys (logLaw a outer) h d.term fun h' v => v.Valid h'
  body : ∀ x fragment s, EvalState.Enters s x →
    (d.body x.body x.path x.view fragment s).Returns x s

/-- A body whose run began is one that was begun in the past. -/
theorem Session.Onward.mem {s s' : Session} {e : BodyEvent} (h : (s.note e).Onward s') : e ∈ s'.log :=
  h.log.subset List.mem_cons_self

namespace Eval

variable {a x : Activation} {outer : List Activation} {h : Heap} {d : Deeper}

/-- A body that comes back is a step of the body in which it was run. -/
theorem keeps_of_returns {s s₁ : EvalState} (hs : s.Stands a outer)
    {o : Outcome BodyResult} (ho : o.Returns x s₁) (hreading : s₁.reading = s.reading)
    (hlog : s₁.session.log = s.session.log) (honward : s.session.Onward s₁.session)
    {Q : Heap → BodyResult → Prop} (hleads : o.Leads s₁.session Q) :
    o.Obeys (logClauses a outer) s.session fun h' r => Q h' r ∧
      ((h'.container x.body).kind.isLazy → (h'.container x.body).interpreted) := by
  have hinside : ∀ t : EvalState, t.Sound → s₁.After x t →
      t.Inside a outer ∧ s.session.Onward t.session := by
    intro t hsound hafter
    refine ⟨⟨hsound, hafter.session, ?_, ?_⟩, honward.trans (.trans (.note _ _) hafter.onward)⟩
    · rw [hafter.active, hlog]
      exact hs.active
    · rw [hafter.reading, hreading]
      exact hs.reading
  cases o with
  | done r t =>
    obtain ⟨hafter, hcalm⟩ := ho
    obtain ⟨ht, hst⟩ := hinside t hleads.1 hafter
    refine ⟨⟨ht, hcalm⟩, hst.steps, hst, hleads.2.2.2, fun hlazy => ?_⟩
    exact hafter.session.recorded.interpreted hlazy hafter.onward.mem
  | failed e t =>
    obtain ⟨hafter, hleft⟩ := ho
    obtain ⟨ht, hst⟩ := hinside t hleads.1 hafter
    refine ⟨ht, hst.steps, hst, ?_, hleft.ordinary⟩
    cases e with
    | io reason => exact .io reason
    | diagnostic d => simpa using Reported.carried [] hleft.inFlight (hleft.placed d rfl)
  | outOfFuel => trivial

theorem keeps_body (hd : d.Keeping) (hx : h.Plain x.body) (hv : x.view.Placed) (fragment : Bool) :
    Obeys (logLaw a outer) h (d.body x.body x.path x.view fragment) fun h' r => r.Valid h' := by
  rintro s hs rfl
  have hleads := hd.sound.body _ x.body x.path x.view fragment hx.there s hs.sound rfl
  have hret := hd.body x fragment s ⟨hs.sound, hx.there, hs.session.sourced,
    hs.session.recorded.began hx hv, hs.session.unlocated⟩
  exact (keeps_of_returns hs hret rfl rfl (.refl _) hleads).mono fun _ _ _ hr => hr.1

/-! ## Classes and Langs -/

/-- A body begins that waits to be interpreted, and counts as interpreted from then on. -/
theorem keeps_begin (hd : d.Keeping) {c : ContainerId} {b : Body}
    (hb : (h.container c).body = some b) (hi : b.interpreted = false) :
    Obeys (logLaw a outer) h (setHeap (h.modifyContainer c fun x =>
        { x with body := some { b with interpreted := true } }) >>= fun _ =>
      d.body c b.path b.view false) fun h' _ =>
        (h'.container c).kind.isLazy → (h'.container c).interpreted := by
  rintro s hs rfl
  have hstep : s.session.heap.Step (s.session.heap.modifyContainer c fun x =>
      { x with body := some { b with interpreted := true } }) := .describe c fun _ => rfl
  have hrecorded := hs.session.recorded.interpret hb hi ((hs.session.sourced c).placed b hb)
  have hthere := hrecorded.body _ List.mem_cons_self
  have hsound := hs.sound.setHeap (.single hstep)
  have hleads := hd.sound.body _ c b.path b.view false hthere _ hsound rfl
  have hret := hd.body ⟨c, b.path, b.view⟩ false _ ⟨hsound, hthere, hs.session.sourced.interpret hb,
    hrecorded, hs.session.unlocated.of_daemon rfl⟩
  have hl := keeps_of_returns hs hret rfl rfl ⟨.single hstep, List.suffix_refl _, id⟩ hleads
  exact hl.mono fun _ _ _ hr => hr.2

theorem interpreted_of_waitingBody? {c : ContainerId} (hw : waitingBody? h c = none)
    (hbody : (h.container c).body.isSome) : (h.container c).interpreted := by
  obtain ⟨b, hb⟩ := Option.isSome_iff_exists.1 hbody
  simp only [waitingBody?, hb] at hw
  split at hw
  · rename_i hi
    simpa [Container.interpreted, hb] using hi
  · cases hw

/-- The body of a class or a Lang, unless it was begun before. -/
theorem keeps_interpret (hd : d.Keeping) {c : ContainerId} (hc : c.index < h.containers.size)
    (hlazy : (h.container c).kind.isLazy) (hbody : (h.container c).body.isSome) :
    Obeys (logLaw a outer) h (interpret d c) fun h' _ => (h'.container c).interpreted := by
  unfold interpret
  refine .bind_heap ?_
  split
  · rename_i hw
    exact .pure (interpreted_of_waitingBody? hw hbody)
  · rename_i b hw
    obtain ⟨hb, hi⟩ := body_of_waitingBody? hw
    have hbegin : Obeys (logLaw a outer) h _ _ :=
      obeys_traced (f := fun _ e => e.traced b.path b.defLoc (bodyTag h c))
        (keeps_begin hd hb hi) fun _ _ => ⟨_, _, _, rfl⟩
    rw [← bind_assoc]
    refine Obeys.bind hbegin fun h' r hst hr => ?_
    have hi' := hr ((hst.grows.isLazy_iff hc).2 hlazy)
    split
    · exact obeys_uncaught _
    · exact .pure hi'

theorem keeps_ready {c : ContainerId} (hc : c.index < h.containers.size)
    (hlazy : (h.container c).kind.isLazy) (hi : (h.container c).interpreted) :
    Obeys (logLaw a outer) h (note (.ready c)) fun _ _ => True := by
  rintro s hs rfl
  have hbegun := hs.session.recorded.lazy c hlazy
  rw [if_pos hi] at hbegun
  refine ⟨hs.note (fun _ => rfl) (fun _ => rfl) (fun _ => rfl) ?_
    (hs.session.recorded.kept.ready hbegun), .refl, .note _ _, trivial⟩
  rintro _ ⟨⟩
  exact ⟨hc, hlazy⟩

theorem keeps_ensureReady (hd : d.Keeping) {c : ContainerId} (hc : c.index < h.containers.size)
    (hlazy : (h.container c).kind.isLazy) (hbody : (h.container c).body.isSome) :
    Obeys (logLaw a outer) h (ensureReady d c) fun _ _ => True :=
  (keeps_interpret hd hc hlazy hbody).bind fun _ _ hst hi =>
    keeps_ready (Nat.lt_of_lt_of_le hc hst.grows.containers) ((hst.grows.isLazy_iff hc).2 hlazy) hi

end Eval
end Ditlang
