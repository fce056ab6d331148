import Ditlang.Proofs.History.Calls

/-!
# Ditlang.Proofs.History.Bodies

Whole bodies under the law of the log: whatever a body reports has a place of the body when it comes out,
unless it had one already. With this the evaluator keeps to the law at every depth, by induction on the
depth.
-/

namespace Ditlang

section Annotate

variable {a : Activation} {log : List BodyEvent} {r : Reading} {e : Failure}

theorem Reading.annotate_of_isSome (r : Reading) {d : Diagnostic} (hd : d.origin.isSome) :
    r.annotate (.diagnostic d) = .diagnostic d :=
  congrArg Failure.diagnostic (if_pos hd)

/-- What has none gets the place it was raised at, or else that of the token before the one ahead. -/
theorem Reading.annotate_of_none (r : Reading) {d : Diagnostic} (hd : d.origin = none) :
    r.annotate (.diagnostic d) = .diagnostic { d with
      origin := some ⟨r.path, d.pending.getD r.curr.loc,
        r.feed.view.lineText (d.pending.getD r.curr.loc).pos⟩
      pending := none } := by
  show Failure.diagnostic (d.annotate r.path (d.pending.getD r.curr.loc)
    (r.feed.view.lineText (d.pending.getD r.curr.loc).pos)) = _
  rw [Diagnostic.annotate, if_neg (by simp [Diagnostic.isAnnotated, hd])]
  cases d.pending <;> rfl

/-- What a body reports has a place of the body when it comes out, or it had a place before. -/
theorem Reading.leaves_annotate (hr : r.Within a) (he : Reported a.view log e) :
    History.Leaves a log (r.annotate e) := by
  cases he with
  | io reason => exact .io reason
  | @raised d hcalm ho hp =>
    have hon : (d.pending.getD r.curr.loc).On a.view := by
      cases hpending : d.pending with
      | none => exact hr.curr.loc
      | some l => exact hp l hpending
    rw [annotate_of_none r ho]
    refine .caught hcalm rfl ?_
    rw [hr.path, hr.feed.view]
    exact Origin.at_lineText hon a.path
  | @carried d frames hflight ho =>
    have hd : ({ d with trace := d.trace ++ frames } : Diagnostic).origin.isSome := ho
    rw [annotate_of_isSome r hd]
    exact .carried frames hflight
  | fenced hhead ho hat =>
    rw [annotate_of_isSome r (by rw [ho]; rfl)]
    exact .fenced hhead ho hat

/-- What has come out of a body has a place. -/
theorem Reading.isSome_annotate {d : Diagnostic} (hd : r.annotate e = .diagnostic d) :
    d.origin.isSome := by
  cases e with
  | io reason => cases hd
  | diagnostic d₀ =>
    cases ho : d₀.origin with
    | none =>
      rw [annotate_of_none r ho] at hd
      cases hd
      rfl
    | some o =>
      rw [annotate_of_isSome r (by rw [ho]; rfl)] at hd
      cases hd
      rw [ho]
      rfl

theorem Reading.isCritical_annotate (he : (r.annotate e).IsCritical) : e.IsCritical := by
  cases e with
  | io reason => exact he
  | diagnostic d =>
    cases ho : d.origin with
    | none =>
      rw [annotate_of_none r ho] at he
      exact he
    | some o =>
      rw [annotate_of_isSome r (by rw [ho]; rfl)] at he
      exact he

end Annotate

namespace Eval

variable {d : Deeper}

/-- The state in which the statements of a body start to run. -/
theorem stands_enter {x : Activation} {s : EvalState} (hs : s.Enters x) (fragment : Bool) :
    (s.enter x.body x.path x.view fragment).Stands x (History.active s.session.log) := by
  have hv : x.view.Placed := by
    cases hs.recorded.kept with
    | began _ hv => exact hv
  have hstart : (Token.eof x.view.startLoc).On x.view := Token.on_eof hv.on_start
  refine ⟨⟨⟨hs.sound.session.note _, Reading.valid_start hs.there _ _ _⟩,
    ⟨hs.sourced, hs.recorded, hs.unlocated.of_daemon rfl⟩, rfl, ?_⟩, rfl⟩
  exact ⟨rfl, hv, hv.on_ofView, hstart, hstart, hstart⟩

theorem returns_runBody (hd : d.Keeping) {x : Activation} {s : EvalState} (hs : s.Enters x)
    (fragment : Bool) : (runBody d x.body x.path x.view fragment s).Returns x s := by
  have hl := obeys_statements (obeys_of_keeping hd x _) _ (stands_enter hs fragment) rfl
  unfold runBody
  revert hl
  cases statements d (s.enter x.body x.path x.view fragment) with
  | done signal t =>
    rintro ⟨ht, -, honward, -⟩
    have hkept := ht.session.recorded.kept.finished signal ht.active
    refine ⟨⟨rfl, ⟨ht.session.sourced, ht.session.recorded.note (fun _ => rfl) nofun hkept,
      ht.session.unlocated.of_daemon rfl⟩, ?_, honward.trans (.note _ _)⟩, rfl⟩
    exact congrArg List.tail ht.active
  | failed e t =>
    rintro ⟨ht, -, honward, hreported, hcritical⟩
    have hleaves := Reading.leaves_annotate ht.reading hreported
    have hkept := ht.session.recorded.kept.failed ht.active hleaves
    refine ⟨⟨rfl, ⟨ht.session.sourced, ht.session.recorded.note (fun _ => rfl) nofun hkept,
      ht.session.unlocated.of_daemon rfl⟩, ?_, honward.trans (.note _ _)⟩, rfl,
      fun _ => Reading.isSome_annotate, fun hc => hcritical (Reading.isCritical_annotate hc)⟩
    exact congrArg List.tail ht.active
  | outOfFuel => exact fun _ => trivial

/-- The evaluator keeps to the law of the log at every depth. -/
theorem deeper_keeping (rounds fuel : Nat) : Deeper.Keeping ⟨rounds, termAt fuel, bodyAt fuel⟩ := by
  induction fuel generalizing rounds with
  | zero => exact ⟨deeper_sound rounds 0, fun _ _ _ _ _ _ => trivial, fun _ _ _ _ => trivial⟩
  | succ fuel ih =>
    refine ⟨deeper_sound rounds (fuel + 1), fun a outer h s hs hh => ?_, fun x fragment s hs => ?_⟩
    · exact obeys_term (obeys_of_keeping (ih fuel) a outer) s hs hh
    · exact returns_runBody (ih fuel) hs fragment

end Eval
end Ditlang
