import Ditlang.Proofs.Agree.Closing
import Ditlang.Proofs.Agree.Statements

/-!
# Ditlang.Proofs.Agree.Joined

One source after another. A program in a source that goes on runs as it does alone up to its end
(`exists_joint`), because no statement looks beyond its own last token (`closes_statement`); and
then the statements that follow run as they do in a source of their own (`agreesWith_anew`).
-/

namespace Ditlang

open Source (Location View Feed)

/-- The state after bytes are passed over. -/
def EvalState.skip (s : EvalState) (n : Nat) : EvalState :=
  { s with reading := { s.reading with feed := s.reading.feed.advance n } }

def EvalState.facing (s : EvalState) (token : Token) : EvalState :=
  { s with reading := { s.reading with next := token } }

/-- How a run is compared with itself. -/
def Pairing.alone (s : EvalState) : Pairing :=
  ⟨s.session.main, s.session.mainPath, s.reading.body, s.reading.path, none,
    s.reading.feed.rest.length, true⟩

theorem linked_alone (s : EvalState) : Linked (.alone s) s s :=
  ⟨.refl _, rfl, rfl, rfl, rfl, ⟨rfl, rfl, rfl, rfl, rfl⟩, .same _ rfl, Nat.le_refl _, fun _ => rfl,
    fun hmore => absurd rfl hmore⟩

namespace Eval

variable {α : Type} {d : Deeper} {p : Pairing} {s t u : EvalState}

/-! ## One round -/

/-- How a round of running statements can end, after its first token. -/
inductive Round (d : Deeper) (s : EvalState) : Unit ⊕ Signal → EvalState → Prop where
  | ended : s.reading.next.kind = .eof → Round d s (.inr .normal) s
  | empty : s.reading.next.kind = .punct .semi → Round d s (.inl ()) s
  | went {u : EvalState} : s.reading.next.kind ≠ .eof → statement d s = .done .normal u →
      Round d s (.inl ()) u
  | left {u : EvalState} {signal : Signal} : statement d s = .done signal u → signal ≠ .normal →
      Round d s (.inr signal) u

theorem statementHere_round (d : Deeper) (s : EvalState) :
    Yields s (statementHere d) (Round d s) := by
  unfold statementHere
  refine .gets ?_
  split
  · rename_i hkind
    rintro _ _ ⟨⟩
    exact .ended hkind
  · rename_i hkind
    rintro _ _ ⟨⟩
    exact .empty hkind
  · rename_i heof _
    refine .bind fun signal u hdone => ?_
    split
    · rintro _ _ ⟨⟩
      exact .went heof hdone
    · rename_i hnormal
      rintro _ _ ⟨⟩
      exact .left hdone hnormal

theorem advance_keeps {resolveNames : Bool} (hdone : advance resolveNames s = .done () u) :
    u.session = s.session ∧ u.reading.body = s.reading.body ∧
      u.reading.fragment = s.reading.fragment := by
  rw [advance_apply] at hdone
  split at hdone
  · cases hdone
    exact ⟨rfl, rfl, rfl⟩
  · cases hdone

/-- A token that is not the end takes bytes. -/
theorem advance_shorter {resolveNames : Bool} (hdone : advance resolveNames s = .done () u)
    (hkind : u.reading.next.kind ≠ .eof) :
    u.reading.feed.rest.length < s.reading.feed.rest.length := by
  rw [advance_apply] at hdone
  split at hdone
  · rename_i hfind
    cases hdone
    obtain ⟨hle, hpos, -⟩ := Lexer.find_append hfind hkind []
    simp only [Reading.take, Feed.advance_rest, List.length_drop]
    omega
  · cases hdone

theorem Agrees.rest_le [Likeness α] {x : Eval α} {P : Heap → α → Prop} {a : α}
    (hx : Agrees (.alone s) s.session.heap x x P) (hs : s.Sound) (hdone : x s = .done a u) :
    u.reading.feed.rest.length ≤ s.reading.feed.rest.length := by
  have ha := hx.agrees s s hs rfl (linked_alone s)
  rw [hdone] at ha
  rcases ha with hlost | ⟨_, _, -, -, hlinked⟩
  · exact absurd rfl hlost.more
  · exact hlinked.rest

/-- Whether it succeeds or fails, a computation keeps the main dit. -/
theorem Agrees.main_eq [Likeness α] {x : Eval α} {P : Heap → α → Prop}
    (hx : Agrees (.alone s) s.session.heap x x P) (hs : s.Sound)
    (hu : (∃ a, x s = .done a u) ∨ ∃ e, x s = .failed e u) :
    u.session.main = s.session.main ∧ s.session.heap.Steps u.session.heap := by
  have hl := hx.lands s hs rfl
  have ha := hx.agrees s s hs rfl (linked_alone s)
  rcases hu with ⟨a, hdone⟩ | ⟨e, hfailed⟩
  · rw [hdone] at hl ha
    rcases ha with hlost | ⟨_, _, -, -, hlinked⟩
    · exact absurd rfl hlost.more
    · exact ⟨hlinked.main, hl.2.1⟩
  · rw [hfailed] at hl ha
    obtain ⟨_, _, -, -, -, hmain, -⟩ := ha rfl
    exact ⟨hmain, hl.2.1⟩

/-- A round after which there is another one takes bytes. -/
theorem statementStep_shorter (hd : d.Agrees) (hs : s.Sound)
    (hdone : statementStep d () s = .done (.inl ()) u) :
    u.reading.feed.rest.length < s.reading.feed.rest.length := by
  obtain ⟨_, s₁, hadvance, hhere⟩ := bind_eq_done_iff.1 hdone
  cases statementHere_round d s₁ _ _ hhere with
  | empty hkind => exact advance_shorter hadvance (by simp [hkind])
  | went hkind hstatement =>
    obtain ⟨hs₁, -⟩ := (runs_advance true).lands.of_done hs rfl hadvance
    have hle := (agrees_statement hd).rest_le hs₁ hstatement
    exact Nat.lt_of_le_of_lt hle (advance_shorter hadvance hkind)

theorem repeatUpTo_enough (hd : d.Agrees) {n m : Nat} (hs : s.Sound)
    (hn : s.reading.feed.rest.length < n) (hm : s.reading.feed.rest.length < m) :
    repeatUpTo n (statementStep d) () s = repeatUpTo m (statementStep d) () s := by
  induction n generalizing m s with
  | zero => omega
  | succ n ih =>
    obtain _ | m := m
    · omega
    rw [repeatUpTo, repeatUpTo]
    cases hstep : statementStep d () s with
    | done r u =>
      cases r with
      | inl _ =>
        -- The bytes ahead get fewer with every round, so both bounds stay out of reach.
        obtain ⟨hu, -⟩ := (agrees_statementStep (p := .alone s) hd).lands.of_done hs rfl hstep
        have hshorter := statementStep_shorter hd hs hstep
        exact ih hu (by omega) (by omega)
      | inr signal => rfl
    | failed e u => rfl
    | outOfFuel => rfl

/-! ## The end of the first source -/

section

variable {more : List UInt8} (hmore : p.more = some more) (hst : Linked p s t)

include hmore hst

theorem rest_skip : (t.skip (s.reading.feed.rest.length + 1)).reading.feed.rest = more := by
  rw [EvalState.skip, Feed.advance_rest, hst.feed.rest, Pairing.after, hmore]
  simp

/-- Where the first run comes to the end, the second finds what comes after the line feed. -/
theorem advance_skip {resolveNames : Bool} (hdone : advance resolveNames s = .done () u)
    (heof : u.reading.next.kind = .eof) :
    advance resolveNames t = advance resolveNames (t.skip (s.reading.feed.rest.length + 1)) := by
  rw [advance_apply] at hdone
  split at hdone
  · rename_i skipped length kind payload hfind
    cases hdone
    obtain rfl : kind = .eof := heof
    obtain ⟨-, hshift⟩ := Lexer.find_append_eof hfind more
    rw [advance_apply, advance_apply, rest_skip hmore hst, hst.feed.rest, Pairing.after, hmore]
    have hresolver : (t.skip (s.reading.feed.rest.length + 1)).session.heap.resolver
        (t.skip (s.reading.feed.rest.length + 1)).reading.body =
          s.session.heap.resolver s.reading.body := hst.resolver
    rw [hst.resolver, hresolver, hshift]
    cases Lexer.find (s.session.heap.resolver s.reading.body) resolveNames more with
    | token skipped length kind payload =>
      simp only [Lexer.Found.shift, Reading.take, EvalState.skip, Nat.add_assoc, Feed.advance_add]
    | fault why place stop =>
      simp only [Lexer.Found.shift, EvalState.skip, Feed.advance_add]
  · cases hdone

/-- The last round of a program that neither returns nor throws is the end of its source. -/
theorem statementStep_skip {signal : Signal} (hbody : s.session.heap.IsKind .dit p.body)
    (hdone : statementStep d () s = .done (.inr signal) u) (hthrown : ∀ v, signal ≠ .thrown v) :
    u.session = s.session ∧
      statementStep d () t = statementStep d () (t.skip (s.reading.feed.rest.length + 1)) := by
  obtain ⟨_, s₁, hadvance, hhere⟩ := bind_eq_done_iff.1 hdone
  obtain ⟨hsession, hhome, hfragment⟩ := advance_keeps hadvance
  cases statementHere_round d s₁ _ _ hhere with
  | ended hkind =>
    refine ⟨hsession, ?_⟩
    rw [statementStep, bind_apply, Eval.bind, bind_apply, Eval.bind,
      advance_skip hmore hst hadvance hkind]
  | left hstatement hnormal =>
    have hprogram : s₁.reading.fragment = false :=
      hfragment.trans (hst.program (by simp [hmore]))
    have hdit : s₁.session.heap.IsKind .dit s₁.reading.body := by
      rwa [hsession, hhome, hst.body]
    cases signal with
    | normal => exact absurd rfl hnormal
    | returned v => exact absurd rfl (statement_not_returned hprogram hdit _ _ hstatement v)
    | thrown v => exact absurd rfl (hthrown v)

end

section

variable (hd : d.Agrees) (hstays : ∀ c path v fragment, Stays (d.body c path v fragment))

include hd hstays

/-- A round of the first run that another one follows leaves the two runs linked. -/
theorem linked_of_round (hs : s.Sound) (hst : Linked p s t)
    (hdone : statementStep d () s = .done (.inl ()) u) :
    ∃ v, statementStep d () t = .done (.inl ()) v ∧ Linked p u v := by
  have ha := (agrees_statementStep hd).agrees s t hs rfl hst
  rw [hdone] at ha
  rcases ha with hlost | ⟨_, v, hv, rfl, huv⟩
  · -- The last token of the round is ahead, and it is not the end.
    obtain ⟨_, s₁, -, hhere⟩ := bind_eq_done_iff.1 hdone
    cases statementHere_round d s₁ _ _ hhere with
    | empty hkind =>
      rw [hlost.next] at hkind
      cases hkind
    | went _ hstatement =>
      exact absurd hlost.next (closes_statement hstays _ _ _ hstatement hlost.program)
  · exact ⟨v, hv, huv⟩

/-- A program that succeeds takes the second run to the line feed that follows it. -/
theorem exists_joint {more : List UInt8} (hmore : p.more = some more) {n n' : Nat}
    {signal : Signal} (hs : s.Sound) (hst : Linked p s t)
    (hbody : s.session.heap.IsKind .dit p.body) (hn : t.reading.feed.rest.length < n')
    (hdone : repeatUpTo n (statementStep d) () s = .done signal u)
    (hthrown : ∀ v, signal ≠ .thrown v) :
    ∃ s₁ t₁ m, Linked p s₁ t₁ ∧ s₁.session = u.session ∧ more.length < m ∧
      repeatUpTo n' (statementStep d) () t =
        repeatUpTo m (statementStep d) () (t₁.skip (s₁.reading.feed.rest.length + 1)) := by
  induction n generalizing n' s t with
  | zero => cases hdone
  | succ n ih =>
    obtain _ | n' := n'
    · omega
    rw [repeatUpTo] at hdone
    cases hstep : statementStep d () s with
    | failed e v =>
      rw [hstep] at hdone
      cases hdone
    | outOfFuel =>
      rw [hstep] at hdone
      cases hdone
    | done r v =>
      rw [hstep] at hdone
      cases r with
      | inl _ =>
        -- Another round follows: the runs are still linked, and both have fewer bytes ahead.
        obtain ⟨w, hw, hvw⟩ := linked_of_round hd hstays hs hst hstep
        obtain ⟨hv, hsteps, -⟩ := (agrees_statementStep (p := p) hd).lands.of_done hs rfl hstep
        have hshorter := statementStep_shorter hd hs hstep
        have hrest : w.reading.feed.rest.length < n' := by
          rw [hst.feed.rest, List.length_append] at hn
          rw [hvw.feed.rest, List.length_append]
          omega
        rw [repeatUpTo, hw]
        exact ih hv hvw (hbody.mono hsteps.grows) hrest hdone
      | inr _ =>
        cases hdone
        obtain ⟨hsession, hskip⟩ := statementStep_skip hmore hst hbody hstep hthrown
        rw [hst.feed.rest, Pairing.after, hmore, List.length_append, List.length_cons] at hn
        refine ⟨s, t, n' + 1, hst, hsession.symm, by omega, ?_⟩
        rw [repeatUpTo, repeatUpTo, hskip]

end

/-! ## The second source -/

/-- The token ahead before a round does not matter, for the round begins with the next one. -/
theorem advance_anew {token : Token} (hs : s.Sound) {resolveNames : Bool}
    (hst : Linked p s (t.facing token)) :
    (advance resolveNames s).AgreesWith p (advance resolveNames t) := by
  have ha := (agrees_advance resolveNames).agrees s _ hs rfl hst
  revert ha
  rw [advance_apply resolveNames t, advance_apply resolveNames (t.facing token)]
  dsimp only [EvalState.facing]
  cases Lexer.find (t.session.heap.resolver t.reading.body) resolveNames t.reading.feed.rest with
  | token skipped length kind payload =>
    cases advance resolveNames s with
    | done a u =>
      rintro (hlost | ⟨b, v, hv, hab, huv⟩)
      · exact .inl hlost
      · cases hv
        exact .inr ⟨(), _, rfl, hab, huv.session, huv.main, huv.mainPath, huv.body, huv.path,
          ⟨huv.reading.body, huv.reading.path, huv.reading.fragment, huv.reading.next⟩, huv.feed,
          huv.rest, huv.lastValue, huv.program⟩
    | failed e u =>
      intro ha hmore
      obtain ⟨_, _, hv, -⟩ := ha hmore
      cases hv
    | outOfFuel =>
      intro ha hmore
      cases ha hmore
  | fault why place stop =>
    cases advance resolveNames s with
    | done a u =>
      rintro (hlost | ⟨b, v, hv, -⟩)
      · exact .inl hlost
      · cases hv
    | failed e u =>
      intro ha hmore
      obtain ⟨_, _, hv, hfail⟩ := ha hmore
      cases hv
      exact ⟨_, _, rfl, hfail⟩
    | outOfFuel =>
      intro ha hmore
      cases ha hmore

/-- Statements from a place on run as they do from the start of a source. -/
theorem agreesWith_anew (hd : d.Agrees) {token : Token} (hs : s.Sound)
    (hst : Linked p s (t.facing token)) (n : Nat) :
    (repeatUpTo n (statementStep d) () s).AgreesWith p (repeatUpTo n (statementStep d) () t) := by
  cases n with
  | zero => exact fun _ => rfl
  | succ n =>
    rw [repeatUpTo_succ, statementStep, bind_assoc]
    refine Agrees.after (R := fun h' signal => signal.Valid h') ((runs_advance true).lands s hs rfl)
      (advance_anew hs hst) ?_
    intro h' _ _ _ _ _
    refine (agrees_statementHere hd).bind ?_
    rintro h'' r _ - hr rfl
    cases r with
    | inl _ =>
      exact agrees_repeatUpTo (I := fun _ _ => True) (fun _ _ _ _ => agrees_statementStep hd)
        (.inl rfl) trivial
    | inr signal => exact .done hr

end Eval
end Ditlang
