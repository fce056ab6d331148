import Ditlang.Proofs.Session.Reached

/-!
# Ditlang.Proofs.Session.Conversations

What a program says to guest workers.

A worker that runs a guest function waits for one line after each of its requests, the value of the
fragment it asked for. The interpreter evaluates the fragment as any other code. A guest function of
the same Lang that is called in it is written to the same connection, before the value; and when the
fragment fails, the call is over for the interpreter while the worker goes on waiting, so that the
next call of that Lang is what it reads. `conversation_disciplined_iff` shows that nothing else
breaks the order of the protocol.
-/

namespace Ditlang

open Guest
open Source (View)

namespace Session

variable {s s' : Session}

/-- Every session rests after what was said in the programs that led to it. -/
theorem Reached.rests (hs : s.Reached) : ∃ t : Transcript, t.Whole ∧ s.Rests t := by
  induction hs with
  | start mainPath tmpDir launcher host => exact ⟨[], .start, rfl⟩
  | @runMain s s' fuel view fragment result hs hrun ih =>
    obtain ⟨t, hw, ht⟩ := ih
    obtain ⟨u, hu, hr⟩ := (runMain_leads hs.sound hrun).2 t ht
    exact ⟨t ++ u, hw.input hu, hr⟩
  | @runFile s s' path result hs hrun ih =>
    obtain ⟨t, hw, ht⟩ := ih
    obtain ⟨s₁, hs₁, -, hd, rfl | ⟨view, whole, hmain⟩⟩ := runFile_cases hs.sound hrun
    · exact ⟨t, hw, rests_of_daemon hd ht⟩
    · obtain ⟨u, hu, hr⟩ := (runMain_leads hs₁ hmain).2 t (rests_of_daemon hd ht)
      exact ⟨t ++ u, hw.input hu, hr⟩
  | @settle s _ ih =>
    obtain ⟨t, hw, ht⟩ := ih
    refine ⟨t, hw, ?_⟩
    unfold Session.settle
    split
    · exact ht
    · rename_i d hd
      rw [Rests, hd] at ht
      unfold Rests Daemon.settle
      dsimp only
      split
      · rename_i hq
        exact ht.acts (Fleet.acts_quiesce hq)
      · exact ht
  | @shutdown s _ ih =>
    unfold Session.shutdown
    split
    · exact ih
    · exact ⟨[], .start, rfl⟩
  | setHost host _ ih =>
    obtain ⟨t, hw, ht⟩ := ih
    exact ⟨t, hw, rests_of_daemon rfl ht⟩

/-- A new session with the workers that the scripts make. -/
def scripted (scripts : List Script) : Session :=
  start "main.dit" "/tmp" (some (.scripted scripts)) { files := .startingIn [], commands := [] }

theorem exists_evalSource (s : Session) (source : String) (p : Session → Bool)
    (h : (s.evalSource source).any (fun (_, s') => p s') = true) :
    ∃ result s', s.evalSource source = some (result, s') ∧ p s' = true := by
  obtain ⟨⟨result, s'⟩, hrun, hp⟩ := (Option.any_eq_true _ _).1 h
  exact ⟨result, s', hrun, hp⟩

end Session

/-- The line of a worker that asks for a fragment. -/
def Guest.Action.request (fragment : String) : Action :=
  .send (Json.object [("type", .str "exe_ditlang"), ("result", .str fragment)]).write

/-- The line of a worker that has finished a function. -/
def Guest.Action.finish : Action :=
  .send (Json.object [("type", .str "finish_func"), ("result", .null)]).write

/-- Whatever a program does, and whatever was run before it, what is said to guest workers has the
form of calls, one after another, in which every request is followed by what its fragment says and
then, unless the fragment fails, by its answer. On every connection lines and replies alternate. They
keep to the protocol exactly when no call is written to the connection while a request that came on
it is open, because its fragment is being evaluated or has failed, and the answers that are written
to it are those to its own requests. -/
theorem conversation_disciplined_iff {s s' : Session} (hs : s.Reached) {fuel : Nat} {view : View}
    {fragment : Bool} {result : Except Failure (Option Value)}
    (hrun : s.runMain fuel view fragment = some (result, s')) :
    ∃ t u : Transcript, t.Whole ∧ t.talk = s.talk ∧ Transcript.Told none result.isOk u ∧
      Transcript.talk (t ++ u) = s'.talk ∧
      ∀ key, Stepwise Alternates (conversation key s'.talk) ∧
        (Disciplined (conversation key s'.talk) ↔ Transcript.Undisturbed key (t ++ u)) := by
  obtain ⟨t, hw, ht⟩ := hs.rests
  obtain ⟨u, hu, hr⟩ := (Session.runMain_leads hs.sound hrun).2 t ht
  exact ⟨t, u, hw, ht.talk_eq, hu, hr.talk_eq, hr.conversation⟩

/-- A Python function asks for a fragment that calls a JavaScript function: the call in the fragment
goes to another connection, and both conversations keep to the protocol. -/
theorem conversation_disciplined_iff_across_langs :
    ∃ result s', (Session.scripted [.plays none [.recv, .request "g();", .recv, .finish] false,
        .plays none [.recv, .finish] false]).runMain Session.defaultFuel
          (.ofText "func JavaScript void g() \x7b pass \x7d func Python void f() \x7b pass \x7d f();")
          false = some (result, s') ∧
      conversation 0 s'.talk = [.callFunc, .exeDitlang, .ditlangCallback, .finishFunc] ∧
      conversation 1 s'.talk = [.callFunc, .finishFunc] ∧
      ∃ t : Transcript, t.talk = s'.talk ∧ t.Undisturbed 0 ∧ t.Undisturbed 1 := by
  obtain ⟨_, s', heval, hp⟩ := Session.exists_evalSource
    (Session.scripted [.plays none [.recv, .request "g();", .recv, .finish] false,
      .plays none [.recv, .finish] false])
    "func JavaScript void g() \x7b pass \x7d func Python void f() \x7b pass \x7d f();"
    (fun s' =>
      conversation 0 s'.talk == [.callFunc, .exeDitlang, .ditlangCallback, .finishFunc] &&
        conversation 1 s'.talk == [.callFunc, .finishFunc])
    (by decide +kernel)
  obtain ⟨result, hrun⟩ := Session.exists_runMain_of_evalSource heval
  simp only [Bool.and_eq_true, beq_iff_eq] at hp
  obtain ⟨t, u, -, -, -, htalk, hkey⟩ := conversation_disciplined_iff (.start _ _ _ _) hrun
  refine ⟨result, s', hrun, hp.1, hp.2, t ++ u, htalk, (hkey 0).2.1 ?_, (hkey 1).2.1 ?_⟩
  · rw [hp.1]
    decide
  · rw [hp.2]
    decide

/-- A Python function asks for a fragment that calls another Python function, and a fragment of a
Python function fails before the function is called again. Either way the worker, which waits for the
value of its fragment, reads a call. -/
theorem call_written_while_request_open :
    (∃ result s, (Session.scripted [.plays none [.recv, .request "g();", .recv, .finish] false]).evalSource
        "func Python void g() \x7b pass \x7d func Python void f() \x7b pass \x7d f();" =
          some (result, s) ∧ ¬ Disciplined (conversation 0 s.talk)) ∧
    (∃ result s result' s',
      (Session.scripted [.plays none [.recv, .request "throw 1;", .recv, .finish] true]).evalSource
        "func Python void f() \x7b pass \x7d f();" = some (result, s) ∧
      s.evalSource "f();" = some (result', s') ∧ ¬ Disciplined (conversation 0 s'.talk)) := by
  have hbroken : ¬ Disciplined [.callFunc, .exeDitlang, .callFunc, .finishFunc] := by decide
  constructor
  · obtain ⟨result, s, heval, hp⟩ := Session.exists_evalSource
      (Session.scripted [.plays none [.recv, .request "g();", .recv, .finish] false])
      "func Python void g() \x7b pass \x7d func Python void f() \x7b pass \x7d f();"
      (fun s => conversation 0 s.talk == [.callFunc, .exeDitlang, .callFunc, .finishFunc])
      (by decide +kernel)
    refine ⟨result, s, heval, ?_⟩
    rw [eq_of_beq hp]
    exact hbroken
  · obtain ⟨result, s, heval, hp⟩ := Session.exists_evalSource
      (Session.scripted [.plays none [.recv, .request "throw 1;", .recv, .finish] true])
      "func Python void f() \x7b pass \x7d f();"
      (fun s => (s.evalSource "f();").any fun (_, s') =>
        conversation 0 s'.talk == [.callFunc, .exeDitlang, .callFunc, .finishFunc])
      (by decide +kernel)
    obtain ⟨result', s', heval', hp'⟩ := Session.exists_evalSource s "f();"
      (fun s' => conversation 0 s'.talk == [.callFunc, .exeDitlang, .callFunc, .finishFunc]) hp
    refine ⟨result, s, result', s', heval, heval', ?_⟩
    rw [eq_of_beq hp']
    exact hbroken

end Ditlang
