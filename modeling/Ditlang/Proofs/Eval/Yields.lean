import Ditlang.Eval.Basic

/-!
# Ditlang.Proofs.Eval.Yields

What computations yield when they succeed. `Yields s x q` says that if `x` succeeds from the state `s`,
then with a value and a state as `q` describes them. The rules follow the operators of the evaluator.
-/

namespace Ditlang
namespace Eval

variable {α β : Type}

/-- If the computation succeeds from the state `s`, then with a value and a state as described. -/
def Yields (s : EvalState) (x : Eval α) (q : α → EvalState → Prop) : Prop :=
  ∀ a t, x s = .done a t → q a t

theorem Yields.bind {s : EvalState} {x : Eval α} {f : α → Eval β} {q : β → EvalState → Prop}
    (hf : ∀ a t, x s = .done a t → Yields t (f a) q) : Yields s (x >>= f) q := by
  intro b u hdone
  obtain ⟨a, t, hx, hft⟩ := bind_eq_done_iff.1 hdone
  exact hf a t hx b u hft

theorem Yields.gets {s : EvalState} {g : EvalState → α} {f : α → Eval β}
    {q : β → EvalState → Prop} (hf : Yields s (f (g s)) q) : Yields s (Eval.gets g >>= f) q := by
  refine .bind ?_
  rintro _ _ ⟨⟩
  exact hf

theorem Yields.pure {s : EvalState} {b : α} {q : α → EvalState → Prop} (hb : q b s) :
    Yields s (Pure.pure b) q := by
  rintro _ _ ⟨⟩
  exact hb

theorem Yields.raise {s : EvalState} (d : Diagnostic) {q : α → EvalState → Prop} :
    Yields s (Eval.raise d) q := by
  rintro _ _ ⟨⟩

/-- A loop whose rounds keep a property ends with what a last round makes of it. -/
theorem Yields.repeatTokens {s : EvalState} {I : α → Prop} {q : β → Prop} {step : α → Eval (α ⊕ β)}
    (hstep : ∀ a s, I a → Yields s (step a) fun r _ => r.elim I q) {a : α} (ha : I a) :
    Yields s (repeatTokens step a) fun b _ => q b := by
  have hloop : ∀ n a s, I a → Yields s (fun s => repeatUpTo n step a s) fun b _ => q b := by
    intro n
    induction n with
    | zero =>
      intro a s _ b t hdone
      cases hdone
    | succ n ih =>
      intro a s ha b t hdone
      have hround := hstep a s ha
      simp only [repeatUpTo] at hdone
      cases hr : step a s with
      | done r u =>
        rw [hr] at hdone
        cases r with
        | inl a' => exact ih a' u (hround _ _ hr) b t hdone
        | inr b' =>
          cases hdone
          exact hround _ _ hr
      | failed e u =>
        rw [hr] at hdone
        cases hdone
      | outOfFuel =>
        rw [hr] at hdone
        cases hdone
  exact hloop _ a s ha

end Eval
end Ditlang
