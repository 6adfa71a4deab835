/-
Errors on their way up. No code takes an error back: it passes one continuation a step, and all it does
there is to give back the level of call depth of a body that it leaves and to record the failure of a class
whose initialization it passes, which wraps it. So a run that has raised an error ends with it, or with one
raised because of it, after as many steps as there are continuations on the stack.
-/
import ObjectMachine.Proofs.Exec.History

namespace ObjectMachine

/-- Nothing happens to the static areas but that classes fail, one after the other. -/
def Statics.FailsTo : Statics → Statics → Prop :=
  Relation.ReflTransGen fun t t' => ∃ c cause, t' = t.setState c (.failed cause)

namespace State

theorem outcome?_raise {s : State} {e : Failure} {r : Except Failure (Option Value)}
    (hc : s.control = .raise e) (h : s.outcome? = some r) : r = .error e := by
  have hK := (outcome?_some h).1
  simp only [outcome?, hK, hc] at h
  cases h
  rfl

/-- Leaving a body or the initialization of a class keeps the error that it all began with. -/
theorem unwind_root (s : State) (k : Cont) (e : Failure) :
    ∃ e', (s.unwind k e).control = .raise e' ∧ e'.root = e.root := by
  unfold unwind
  split
  · exact ⟨_, rfl, rfl⟩
  · split <;> exact ⟨e, rfl, rfl⟩

/-- Nothing takes an error back: a run that has raised one ends with it, or with one raised because
of it. -/
theorem finish_raise {env : Env} {r : Except Failure (Option Value)} {σ : Store} {fuel : Nat} :
    ∀ {s : State} {e : Failure}, s.control = .raise e → s.finish env fuel = some (r, σ) →
      ∃ e', r = .error e' ∧ e'.root = e.root := by
  induction fuel with
  | zero =>
    intro s e hc h
    obtain ⟨r', hr, heq⟩ := Option.map_eq_some_iff.1 h
    cases heq
    exact ⟨e, outcome?_raise hc hr, rfl⟩
  | succ fuel ih =>
    intro s e hc h
    unfold finish at h
    split at h
    · rename_i r' hr
      cases h
      exact ⟨e, outcome?_raise hc hr, rfl⟩
    · rename_i hr
      cases hK : s.stack with
      | nil => simp [outcome?, hc, hK] at hr
      | cons k K =>
        have hstep : s.step env = State.unwind { s with stack := K } k e := by simp only [step, hc, hK]
        obtain ⟨e', hc', he'⟩ := unwind_root { s with stack := K } k e
        rw [← hstep] at hc'
        obtain ⟨e'', hr, he''⟩ := ih hc' h
        exact ⟨e'', hr, he''.trans he'⟩

/-- An error leaves one continuation behind, and at most a class that has failed. -/
theorem unwind_keeps (s : State) (k : Cont) (e : Failure) : (s.unwind k e).stack = s.stack ∧
    ∃ t, (s.unwind k e).store = { s.store with statics := t } ∧ s.store.statics.FailsTo t := by
  unfold unwind
  split
  · exact ⟨rfl, _, rfl, .single ⟨_, _, rfl⟩⟩
  · split <;> exact ⟨rfl, _, rfl, .refl⟩

/-- An error ends the run after as many steps as there are continuations. -/
theorem raise_ends (env : Env) : ∀ (K : List Cont) {s : State} {e : Failure}, s.stack = K → s.control = .raise e →
    ∃ e', ((State.step env)^[K.length] s).outcome? = some (.error e')
  | [], s, e, hK, hc => ⟨e, by simp only [List.length_nil, Function.iterate_zero_apply, outcome?, hK, hc]⟩
  | k :: K, s, e, hK, hc => by
    have heq : s.step env = State.unwind { s with stack := K } k e := by simp only [State.step, hc, hK]
    obtain ⟨e', hraise, -⟩ := unwind_root { s with stack := K } k e
    obtain ⟨hstack, -⟩ := unwind_keeps { s with stack := K } k e
    rw [← heq] at hraise hstack
    exact raise_ends env K hstack hraise

end State

end ObjectMachine
