/-
Raising the limit on the call depth. The limit is looked at in one place, where a body or a host
function is entered, and the only thing it can do there is to refuse with the error of an exhausted
call depth. Nothing takes an error back: a refusal ends the run with that error, or with a failed
initialization that has it at the end of its causes. So a run that does not end that way was never
refused, and takes the same steps under any higher limit.
-/
import ObjectMachine.Proofs.Exec.Unwinding
import ObjectMachine.Proofs.Library.Bundled

namespace ObjectMachine

/-! ## Definitions -/

/-- The environment with another limit on the call depth. -/
def Env.withLimit (env : Env) (limit : Nat) : Env :=
  { env with options := { env.options with maxCallDepth := limit } }

/-- The machine with another limit on the call depth. -/
def Machine.withLimit (m : Machine) (limit : Nat) : Machine :=
  { m with options := { m.options with maxCallDepth := limit } }

/-- The host function does the same whatever the limit on the call depth is. -/
def HostFunction.IgnoresLimit (f : HostFunction) : Prop :=
  ∀ (view : HostView) (limit : Nat) (args : List Value),
    f { view with maxCallDepth := limit } args = f view args

/-- The error is that of an exhausted call depth, or was raised because of it. -/
def Failure.IsOverflow (e : Failure) : Prop := ∃ limit, e.root = .stackOverflow limit

/-- `t'` is `t`, unless `t` was refused for its depth. -/
def State.Agrees (t' t : State) : Prop := t' = t ∨ ∃ limit, t.control = .raise (.stackOverflow limit)

/-! ## Steps -/

namespace State

section Steps

variable {env : Env} {s : State} {low high : Nat}

theorem Agrees.rfl {t : State} : t.Agrees t := .inl (Eq.refl t)

theorem proceed_agrees {α : Type} {r : Except Failure α} {next next' : α → State}
    (h : ∀ a, (next' a).Agrees (next a)) : (s.proceed r next').Agrees (s.proceed r next) := by
  cases r with
  | error e => exact .rfl
  | ok a => exact h a

theorem activate_agrees (hle : low ≤ high) (k : Cont) (c : Control) :
    (s.activate (env.withLimit high) k c).Agrees (s.activate (env.withLimit low) k c) := by
  unfold activate
  by_cases hlow : low ≤ s.depth
  · rw [if_pos (show (env.withLimit low).options.maxCallDepth ≤ s.depth from hlow)]
    exact .inr ⟨low, rfl⟩
  · rw [if_neg (show ¬ (env.withLimit low).options.maxCallDepth ≤ s.depth from hlow),
      if_neg (show ¬ (env.withLimit high).options.maxCallDepth ≤ s.depth from
        fun hhigh => hlow (hle.trans hhigh))]
    exact .rfl

theorem superInit_agrees (hle : low ≤ high) (f : Frame) (args : List Value) :
    (s.superInit (env.withLimit high) f args).Agrees (s.superInit (env.withLimit low) f args) := by
  unfold superInit
  refine proceed_agrees fun ref => ?_
  have hparent (limit : Nat) :
      (env.withLimit limit).registry.parent? f.cls = env.registry.parent? f.cls := rfl
  simp only [hparent]
  cases env.registry.parent? f.cls with
  | none => exact .rfl
  | some parent => exact proceed_agrees fun k => activate_agrees hle _ _

theorem call_agrees (hle : low ≤ high) (target : CallTarget) (args : List Value) (f : Frame) :
    (s.call (env.withLimit high) target args f).Agrees (s.call (env.withLimit low) target args f) := by
  cases target with
  | superInit => exact superInit_agrees hle f args
  | create | static | virtual | superMethod => exact .rfl

theorem arguments_agrees (hle : low ≤ high) (target : CallTarget) (before : List Value)
    (after : List Expr) (f : Frame) :
    (s.arguments (env.withLimit high) target before after f).Agrees
      (s.arguments (env.withLimit low) target before after f) := by
  cases after with
  | nil => exact call_agrees hle target before.reverse f
  | cons e rest => exact .rfl

theorem eval_agrees (hle : low ≤ high) (f : Frame) (e : Expr) :
    (s.eval (env.withLimit high) f e).Agrees (s.eval (env.withLimit low) f e) := by
  cases e with
  | create | invokeStatic | invokeSuper => exact arguments_agrees hle _ _ _ f
  | _ => exact .rfl

theorem exec_agrees (hle : low ≤ high) (f : Frame) :
    (s.exec (env.withLimit high) f).Agrees (s.exec (env.withLimit low) f) := by
  unfold exec
  cases f.code with
  | nil => exact .rfl
  | cons stmt rest =>
    cases stmt with
    | superInit args => exact arguments_agrees hle _ _ _ { f with code := rest }
    | giveBack value => cases value <;> exact .rfl
    | _ => exact .rfl

theorem resume_agrees (hle : low ≤ high) (k : Cont) (answer : Option Value) :
    (s.resume (env.withLimit high) k answer).Agrees (s.resume (env.withLimit low) k answer) := by
  cases k with
  | receiver method args f => exact arguments_agrees hle _ _ args f
  | argument target before after f => exact arguments_agrees hle target _ after f
  | _ => exact .rfl

theorem allocate_agrees (hle : low ≤ high) (c : Class) (args : List Value) :
    (s.allocate (env.withLimit high) c args).Agrees (s.allocate (env.withLimit low) c args) :=
  proceed_agrees fun _ => activate_agrees hle _ _

/-- A host function that is entered sees the limit, but does not look at it. -/
theorem enterMethod_agrees (hle : low ≤ high) {e : Method}
    (he : ∀ f, e.impl = .native f → HostFunction.IgnoresLimit f) (declaring : Class) (receiver : Option Handle)
    (args : List Value) :
    (s.enterMethod (env.withLimit high) e declaring receiver args).Agrees
      (s.enterMethod (env.withLimit low) e declaring receiver args) := by
  unfold enterMethod
  cases hi : e.impl with
  | managed body => exact activate_agrees hle _ _
  | native f =>
    have hview : ∀ args, f (s.hostView (env.withLimit high)) args = f (s.hostView (env.withLimit low)) args :=
      fun args => he f hi (s.hostView (env.withLimit low)) high args
    simp only [hview]
    exact activate_agrees hle _ _

/-- A step is the same under a higher limit, or is refused for its depth. -/
theorem step_agrees (hle : low ≤ high) (hs : s.Listed env)
    (hosts : ∀ e, env.registry.Lists e → ∀ f, e.impl = .native f → HostFunction.IgnoresLimit f) :
    (s.step (env.withLimit high)).Agrees (s.step (env.withLimit low)) := by
  have hlists := hs.control
  unfold step
  cases hc : s.control with
  | eval f e => exact eval_agrees hle f e
  | exec f => exact exec_agrees hle f
  | answer v =>
    cases hK : s.stack with
    | nil => exact .rfl
    | cons k K => exact resume_agrees hle k v
  | create c args => exact allocate_agrees hle c args
  | enter e declaring receiver args =>
    exact enterMethod_agrees hle (hosts e (hlists e (by rw [hc]; rfl))) declaring receiver args
  | raise | init | statics | host => exact .rfl

end Steps

/-! ## Runs -/

/-- A run that was not refused for its depth goes the same way under a higher limit. -/
theorem finish_agrees {env : Env} {low high : Nat} (hwf : env.registry.Sound) (hle : low ≤ high)
    (hosts : ∀ e, env.registry.Lists e → ∀ f, e.impl = .native f → HostFunction.IgnoresLimit f)
    {r : Except Failure (Option Value)} {σ : Store} (hr : ∀ e, r = .error e → ¬ e.IsOverflow)
    {fuel : Nat} :
    ∀ {s : State}, s.Listed env → s.finish (env.withLimit low) fuel = some (r, σ) →
      s.finish (env.withLimit high) fuel = some (r, σ) := by
  induction fuel with
  | zero => exact fun _ h => h
  | succ fuel ih =>
    intro s hs h
    unfold finish at h ⊢
    split at h
    · exact h
    · rcases step_agrees hle hs hosts with heq | ⟨limit, hc⟩
      · have hlow : (env.withLimit low).registry.Sound := hwf
        have hlist := (step_transition (env.withLimit low) s).listed hlow ⟨hs.control, hs.stack⟩
        rw [heq]
        exact ih ⟨hlist.control, hlist.stack⟩ h
      · obtain ⟨e, he, hroot⟩ := finish_raise hc h
        exact absurd ⟨limit, hroot⟩ (hr e he)

end State

/-! ## Operations -/

/-- Where an operation starts does not depend on the limit. -/
theorem Operation.start_withLimit (op : Operation) (env : Env) (σ : Store) (limit : Nat) :
    op.start (env.withLimit limit) σ = op.start env σ := by
  cases op <;> rfl

/-- Raising the limit on the call depth changes no operation that comes to its end without
exhausting it: under any higher limit it takes no more steps and ends with the same result, and it
leaves the same machine behind. -/
theorem perform_withLimit {m : Machine} {past : List State} (h : History (fun _ => True) m past)
    (hosts : ∀ e, m.registry.Lists e → ∀ f, e.impl = .native f → HostFunction.IgnoresLimit f)
    {low high : Nat} (hle : low ≤ high) {op : Operation} {fuel : Nat}
    {r : Except Failure (Option Value)} {m' : Machine}
    (hp : (m.withLimit low).perform fuel op = some (r, m'))
    (hr : ∀ e, r = .error e → ¬ e.IsOverflow) :
    (m.withLimit high).perform fuel op = some (r, m'.withLimit high) := by
  obtain ⟨⟨r', σ⟩, hf, heq⟩ := Option.map_eq_some_iff.1 hp
  cases heq
  refine Option.map_eq_some_iff.2 ⟨(r, σ), ?_, rfl⟩
  have hlist : (op.start m.env m.store).Listed m.env := (start_starts m.env op m.store).listed h.sound
  change (op.start (m.env.withLimit low) m.store).finish (m.env.withLimit low) fuel = some (r, σ) at hf
  change (op.start (m.env.withLimit high) m.store).finish (m.env.withLimit high) fuel = some (r, σ)
  rw [op.start_withLimit] at hf ⊢
  exact State.finish_agrees h.sound hle hosts hr hlist hf

theorem Library.natives_ignoreLimit {e : Method} {f : HostFunction} (he : Library.registry.Lists e)
    (hf : e.impl = .native f) : f.IgnoresLimit := by
  rcases Library.listed_native Library.registry_wf he hf with rfl | rfl | rfl | rfl
  all_goals exact fun view limit args => rfl

/-- Two levels of calls are enough to box a number, and so is any limit above. -/
theorem perform_withLimit_box : ∃ m' : Machine,
    ((Machine.boot {} {}).withLimit 2).perform 40 (.invokeStatic systemUnit "Long" "valueOf" [.text "42"]) =
      some (.ok (some (.object ⟨0⟩)), m') ∧
    ((Machine.boot {} {}).withLimit 1024).perform 40 (.invokeStatic systemUnit "Long" "valueOf" [.text "42"]) =
      some (.ok (some (.object ⟨0⟩)), m'.withLimit 1024) := by
  have hboot : History (fun _ => True) (.boot {} {}) [] := .boot
  have hend : ((((Machine.boot {} {}).withLimit 2).moment
      (.invokeStatic systemUnit "Long" "valueOf" [.text "42"]) 40).outcome?) =
      some (.ok (some (.object ⟨0⟩))) := by decide +kernel
  have hp := Machine.perform_of_outcome? le_rfl hend
  refine ⟨_, hp, perform_withLimit hboot ?_ (by decide) hp nofun⟩
  exact fun e he f hf => Library.natives_ignoreLimit he hf

end ObjectMachine
