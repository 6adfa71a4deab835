/-
The depth of calls. A state keeps the number of bodies and host functions that are active; they are
the activations on its stack, each entered below the limit, so that there are never more of them
than the limit allows. What a step does to the stack it does to the depth (`Shifts`): it counts the
activations that it puts on the stack, and an activation that an answer or an error leaves no more.
-/
import ObjectMachine.Proofs.Exec.History

namespace ObjectMachine

/-- The number of activations on a stack. -/
def activations (K : List Cont) : Nat := K.countP Cont.isActivation

/-- A state counts the activations on its stack, and stays within the limit. -/
structure State.Counts (env : Env) (s : State) : Prop where
  depth : s.depth = activations s.stack
  bound : s.depth ≤ env.options.maxCallDepth

/-- An answer or an error, on its way to what waits for it. -/
def Control.IsOutcome : Control → Prop
  | .answer _ | .raise _ => True
  | _ => False

/-- What a step does to the stack, and with it to the depth: it puts something on top, or something in
the place of the continuation that gets an answer or an error. -/
inductive State.Shifts (s s' : State) : Prop where
  | push {P} : s'.stack = P ++ s.stack → s'.depth = s.depth + activations P → Shifts s s'
  | pop {k K P} : s.control.IsOutcome → s.stack = k :: K → s'.stack = P ++ K →
      s'.depth = s.depth - activations [k] + activations P → Shifts s s'

/-! ## Stacks -/

section Stacks

variable {k : Cont} {K K' : List Cont} {f : Frame} {c : Control}

theorem activations_append (P K : List Cont) : activations (P ++ K) = activations P + activations K :=
  List.countP_append

theorem activations_cons (h : k.isActivation = true) : activations (k :: K) = activations K + 1 :=
  List.countP_cons_of_pos h

theorem activations_pass (h : k.isActivation = false) : activations (k :: K) = activations K :=
  List.countP_cons_of_neg (by simp [h])

theorem Access.isActivation {env : Env} {u : UnitId} {cls : Class} (h : Access env u k cls) :
    k.isActivation = false := by
  cases h <;> rfl

end Stacks

/-! ## Runs -/

section Runs

variable {env : Env} {s s' : State}

theorem Starts.counts {op : Operation} {σ : Store} (h : Starts env op σ s) : s.Counts env := by
  cases h with
  | access hk =>
    have hnone : activations [] = 0 := rfl
    exact ⟨hnone.symm.trans (activations_pass hk.isActivation).symm, Nat.zero_le _⟩
  | failed | virtual | prepare | eval | run => exact ⟨rfl, Nat.zero_le _⟩

/-- The code of a frame goes on, with `P` on the stack. -/
theorem Runs.shifts {f : Frame} {K P : List Cont} (h : Runs f s.control s.stack K)
    (hP : s'.stack = P ++ K) (hd : s'.depth = s.depth + activations P) : s.Shifts s' := by
  generalize hc : s.control = c at h
  generalize hK : s.stack = L at h
  cases h with
  | eval | exec => exact .push (hK ▸ hP) hd
  | @resumed _ _ k _ hk =>
    refine .pop (by rw [hc]; trivial) hK hP ?_
    rw [activations_pass hk.2]
    exact hd

/-- A step counts every activation that it enters and gives back every one that it leaves. -/
theorem Transition.shifts (h : Transition env s s') : s.Shifts s' := by
  cases h with
  | go h | answer h | fail h | callVirtual h | callSuper h | superOverflow h => exact h.shifts (P := []) rfl rfl
  | @evaluate _ _ k _ _ _ _ _ h hk =>
    have hpass : k.isActivation = false := hk.elim Cont.IsOperand.isActivation And.right
    refine h.shifts (P := [k]) rfl ?_
    rw [activations_pass hpass]
    rfl
  | @access _ _ k _ _ _ _ _ h hk =>
    refine h.shifts (P := [k]) rfl ?_
    rw [activations_pass hk.isActivation]
    rfl
  | @accessWrite f _ _ _ k _ _ _ _ hk =>
    refine .pop (P := [k, .resume f]) trivial rfl rfl ?_
    rw [activations_pass hk.isActivation]
    rfl
  | @failWrite f => exact .pop (P := [.resume f]) trivial rfl rfl rfl
  | @enterSuper f _ _ _ _ _ _ _ _ _ h => exact h.shifts (P := [.superDone f]) rfl rfl
  | @enterBody e => exact .push (P := [.returning e.returns]) rfl rfl
  | enterHost => exact .push (P := [.hostCall]) rfl rfl
  | create => exact .push (P := [.constructing _]) rfl rfl
  | @initParent c => exact .push (P := [.ownStatics c, .initializing c]) rfl rfl
  | @initRoot c => exact .push (P := [.initializing c]) rfl rfl
  | evalStatic => exact .push (P := [.staticValue _ _ _ _]) rfl rfl
  | enterBlock => exact .push (P := [.staticBlock]) rfl rfl
  | operate hk | operateFail hk =>
    refine .pop (P := []) trivial rfl rfl ?_
    rw [activations_pass hk.isActivation]
    rfl
  | unwindActivation hact =>
    refine .pop (P := []) trivial rfl rfl ?_
    rw [activations_cons hact]
    rfl
  | unwind hpass =>
    refine .pop (P := []) trivial rfl rfl ?_
    rw [activations_pass hpass]
    rfl
  | enterOverflow | hostService | hostReply | hostFail | createOverflow | createFail | initReady
  | initFailed | skipStatic | noBlock | ended => exact .push (P := []) rfl rfl
  | _ => exact .pop (P := []) trivial rfl rfl rfl

/-- A body is entered below the limit only. -/
theorem Transition.depth_le (h : Transition env s s') :
    s'.depth ≤ s.depth ∨ s'.depth ≤ env.options.maxCallDepth := by
  cases h with
  | enterSuper _ _ _ _ hlt | enterBody _ hlt | enterHost _ hlt | create _ _ hlt => exact .inr hlt
  | give | giveFail | constructed | superReturned | hostReturned | unwindActivation =>
    exact .inl (Nat.sub_le _ 1)
  | _ => exact .inl le_rfl

/-- A step takes one continuation off the stack at most. -/
theorem State.Shifts.length_le (h : s.Shifts s') : s.stack.length ≤ s'.stack.length + 1 := by
  cases h with
  | push hP =>
    rw [hP, List.length_append]
    omega
  | pop _ hK hP =>
    rw [hK, hP, List.length_append, List.length_cons]
    omega

theorem State.Shifts.depth_eq (h : s.Shifts s') (hd : s.depth = activations s.stack) :
    s'.depth = activations s'.stack := by
  cases h with
  | push hP hpush =>
    rw [hP, activations_append]
    omega
  | @pop k K P _ hK hP hpop =>
    have htop : activations (k :: K) = activations [k] + activations K := activations_append [k] K
    rw [hK, htop] at hd
    rw [hP, activations_append]
    omega

/-- A step that enters a body goes one level down, one that leaves a body one level up, and no
other step changes the level. -/
theorem Transition.counts (h : Transition env s s') (hs : s.Counts env) : s'.Counts env :=
  ⟨h.shifts.depth_eq hs.depth, h.depth_le.elim (·.trans hs.bound) id⟩

end Runs

/-- Every state of every history counts the activations on its stack. -/
theorem counts_invariant {allowed : Act → Prop} : Invariant allowed (fun _ _ => True) State.Counts where
  boot := fun _ _ => trivial
  load := fun _ _ _ _ => trivial
  track := fun _ _ => trivial
  allocate := fun _ _ _ _ _ => trivial
  start := fun _ _ h _ => h.counts
  step := fun _ h hs => h.counts hs
  stop := fun _ _ => trivial

end ObjectMachine
