/-
What a call gives back. A call is entered on some stack and is over when the stack is that one again
for the first time: until then its body, or its host function, stands on top of it (`Calling`). If it
is over with an answer then that is a value which the declared type of the method allows.
-/
import ObjectMachine.Proofs.Exec.History

namespace ObjectMachine

/-! ## Definitions -/

/-- The call of a method, entered on the stack `K`, is going on. -/
inductive Calling (e : Method) (K : List Cont) : State → Prop where
  | body {c L d σ} : Calling e K ⟨c, L ++ .returning e.returns :: K, d, σ⟩
  | host {args p d σ} : Calling e K ⟨.host e args p, .hostCall :: K, d, σ⟩
  | replied {v d σ} : e.returns.Yields v → Calling e K ⟨.answer (some v), .hostCall :: K, d, σ⟩
  | failed {err d σ} : Calling e K ⟨.raise err, .hostCall :: K, d, σ⟩

/-- What a step does to the stack: it puts continuations on it, perhaps after taking one off; and it
leaves a body or a host function with nothing put in its place, a method with its result checked. -/
inductive StackStep (s s' : State) : Prop where
  | keep {P} : s'.stack = P ++ s.stack → StackStep s s'
  | pop {k K P} : s.stack = k :: K → k.isActivation = false → s'.stack = P ++ K → StackStep s s'
  | leave {k K} : s.stack = k :: K → k.isActivation = true → s'.stack = K →
      (∀ ty, k = .returning ty → ∀ a, s'.control = .answer a → ∃ v, a = some v ∧ ty.Yields v) →
      StackStep s s'

/-- The call of a method, entered on the stack `K`, is over. -/
structure Called (e : Method) (K : List Cont) (s : State) : Prop where
  stack : s.stack = K
  yields : ∀ a, s.control = .answer a → ∃ v, a = some v ∧ e.returns.Yields v

/-- The call of a method that is entered at the moment `i` of a run is over at `j`, with an answer. -/
structure Machine.Returns (m : Machine) (op : Operation) (e : Method) (i j : Nat) (a : Option Value) :
    Prop where
  entered : ∃ declaring receiver args, (m.moment op i).control = .enter e declaring receiver args
  later : i < j
  back : (m.moment op j).stack = (m.moment op i).stack
  first : ∀ l, i < l → l < j → (m.moment op l).stack ≠ (m.moment op i).stack
  answer : (m.moment op j).control = .answer a

/-! ## Steps -/

section Steps

variable {env : Env} {s s' : State} {e : Method} {K : List Cont}

/-- The code of a frame goes on: the stack keeps its continuations but for code on top. -/
theorem Runs.stackStep {f : Frame} {c : Control} {K K' : List Cont} (h : Runs f c K K') (hK : s.stack = K)
    {P : List Cont} (hP : s'.stack = P ++ K') : StackStep s s' := by
  cases h with
  | eval => exact .keep (hK ▸ hP)
  | exec => exact .keep (hK ▸ hP)
  | resumed hk => exact .pop hK hk.2 hP

/-- What a step does to the stack. -/
theorem Transition.stackStep (h : Transition env s s') : StackStep s s' := by
  cases h with
  | go h | answer h | fail h | callVirtual h | callSuper h | superOverflow h =>
    exact h.stackStep (P := []) rfl rfl
  | @evaluate _ _ k _ _ _ _ _ h | @access _ _ k _ _ _ _ _ h => exact h.stackStep (P := [k]) rfl rfl
  | @enterSuper f _ _ _ _ _ _ _ _ _ h => exact h.stackStep (P := [.superDone f]) rfl rfl
  | @accessWrite f _ _ _ k => exact .pop (P := [k, .resume f]) rfl rfl rfl
  | @failWrite f => exact .pop (P := [.resume f]) rfl rfl rfl
  | give hv =>
    refine .leave rfl rfl rfl fun ty hty a ha => ?_
    cases hty
    cases ha
    exact ⟨_, rfl, methodResult_ok hv⟩
  | giveFail | constructed | superReturned | hostReturned => exact .leave rfl rfl rfl nofun
  | unwindActivation ha => exact .leave rfl ha rfl nofun
  | unwind ha => exact .pop (P := []) rfl ha rfl
  | operate hk | operateFail hk => exact .pop (P := []) rfl hk.isActivation rfl
  | @enterBody e => exact .keep (P := [.returning e.returns]) rfl
  | enterHost => exact .keep (P := [.hostCall]) rfl
  | create => exact .keep (P := [.constructing _]) rfl
  | @initParent c => exact .keep (P := [.ownStatics c, .initializing c]) rfl
  | @initRoot c => exact .keep (P := [.initializing c]) rfl
  | evalStatic => exact .keep (P := [.staticValue _ _ _ _]) rfl
  | enterBlock => exact .keep (P := [.staticBlock]) rfl
  | enterOverflow | hostService | hostReply | hostFail | createOverflow | createFail | initReady
  | initFailed | skipStatic | noBlock | ended => exact .keep (P := []) rfl
  | _ => exact .pop (P := []) rfl rfl rfl

/-- A call begins, unless the call depth is used up. -/
theorem Transition.enterCall (h : Transition env s s') {declaring : Class} {receiver : Option Handle}
    {args : List Value} (hc : s.control = .enter e declaring receiver args) :
    Calling e s.stack s' ∨ Called e s.stack s' := by
  cases h with
  | go h | answer h | fail h | callVirtual h | callSuper h | superOverflow h | evaluate h | access h
  | enterSuper h => cases hc; cases h
  | enterBody => cases hc; exact .inl (.body (L := []))
  | enterHost => cases hc; exact .inl .host
  | enterOverflow => exact .inr ⟨rfl, nofun⟩
  | ended hc' => rcases hc' with ⟨v, rfl⟩ | ⟨err, rfl⟩ <;> cases hc
  | _ => cases hc

/-- A call goes on until it is over. -/
theorem Calling.step (hs : Calling e K s) : Calling e K (s.step env) ∨ Called e K (s.step env) := by
  cases hs with
  | @body c L d σ =>
    have h := (State.step_transition env ⟨c, L ++ .returning e.returns :: K, d, σ⟩).stackStep
    generalize State.step env _ = s' at h ⊢
    obtain ⟨c', K', d', σ'⟩ := s'
    have hbody : ∀ P : List Cont, K' = P ++ .returning e.returns :: K → Calling e K ⟨c', K', d', σ'⟩ := by
      rintro P rfl
      exact .body
    cases h with
    | @keep P hP => exact .inl (hbody (P ++ L) (by rw [List.append_assoc]; exact hP))
    | @pop k rest P hK ha hP =>
      cases L with
      | nil => cases hK; cases ha
      | cons k' L => cases hK; exact .inl (hbody (P ++ L) (by rw [List.append_assoc]; exact hP))
    | @leave k rest hK ha hP hres =>
      cases L with
      | nil => cases hK; exact .inr ⟨hP, hres _ rfl⟩
      | cons k' L => cases hK; exact .inl (hbody L hP)
  | @host args p d σ =>
    have h := State.step_transition env ⟨.host e args p, .hostCall :: K, d, σ⟩
    generalize State.step env _ = s' at h ⊢
    cases h with
    | hostService => exact .inl .host
    | hostReply hv => exact .inl (.replied (HostReply.result_ok hv))
    | hostFail => exact .inl .failed
    | go h | answer h | fail h | callVirtual h | callSuper h | superOverflow h | evaluate h | access h
    | enterSuper h => cases h
  | @replied v d σ hv =>
    refine .inr ⟨rfl, fun a ha => ?_⟩
    cases ha
    exact ⟨v, rfl, hv⟩
  | failed => exact .inr ⟨rfl, nofun⟩

end Steps

/-! ## Runs -/

/-- A call that is over with an answer gives a value back that its declared type allows. -/
theorem Machine.Returns.yields {m : Machine} {op : Operation} {e : Method} {i j : Nat}
    {a : Option Value} (h : m.Returns op e i j a) : ∃ v, a = some v ∧ e.returns.Yields v := by
  obtain ⟨declaring, receiver, args, hc⟩ := h.entered
  -- until the call is over it is going on
  have hcall : ∀ l, i < l → l ≤ j → Calling e (m.moment op i).stack (m.moment op l) ∨
      Called e (m.moment op i).stack (m.moment op l) := by
    intro l hil
    induction l, hil using Nat.le_induction with
    | base =>
      intro _
      rw [m.moment_succ]
      exact (State.step_transition _ _).enterCall hc
    | succ l hil ih =>
      intro hlj
      rw [m.moment_succ]
      rcases ih (by omega) with hcalling | hcalled
      · exact hcalling.step
      · exact absurd hcalled.stack (h.first l hil (by omega))
  rcases hcall j h.later le_rfl with hcalling | hcalled
  · -- while it is going on there is something on top of the stack
    have hlen : ∀ s, Calling e (m.moment op i).stack s → (m.moment op i).stack.length < s.stack.length := by
      intro s hs
      cases hs <;> simp
      omega
    have hlt := hlen _ hcalling
    rw [h.back] at hlt
    omega
  · exact hcalled.yields a h.answer

end ObjectMachine
