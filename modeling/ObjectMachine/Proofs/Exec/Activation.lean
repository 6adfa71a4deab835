/-
What a body runs itself. A body that begins puts an activation on the stack, which stays there until the
body is over. Above it stand the code of the body, what the body has called, and the initializations of
classes that it waits for. Where nothing that was called is active the code is that of the body, but for
initializations, which have no receiver. So the code that runs with a receiver as deep as the body began
is code of the frame that began it.
-/
import ObjectMachine.Proofs.Exec.Depth
import ObjectMachine.Proofs.Exec.Receivers

namespace ObjectMachine

/-! ## Definitions -/

/-- `f` has no receiver, or is of the activation that `g` is of. -/
def Frame.Covers (g f : Frame) : Prop := f.this = none ∨ g.SameSite f

/-- The frames of a part of the stack that have no activation below them there are covered by `g`. -/
def Frame.Owns (g : Frame) : List Cont → Prop
  | [] => True
  | k :: K => (activations K = 0 → ∀ f, k.frame? = some f → g.Covers f) ∧ g.Owns K

/-- Above the stack `B` a body that began as `g` is going on: what it runs itself is its own code. -/
def Within (g : Frame) (B : List Cont) (s : State) : Prop :=
  ∃ own, s.stack = own ++ B ∧ g.Owns own ∧
    (activations own = 0 → ∀ f, s.control.frame? = some f → g.Covers f)

/-- Whatever covers the frame in hand covers the frames of the new continuations `P` and of the control
`c`, but for a control above a new activation. -/
def Carries (hand : Option Frame) (P : List Cont) (c : Control) : Prop :=
  ∀ g : Frame, (∀ f, hand = some f → g.Covers f) →
    (∀ k ∈ P, ∀ f, k.frame? = some f → g.Covers f) ∧
      (activations P = 0 → ∀ f, c.frame? = some f → g.Covers f)

/-- What a step does with frames: it has that of the control in hand or that of the continuation on top
of the stack, and nothing is put in the place of an activation. -/
inductive FrameStep (s s' : State) : Prop where
  | keep {P} : s'.stack = P ++ s.stack → Carries s.control.frame? P s'.control → FrameStep s s'
  | pop {k K P} : s.stack = k :: K → s'.stack = P ++ K → (k.isActivation = true → P = []) →
      Carries k.frame? P s'.control → FrameStep s s'

/-- A body begins at the moment `b` of a run as the frame `g`. -/
structure Machine.BeginsBody (m : Machine) (op : Operation) (b : Nat) (g : Frame) : Prop where
  control : (m.moment op b).control = .exec g
  stack : ∃ k K, (m.moment op b).stack = k :: K ∧ k.isActivation = true

/-- The body that began at the moment `b` is not over until `j`, and nothing that it has called is active
then. -/
structure Machine.RunsItself (m : Machine) (op : Operation) (b j : Nat) : Prop where
  later : b ≤ j
  stays : ∀ l, b ≤ l → l ≤ j → (m.moment op b).stack <:+ (m.moment op l).stack
  itself : (m.moment op j).depth = (m.moment op b).depth

/-! ## Frames -/

section Frames

variable {f g h : Frame} {P own : List Cont} {c : Control}

theorem Frame.Covers.refl (g : Frame) : g.Covers g := .inr .rfl

theorem Frame.Covers.trans (h1 : g.Covers f) (h2 : f.Covers h) : g.Covers h := by
  rcases h2 with hnone | hs
  · exact .inl hnone
  · rcases h1 with hnone | hs'
    · exact .inl (hs.this.trans hnone)
    · exact .inr (hs'.trans hs)

/-- More on top of what `g` owns. -/
theorem Frame.Owns.append (ho : g.Owns own)
    (hP : activations own = 0 → ∀ k ∈ P, ∀ f, k.frame? = some f → g.Covers f) : g.Owns (P ++ own) := by
  induction P with
  | nil => exact ho
  | cons k P ih =>
    have hrest := ih fun hz k' hk' => hP hz k' (List.mem_cons_of_mem _ hk')
    refine ⟨fun hzero => hP ?_ k List.mem_cons_self, hrest⟩
    have hsum := activations_append P own
    have hboth : activations (P ++ own) = 0 := hzero
    omega

/-- What is put somewhere is the frame in hand, or has no receiver. -/
theorem Carries.of {hand : Option Frame}
    (hP : ∀ k ∈ P, ∀ f, k.frame? = some f → f.this = none ∨ hand = some f)
    (hc : activations P = 0 → ∀ f, c.frame? = some f → f.this = none ∨ hand = some f) :
    Carries hand P c := fun _ hg =>
  ⟨fun k hk f hf => (hP k hk f hf).elim .inl (hg f), fun hz f hf => (hc hz f hf).elim .inl (hg f)⟩

/-- No frame is put anywhere. -/
theorem Carries.empty {hand : Option Frame} (hP : ∀ k ∈ P, k.frame? = none) (hc : c.frame? = none) :
    Carries hand P c :=
  .of (fun k hk f hf => by rw [hP k hk] at hf; cases hf) fun _ f hf => by rw [hc] at hf; cases hf

theorem Carries.same {hand : Frame} (h : Carries (some f) P c) (hs : hand.SameSite f) :
    Carries (some hand) P c := fun g hg =>
  h g fun f' hf' => by
    cases hf'
    exact (hg hand rfl).trans (.inr hs)

end Frames

/-! ## Steps -/

section Steps

variable {env : Env} {s s' : State} {f g : Frame} {c : Control} {B K K' P : List Cont}

/-- The code of the frame `f` goes on. -/
theorem Runs.frameStep (h : Runs f c K K') (hs : s.control = c) (hK : s.stack = K)
    (hP : s'.stack = P ++ K') (hc : Carries (some f) P s'.control) : FrameStep s s' := by
  cases h with
  | eval hsame => exact .keep (hK ▸ hP) (by rw [hs]; exact hc.same hsame)
  | exec hsame => exact .keep (hK ▸ hP) (by rw [hs]; exact hc.same hsame)
  | resumed hk hsame =>
    refine .pop hK hP (fun hact => ?_) (by rw [hk.1]; exact hc.same hsame)
    rw [hk.2] at hact
    cases hact

theorem Transition.frameStep (h : Transition env s s') : FrameStep s s' := by
  cases h with
  -- the code of a frame
  | go h => exact h.frameStep (P := []) rfl rfl rfl (.of (by simp) fun _ _ => .inr)
  | answer h | fail h | callVirtual h | callSuper h | superOverflow h =>
    exact h.frameStep (P := []) rfl rfl rfl (.empty (by simp) rfl)
  | @evaluate _ _ k _ _ _ _ _ h hk =>
    refine h.frameStep (P := [k]) rfl rfl rfl (.of (fun k' hk' g hg => ?_) fun _ _ => .inr)
    rw [List.mem_singleton.1 hk'] at hg
    rcases hk with hk | hk
    · rw [hk.frame?] at hg
      cases hg
    · exact .inr (hk.1.symm.trans hg)
  | @access _ _ k _ _ _ _ _ h hk =>
    exact h.frameStep (P := [k]) rfl rfl rfl (.empty (by simp [hk.frame?]) rfl)
  | @accessWrite f _ _ _ k _ _ _ _ hk =>
    refine .pop (P := [k, .resume f]) rfl rfl (by simp [Cont.isActivation])
      (.of (List.forall_mem_cons.2 ⟨?_, ?_⟩) (by simp [Control.frame?]))
    · simp [hk.frame?]
    · simp [Cont.frame?]
  | @failWrite f =>
    exact .pop (P := [.resume f]) rfl rfl (by simp [Cont.isActivation])
      (.of (by simp [Cont.frame?]) (by simp [Control.frame?]))
  | @enterSuper f _ _ _ _ _ _ _ _ _ h =>
    refine h.frameStep (P := [.superDone f]) rfl rfl rfl (.of (by simp [Cont.frame?]) fun hz => ?_)
    cases hz
  | putField | superReturned => exact .pop (P := []) rfl rfl (by simp) (.of (by simp) fun _ _ => .inr)
  -- bodies, host functions and new objects
  | @enterBody e =>
    exact .keep (P := [.returning e.returns]) rfl (.of (by simp [Cont.frame?]) fun hz => by cases hz)
  | enterHost => exact .keep (P := [.hostCall]) rfl (.empty (by simp [Cont.frame?]) rfl)
  | create =>
    exact .keep (P := [.constructing _]) rfl (.of (by simp [Cont.frame?]) fun hz => by cases hz)
  -- static initialization
  | @initParent c =>
    exact .keep (P := [.ownStatics c, .initializing c]) rfl (.empty (by simp [Cont.frame?]) rfl)
  | @initRoot c => exact .keep (P := [.initializing c]) rfl (.empty (by simp [Cont.frame?]) rfl)
  | evalStatic =>
    refine .keep (P := [.staticValue _ _ _ _]) rfl (.of (by simp [Cont.frame?]) fun _ g hg => .inl ?_)
    cases hg
    rfl
  | enterBlock =>
    refine .keep (P := [.staticBlock]) rfl (.of (by simp [Cont.frame?]) fun _ g hg => .inl ?_)
    cases hg
    rfl
  -- answers and errors that pass on
  | enterOverflow | hostService | hostReply | hostFail | createOverflow | createFail | initReady
  | initFailed | skipStatic | noBlock => exact .keep (P := []) rfl (.empty (by simp) rfl)
  | ended hc =>
    refine .keep (P := []) rfl (.empty (by simp) ?_)
    rcases hc with ⟨v, rfl⟩ | ⟨e, rfl⟩ <;> rfl
  | _ => exact .pop (P := []) rfl rfl (by simp) (.empty (by simp) rfl)

/-- A body that is not over goes on with its own code. -/
theorem Within.step (h : Transition env s s') (hs : Within g B s)
    (hB : ∃ k K, B = k :: K ∧ k.isActivation = true) (hstay : B <:+ s'.stack) : Within g B s' := by
  obtain ⟨own, hstack, ho, hctl⟩ := hs
  cases h.frameStep with
  | @keep P hP hc =>
    refine ⟨P ++ own, by rw [hP, hstack, List.append_assoc], ho.append fun hz => ?_, fun hz => ?_⟩
    · exact (hc g (hctl hz)).1
    · rw [activations_append] at hz
      exact (hc g (hctl (by omega))).2 (by omega)
  | @pop k K P hK hP hact hc =>
    rw [hK] at hstack
    cases own with
    | nil =>
      -- the activation itself is not taken off
      obtain ⟨k', K', hB, hk'⟩ := hB
      obtain ⟨rfl, rfl⟩ := List.cons.inj (hstack.trans hB)
      rw [hP, hact hk', hB] at hstay
      exact absurd hstay.length_le (by simp)
    | cons k' own =>
      obtain ⟨rfl, rfl⟩ := List.cons.inj hstack
      refine ⟨P ++ own, hP.trans (List.append_assoc ..).symm, ho.2.append fun hz => ?_, fun hz => ?_⟩
      · exact (hc g (ho.1 hz)).1
      · rw [activations_append] at hz
        exact (hc g (ho.1 (by omega))).2 (by omega)

end Steps

/-! ## Runs -/

section Runs

variable {m : Machine} {op : Operation} {b j : Nat} {g f : Frame}

theorem Machine.BeginsBody.within (hb : m.BeginsBody op b g) (h : m.RunsItself op b j) :
    Within g (m.moment op b).stack (m.moment op j) := by
  obtain ⟨hle, hstay, -⟩ := h
  induction j, hle using Nat.le_induction with
  | base =>
    refine ⟨[], rfl, trivial, fun _ f hf => ?_⟩
    rw [hb.control] at hf
    cases hf
    exact .refl g
  | succ j hle ih =>
    have hbefore := ih fun l hl hlj => hstay l hl (by omega)
    have hafter := hstay (j + 1) (by omega) le_rfl
    rw [m.moment_succ] at hafter ⊢
    exact hbefore.step (State.step_transition _ _) hb.stack hafter

/-- The code that runs with a receiver where the body itself runs is code of the body. -/
theorem Machine.BeginsBody.sameSite {past : List State} (hm : History (fun _ => True) m past)
    (hb : m.BeginsBody op b g) (h : m.RunsItself op b j) {K : List Cont}
    (hf : Runs f (m.moment op j).control (m.moment op j).stack K) (hthis : f.this ≠ none) :
    g.SameSite f := by
  have hdepth := h.itself
  rw [(counts_invariant.moment hm trivial j).depth, (counts_invariant.moment hm trivial b).depth] at hdepth
  obtain ⟨k, K', hB, hact⟩ := hb.stack
  obtain ⟨own, hstack, ho, hctl⟩ := hb.within h
  rw [hstack, activations_append] at hdepth
  have hnone : activations own = 0 := by omega
  -- it is in the control, or on top of the body's own part of the stack
  have hcovers : g.Covers f := by
    generalize (m.moment op j).control = c at hf hctl
    rw [hstack] at hf
    generalize hall : own ++ (m.moment op b).stack = L at hf
    cases hf with
    | eval hs => exact (hctl hnone _ rfl).trans (.inr hs)
    | exec hs => exact (hctl hnone _ rfl).trans (.inr hs)
    | @resumed f' v top K hk hs =>
      cases own with
      | nil =>
        -- an activation is no code
        rw [hB] at hall
        cases hall
        rw [hk.2] at hact
        cases hact
      | cons top' own =>
        cases hall
        rw [activations_pass hk.2] at hnone
        exact (ho.1 hnone _ hk.1).trans (.inr hs)
  exact hcovers.resolve_left hthis

end Runs

end ObjectMachine
