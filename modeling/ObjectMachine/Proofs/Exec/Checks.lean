/-
The errors that checks raise. A look-up, a selection, a field access, an operator and the check of a
result fail with an error that names what was wrong there; none of them reports an exhausted call
depth or a failed initialization. Beside each check stands what its success says.
-/
import ObjectMachine.Exec.Step
import Mathlib.Tactic

namespace ObjectMachine

/-- An error that a check raises. The others are those of an exhausted call depth and of a failed
initialization. -/
def Failure.IsCheck : Failure → Prop
  | .staticInitFailed _ _ | .stackOverflow _ => False
  | _ => True

theorem CallKind.wants_iff (k : CallKind) (e : Method) :
    k.wants e = true ↔ (e.isStatic = true ↔ k = .static) := by
  unfold CallKind.wants
  cases k <;> cases e.isStatic <;> simp

namespace Class

/-- A call without nulls selects the entry under its key. -/
theorem select_of_get? {c : Class} {kind : CallKind} {name : String} {args : List Value} {key : Signature}
    {e : Method} (hkey : Signature.ofArgs? name args = some key) (he : c.methods.get? key = some e)
    (hwants : kind.wants e = true) : c.select kind name args = .ok e := by
  simp only [select, hkey, he, hwants, if_true]

/-- A call selects a method of its own kind. -/
theorem select_wants {c : Class} {kind : CallKind} {name : String} {args : List Value} {e : Method}
    (h : c.select kind name args = .ok e) : kind.wants e = true ∧ e ∈ c.methods.entries := by
  unfold select at h
  split at h
  · rename_i key _
    split at h
    · rename_i x hx
      split at h
      · rename_i hw; cases h; exact ⟨hw, List.mem_of_find?_eq_some hx⟩
      · cases h
    · cases h
  · split at h
    · cases h
    · rename_i x hx
      cases h
      have hm : e ∈ (c.methods.candidates name args).filter kind.wants := by rw [hx]; simp
      have hm' := (List.mem_filter.1 hm).1
      exact ⟨(List.mem_filter.1 hm).2, (List.mem_filter.1 hm').1⟩
    · cases h

theorem select_onInstance {c : Class} {name : String} {args : List Value} {e : Method}
    (h : c.select .onInstance name args = .ok e) : e.isStatic = false := by
  have hw := (CallKind.wants_iff _ _).1 (select_wants h).1
  simpa using hw

theorem select_static {c : Class} {name : String} {args : List Value} {e : Method}
    (h : c.select .static name args = .ok e) : e.isStatic = true :=
  ((CallKind.wants_iff _ _).1 (select_wants h).1).2 rfl

theorem select_isCheck {c : Class} {kind : CallKind} {name : String} {args : List Value} {e : Failure}
    (h : c.select kind name args = .error e) : e.IsCheck := by
  unfold select at h
  split at h <;> split at h
  · split at h <;> cases h; trivial
  · cases h; trivial
  · cases h; trivial
  · cases h
  · cases h; trivial

theorem selectConstructor_mem {c : Class} {args : List Value} {k : Constructor}
    (h : c.selectConstructor args = .ok k) : k ∈ c.constructors := by
  unfold selectConstructor at h
  split at h
  · rename_i x hx
    cases h
    have hm : k ∈ c.constructors.filter (·.accepts args) := by rw [hx]; simp
    exact (List.mem_filter.1 hm).1
  · cases h

theorem selectConstructor_isCheck {c : Class} {args : List Value} {e : Failure}
    (h : c.selectConstructor args = .error e) : e.IsCheck := by
  unfold selectConstructor at h
  split at h <;> cases h; trivial

end Class

theorem Registry.lookup_isCheck {r : Registry} {u : UnitId} {name : String} {e : Failure}
    (h : r.lookup u name = .error e) : e.IsCheck := by
  unfold Registry.lookup at h
  split at h <;> cases h; trivial

theorem selectVirtual_ok {classOf : Handle → Option Class} {receiver : Value} {name : String}
    {args : List Value} {ref : Handle} {e : Method}
    (h : selectVirtual classOf receiver name args = .ok (ref, e)) :
    receiver = .object ref ∧ ∃ c, classOf ref = some c ∧ c.select .onInstance name args = .ok e := by
  unfold selectVirtual at h
  split at h
  · rename_i ref'
    split at h
    · rename_i c hc
      rcases hs : c.select .onInstance name args with x | x <;> rw [hs] at h <;> cases h
      exact ⟨rfl, c, hc, hs⟩
    · cases h
  · cases h
  · cases h

theorem selectVirtual_isCheck {classOf : Handle → Option Class} {receiver : Value} {name : String}
    {args : List Value} {e : Failure} (h : selectVirtual classOf receiver name args = .error e) :
    e.IsCheck := by
  unfold selectVirtual at h
  split at h
  · split at h
    · rename_i c hc
      rcases hs : c.select .onInstance name args with x | x <;> rw [hs] at h <;> cases h
      exact Class.select_isCheck hs
    · cases h; trivial
  · cases h; trivial
  · cases h; trivial

theorem locateField_ok {classOf : Handle → Option Class} {owner : Class} {target : Value}
    {field access : String} {ref : Handle} {slot : Nat}
    (h : locateField classOf owner target field access = .ok (ref, slot)) :
    target = .object ref ∧ owner.fieldIndex? field = some slot ∧
      ∃ c, classOf ref = some c ∧ c.descendsFrom owner = true := by
  unfold locateField at h
  simp only at h
  split at h
  · split at h
    · cases h
    · rename_i c hc
      split at h
      · rename_i hd
        split at h <;> cases h
        rename_i hslot
        exact ⟨rfl, hslot, c, hc, hd⟩
      · cases h
  · cases h
  · cases h

theorem locateField_isCheck {classOf : Handle → Option Class} {owner : Class} {target : Value}
    {field access : String} {e : Failure}
    (h : locateField classOf owner target field access = .error e) : e.IsCheck := by
  unfold locateField at h
  simp only at h
  split at h
  · split at h
    · cases h; trivial
    · split at h
      · split at h <;> cases h; trivial
      · cases h; trivial
  · cases h; trivial
  · cases h; trivial

/-- What a method may give back: a value of its declared type, or null if it declares none. -/
def Ty.Yields (returns : Ty) (v : Value) : Prop :=
  v.conformsTo returns = true ∨ (returns = .void ∧ v = .null)

theorem methodResult_ok {ty : Ty} {a : Option Value} {v : Value} (h : methodResult ty a = .ok v) :
    ty.Yields v := by
  unfold methodResult at h
  split at h
  · split at h <;> cases h
    rename_i hty
    exact .inr ⟨hty, rfl⟩
  · split at h
    · cases h
    · split at h <;> cases h
      rename_i hconf
      exact .inl hconf

/-- The result is what the body gave back, or null if it gave nothing back. -/
theorem methodResult_value {ty : Ty} {a : Option Value} {v : Value} (h : methodResult ty a = .ok v) :
    v = a.getD .null := by
  unfold methodResult at h
  split at h
  · split at h <;> cases h; rfl
  · split at h
    · cases h
    · split at h <;> cases h; rfl

theorem methodResult_isCheck {ty : Ty} {a : Option Value} {e : Failure}
    (h : methodResult ty a = .error e) : e.IsCheck := by
  unfold methodResult at h
  split at h
  · split at h <;> cases h; trivial
  · split at h
    · cases h; trivial
    · split at h <;> cases h; trivial

theorem HostReply.result_ok {m : Method} {r : HostReply} {v : Value} (h : r.result m = .ok v) :
    m.returns.Yields v := by
  unfold HostReply.result at h
  simp only at h
  split at h
  · split at h <;> cases h
    rename_i hty
    exact .inr ⟨hty, rfl⟩
  · split at h
    · cases h
    · split at h <;> cases h
      rename_i hconf
      exact .inl hconf
  all_goals cases h

/-- The result is the value of the reply, or null if there is none. -/
theorem HostReply.result_value {m : Method} {r : HostReply} {v : Value} (h : r.result m = .ok v) :
    v = .null ∨ r = .value v := by
  unfold HostReply.result at h
  simp only at h
  split at h
  · split at h <;> cases h
    exact .inl rfl
  · split at h
    · cases h
    · split at h <;> cases h
      exact .inr rfl
  all_goals cases h

theorem HostReply.result_isCheck {m : Method} {r : HostReply} {e : Failure}
    (h : r.result m = .error e) : e.IsCheck := by
  unfold HostReply.result at h
  simp only at h
  split at h
  · split at h <;> cases h; trivial
  · split at h
    · cases h; trivial
    · split at h <;> cases h; trivial
  all_goals cases h; trivial

theorem UnaryOp.apply_isCheck {op : UnaryOp} {v : Value} {e : Failure}
    (h : op.apply v = .error e) : e.IsCheck := by
  unfold UnaryOp.apply at h
  split at h <;> cases h <;> trivial

theorem BinaryOp.equal_isCheck {a b : Value} {e : Failure} (h : BinaryOp.equal a b = .error e) :
    e.IsCheck := by
  unfold BinaryOp.equal at h
  split at h
  · split at h <;> cases h; trivial
  · cases h

theorem BinaryOp.Ordering.apply_isCheck {op : BinaryOp.Ordering} {a b : Value} {e : Failure}
    (h : op.apply a b = .error e) : e.IsCheck := by
  unfold BinaryOp.Ordering.apply at h
  split at h <;> cases h; trivial

theorem BinaryOp.Arithmetic.apply_isCheck {nameOf : Handle → String} {op : BinaryOp.Arithmetic}
    {a b : Value} {e : Failure} (h : op.apply nameOf a b = .error e) : e.IsCheck := by
  unfold BinaryOp.Arithmetic.apply at h
  split at h
  · unfold BinaryOp.Arithmetic.onInt at h
    split at h <;> first | cases h | (split at h <;> cases h; trivial)
  · unfold BinaryOp.Arithmetic.onLong at h
    split at h <;> first | cases h | (split at h <;> cases h; trivial)
  · split at h <;> cases h; trivial

theorem BinaryOp.apply_isCheck {nameOf : Handle → String} {op : BinaryOp} {a b : Value} {e : Failure}
    (h : op.apply nameOf a b = .error e) : e.IsCheck := by
  have hmap : ∀ (g : Bool → Value), (BinaryOp.equal a b).map g = .error e → e.IsCheck := by
    intro g hg
    rcases hq : BinaryOp.equal a b with x | x <;> rw [hq] at hg <;> cases hg
    exact BinaryOp.equal_isCheck hq
  unfold BinaryOp.apply at h
  split at h
  all_goals first
    | exact BinaryOp.Arithmetic.apply_isCheck h
    | exact BinaryOp.Ordering.apply_isCheck h
    | exact hmap _ h

/-! ## What operators answer -/

theorem UnaryOp.apply_ok {op : UnaryOp} {v w : Value} (h : op.apply v = .ok w) : w.handles = [] := by
  unfold UnaryOp.apply at h
  split at h <;> cases h <;> rfl

theorem BinaryOp.Ordering.apply_ok {op : BinaryOp.Ordering} {a b w : Value} (h : op.apply a b = .ok w) :
    w.handles = [] := by
  unfold BinaryOp.Ordering.apply at h
  split at h <;> cases h <;> rfl

theorem BinaryOp.Arithmetic.onInt_ok {op : BinaryOp.Arithmetic} {a b : Int32} {w : Value}
    (h : op.onInt a b = .ok w) : w.handles = [] := by
  unfold BinaryOp.Arithmetic.onInt at h
  split at h <;> first | (cases h; rfl) | (split at h <;> cases h; rfl)

theorem BinaryOp.Arithmetic.onLong_ok {op : BinaryOp.Arithmetic} {a b : Int64} {w : Value}
    (h : op.onLong a b = .ok w) : w.handles = [] := by
  unfold BinaryOp.Arithmetic.onLong at h
  split at h <;> first | (cases h; rfl) | (split at h <;> cases h; rfl)

theorem BinaryOp.Arithmetic.apply_ok {nameOf : Handle → String} {op : BinaryOp.Arithmetic} {a b w : Value}
    (h : op.apply nameOf a b = .ok w) : w.handles = [] := by
  unfold BinaryOp.Arithmetic.apply at h
  split at h
  · exact onInt_ok h
  · exact onLong_ok h
  · split at h <;> cases h; rfl

/-- No operator answers an object. -/
theorem BinaryOp.apply_ok {nameOf : Handle → String} {op : BinaryOp} {a b w : Value}
    (h : op.apply nameOf a b = .ok w) : w.handles = [] := by
  have hmap : ∀ (g : Bool → Value), (∀ x, (g x).handles = []) → (BinaryOp.equal a b).map g = .ok w →
      w.handles = [] := by
    intro g hg h
    rcases hq : BinaryOp.equal a b with x | x <;> rw [hq] at h <;> cases h
    exact hg x
  cases op with
  | add | sub | mul | div | rem => exact BinaryOp.Arithmetic.apply_ok h
  | eq | ne => exact hmap _ (fun _ => rfl) h
  | lt | le | gt | ge => exact BinaryOp.Ordering.apply_ok h

end ObjectMachine
