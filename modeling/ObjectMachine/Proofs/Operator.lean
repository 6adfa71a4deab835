/-
Integer arithmetic, told in whole numbers. A word of 32 or 64 bits stands for one number of its range, and
an operator answers the word for the exact result, reduced modulo two to the number of bits. Two words of
one width that stand for congruent numbers are the same word: so what holds of whole numbers up to a
multiple of the modulus holds of words, and that is how quotient and remainder of a division come together
again where the quotient has been reduced.
-/
import ObjectMachine.Operator
import Mathlib.Tactic

namespace ObjectMachine

/-! ## Definitions -/

/-- The widths of integers. -/
inductive Width where
  | int
  | long

namespace Width

def bits : Width → Nat
  | .int => 32
  | .long => 64

/-- The words of a width. -/
def Word : Width → Type
  | .int => Int32
  | .long => Int64

variable (w : Width)

/-- The number that a word stands for. -/
def number : (w : Width) → w.Word → Int
  | .int, a => Int32.toInt a
  | .long, a => Int64.toInt a

def value : (w : Width) → w.Word → Value
  | .int, a => .int a
  | .long, a => .long a

/-- The least number of a width. -/
def least : Int := -2 ^ (w.bits - 1)

/-- A number reduced to the range of a width, modulo two to the number of its bits. -/
structure Reduces (n m : Int) : Prop where
  low : w.least ≤ m
  high : m < 2 ^ (w.bits - 1)
  congr : m ≡ n [ZMOD 2 ^ w.bits]

/-- The answer is the word for a number, reduced. -/
def Answers (r : Except Failure Value) (n : Int) : Prop :=
  ∃ c : w.Word, r = .ok (w.value c) ∧ w.Reduces n (w.number c)

end Width

/-- Division toward zero: what remains has the sign of the dividend. -/
structure Truncates (x y q r : Int) : Prop where
  sum : x = y * q + r
  lt : |r| < |y|
  sign : r = 0 ∨ r.sign = x.sign

theorem truncates_tdiv (x : Int) {y : Int} (hy : y ≠ 0) : Truncates x y (x.tdiv y) (x.tmod y) where
  sum := (Int.mul_tdiv_add_tmod x y).symm
  lt := by
    rw [Int.abs_eq_natAbs, Int.abs_eq_natAbs, Int.natAbs_tmod]
    exact_mod_cast Nat.mod_lt _ (Int.natAbs_pos.2 hy)
  sign := by
    by_cases h : y ∣ x
    · exact .inl (Int.tmod_eq_zero_of_dvd h)
    · exact .inr (by rw [Int.sign_tmod, if_neg h])

namespace Width

/-! ## Words and numbers -/

section Words

variable {w : Width}

theorem number_injective : Function.Injective w.number := by
  cases w with
  | int => exact fun a b => Int32.toInt.inj
  | long => exact fun a b => Int64.toInt.inj

theorem reduces_number (a : w.Word) : w.Reduces (w.number a) (w.number a) := by
  cases w with
  | int => exact ⟨Int32.le_toInt a, Int32.toInt_lt a, .rfl⟩
  | long => exact ⟨Int64.le_toInt a, Int64.toInt_lt a, .rfl⟩

/-- The range has as many numbers as the modulus, so a number is reduced in one way. -/
theorem Reduces.unique {n m m' : Int} (h : w.Reduces n m) (h' : w.Reduces n m') : m = m' := by
  obtain ⟨hlow, hhigh, hmod⟩ := h
  obtain ⟨hlow', hhigh', hmod'⟩ := h'
  have heq : m ≡ m' [ZMOD 2 ^ w.bits] := hmod.trans hmod'.symm
  cases w <;> simp only [least, bits, Int.ModEq] at * <;> omega

theorem reduces_bmod {n m : Int} (h : m = n.bmod (2 ^ w.bits)) : w.Reduces n m := by
  subst h
  have hpos : 0 < 2 ^ w.bits := Nat.two_pow_pos _
  have hlow := Int.le_bmod (x := n) hpos
  have hhigh := Int.bmod_lt (x := n) hpos
  have hcongr : n.bmod (2 ^ w.bits) ≡ n [ZMOD (2 ^ w.bits : Nat)] := Int.bmod_emod
  refine ⟨?_, ?_, by exact_mod_cast hcongr⟩ <;> cases w <;> simp only [least, bits] at * <;> omega

end Words

/-! ## Operators -/

section Operators

variable (nameOf : Handle → String) (w : Width) (a b : w.Word)

theorem answers_add :
    w.Answers (BinaryOp.add.apply nameOf (w.value a) (w.value b)) (w.number a + w.number b) := by
  cases w with
  | int => exact ⟨Int32.add a b, rfl, reduces_bmod (Int32.toInt_add a b)⟩
  | long => exact ⟨Int64.add a b, rfl, reduces_bmod (Int64.toInt_add a b)⟩

theorem answers_sub :
    w.Answers (BinaryOp.sub.apply nameOf (w.value a) (w.value b)) (w.number a - w.number b) := by
  cases w with
  | int => exact ⟨Int32.sub a b, rfl, reduces_bmod (Int32.toInt_sub a b)⟩
  | long => exact ⟨Int64.sub a b, rfl, reduces_bmod (Int64.toInt_sub a b)⟩

theorem answers_mul :
    w.Answers (BinaryOp.mul.apply nameOf (w.value a) (w.value b)) (w.number a * w.number b) := by
  cases w with
  | int => exact ⟨Int32.mul a b, rfl, reduces_bmod (Int32.toInt_mul a b)⟩
  | long => exact ⟨Int64.mul a b, rfl, reduces_bmod (Int64.toInt_mul a b)⟩

theorem answers_neg : w.Answers (UnaryOp.neg.apply (w.value a)) (-w.number a) := by
  cases w with
  | int => exact ⟨Int32.neg a, rfl, reduces_bmod (Int32.toInt_neg a)⟩
  | long => exact ⟨Int64.neg a, rfl, reduces_bmod (Int64.toInt_neg a)⟩

theorem divides_zero {b : w.Word} (hb : w.number b = 0) :
    BinaryOp.div.apply nameOf (w.value a) (w.value b) = .error .divisionByZero ∧
    BinaryOp.rem.apply nameOf (w.value a) (w.value b) = .error .divisionByZero := by
  cases w with
  | int =>
    have hzero : b = (0 : Int32) := Int32.toInt.inj hb
    exact ⟨if_pos hzero, if_pos hzero⟩
  | long =>
    have hzero : b = (0 : Int64) := Int64.toInt.inj hb
    exact ⟨if_pos hzero, if_pos hzero⟩

/-- The quotient is reduced where it lies out of range; the remainder never does. -/
theorem divides_tdiv {b : w.Word} (hb : w.number b ≠ 0) : ∃ q r : w.Word,
    BinaryOp.div.apply nameOf (w.value a) (w.value b) = .ok (w.value q) ∧
    BinaryOp.rem.apply nameOf (w.value a) (w.value b) = .ok (w.value r) ∧
    w.Reduces ((w.number a).tdiv (w.number b)) (w.number q) ∧
    (¬ (w.number a = w.least ∧ w.number b = -1) → w.number q = (w.number a).tdiv (w.number b)) ∧
    w.number r = (w.number a).tmod (w.number b) := by
  cases w with
  | int =>
    have hzero : b ≠ (0 : Int32) := fun h => hb (h ▸ rfl)
    refine ⟨Int32.div a b, Int32.mod a b, if_neg hzero, if_neg hzero, reduces_bmod (Int32.toInt_div a b),
      fun hover => ?_, Int32.toInt_mod a b⟩
    by_cases ha : a = Int32.minValue
    · exact Int32.toInt_div_of_ne_right a b fun hone => hover ⟨ha ▸ rfl, hone ▸ rfl⟩
    · exact Int32.toInt_div_of_ne_left a b ha
  | long =>
    have hzero : b ≠ (0 : Int64) := fun h => hb (h ▸ rfl)
    refine ⟨Int64.div a b, Int64.mod a b, if_neg hzero, if_neg hzero, reduces_bmod (Int64.toInt_div a b),
      fun hover => ?_, Int64.toInt_mod a b⟩
    by_cases ha : a = Int64.minValue
    · exact Int64.toInt_div_of_ne_right a b fun hone => hover ⟨ha ▸ rfl, hone ▸ rfl⟩
    · exact Int64.toInt_div_of_ne_left a b ha

/-- The least number divided by minus one is the one quotient out of range. -/
theorem divides_truncating {b : w.Word} (hb : w.number b ≠ 0) : ∃ q r : w.Word,
    BinaryOp.div.apply nameOf (w.value a) (w.value b) = .ok (w.value q) ∧
    BinaryOp.rem.apply nameOf (w.value a) (w.value b) = .ok (w.value r) ∧
    if w.number a = w.least ∧ w.number b = -1 then w.number q = w.least ∧ w.number r = 0
    else Truncates (w.number a) (w.number b) (w.number q) (w.number r) := by
  obtain ⟨q, r, hdiv, hrem, hreduced, hquotient, hremainder⟩ := w.divides_tdiv nameOf a hb
  refine ⟨q, r, hdiv, hrem, ?_⟩
  split
  · rename_i hover
    rw [hover.1, hover.2, Int.tdiv_neg, Int.tdiv_one] at hreduced
    have hleast : w.Reduces (-w.least) w.least := by
      refine ⟨le_rfl, ?_, ?_⟩ <;> cases w <;> decide
    exact ⟨hreduced.unique hleast, by rw [hremainder, hover.2, Int.tmod_neg, Int.tmod_one]⟩
  · rename_i hover
    rw [hquotient hover, hremainder]
    exact truncates_tdiv _ hb

theorem divisionByZero_iff (b : w.Word) :
    (BinaryOp.div.apply nameOf (w.value a) (w.value b) = .error .divisionByZero ↔ w.number b = 0) ∧
    (BinaryOp.rem.apply nameOf (w.value a) (w.value b) = .error .divisionByZero ↔ w.number b = 0) := by
  by_cases hb : w.number b = 0
  · obtain ⟨hdiv, hrem⟩ := w.divides_zero nameOf a hb
    exact ⟨iff_of_true hdiv hb, iff_of_true hrem hb⟩
  · obtain ⟨q, r, hdiv, hrem, -⟩ := w.divides_tdiv nameOf a hb
    rw [hdiv, hrem]
    exact ⟨iff_of_false nofun hb, iff_of_false nofun hb⟩

/-- Quotient and remainder make up the dividend, also where the quotient has been reduced. -/
theorem div_mul_add_rem {b : w.Word} (hb : w.number b ≠ 0) :
    (do
      let q ← BinaryOp.div.apply nameOf (w.value a) (w.value b)
      let p ← BinaryOp.mul.apply nameOf q (w.value b)
      let r ← BinaryOp.rem.apply nameOf (w.value a) (w.value b)
      BinaryOp.add.apply nameOf p r) = .ok (w.value a) := by
  obtain ⟨q, r, hdiv, hrem, hquotient, -, hremainder⟩ := w.divides_tdiv nameOf a hb
  obtain ⟨p, hmul, hproduct⟩ := w.answers_mul nameOf q b
  obtain ⟨c, hadd, hsum⟩ := w.answers_add nameOf p r
  have hcongr : w.number c ≡ w.number a [ZMOD 2 ^ w.bits] :=
    calc w.number c
      _ ≡ w.number p + w.number r [ZMOD 2 ^ w.bits] := hsum.congr
      _ ≡ w.number q * w.number b + w.number r [ZMOD 2 ^ w.bits] := hproduct.congr.add_right _
      _ ≡ (w.number a).tdiv (w.number b) * w.number b + w.number r [ZMOD 2 ^ w.bits] :=
        (hquotient.congr.mul_right _).add_right _
      _ = w.number a := by rw [hremainder, Int.tdiv_mul_add_tmod]
  obtain rfl : c = a := number_injective (Reduces.unique ⟨hsum.low, hsum.high, hcongr⟩ (reduces_number a))
  simp only [hdiv, hmul, hrem, hadd, bind, Except.bind]

end Operators

/-! ## Conversions -/

theorem answers_widen (i : Int32) : Width.long.Answers (UnaryOp.widen.apply (.int i)) i.toInt := by
  refine ⟨i.toInt64, rfl, ?_⟩
  rw [← i.toInt_toInt64]
  exact reduces_number (w := .long) i.toInt64

theorem answers_narrow (a : Int64) : Width.int.Answers (UnaryOp.narrow.apply (.long a)) a.toInt :=
  ⟨a.toInt32, rfl, reduces_bmod (Int64.toInt_toInt32 a)⟩

/-- Reduction to the smaller range keeps sums, differences and products. -/
theorem narrow_binary (nameOf : Handle → String) (a b : Int64) {op : BinaryOp} (h : op ∈ [.add, .sub, .mul]) :
    (op.apply nameOf (.long a) (.long b)).bind UnaryOp.narrow.apply =
      op.apply nameOf (.int a.toInt32) (.int b.toInt32) := by
  simp only [List.mem_cons, List.not_mem_nil, or_false] at h
  rcases h with rfl | rfl | rfl
  · exact congrArg (Except.ok ∘ Value.int) (Int64.toInt32_add a b)
  · exact congrArg (Except.ok ∘ Value.int) (Int64.toInt32_sub a b)
  · exact congrArg (Except.ok ∘ Value.int) (Int64.toInt32_mul a b)

end Width

/-! ## Main statement -/

/-- Arithmetic is exact two's complement, in both widths. Sum, difference, product and negation are the
exact results, reduced to the range of the width modulo two to the number of its bits. A division and a
remainder fail for the divisor zero only; otherwise the quotient is truncated toward zero and the remainder
has the sign of the dividend, but for the least number divided by minus one, where the quotient is reduced
to the dividend and nothing remains. So quotient and remainder always make up the dividend again. Widening
keeps the number and narrowing reduces it: what has been widened is narrowed to what it was, and narrowing
can be done before a sum, difference, product or negation as well as after it. -/
theorem arithmetic_exact (nameOf : Handle → String) :
    (∀ (w : Width) (a b : w.Word),
      let answer (op : BinaryOp) := op.apply nameOf (w.value a) (w.value b)
      w.Answers (answer .add) (w.number a + w.number b) ∧
      w.Answers (answer .sub) (w.number a - w.number b) ∧
      w.Answers (answer .mul) (w.number a * w.number b) ∧
      w.Answers (UnaryOp.neg.apply (w.value a)) (-w.number a) ∧
      (answer .div = .error .divisionByZero ↔ w.number b = 0) ∧
      (answer .rem = .error .divisionByZero ↔ w.number b = 0) ∧
      (w.number b ≠ 0 →
        (∃ q r : w.Word, answer .div = .ok (w.value q) ∧ answer .rem = .ok (w.value r) ∧
          if w.number a = w.least ∧ w.number b = -1 then w.number q = w.least ∧ w.number r = 0
          else Truncates (w.number a) (w.number b) (w.number q) (w.number r)) ∧
        (do
          let q ← answer .div
          let p ← BinaryOp.mul.apply nameOf q (w.value b)
          let r ← answer .rem
          BinaryOp.add.apply nameOf p r) = .ok (w.value a))) ∧
    (∀ i : Int32, Width.long.Answers (UnaryOp.widen.apply (.int i)) i.toInt ∧
      (UnaryOp.widen.apply (.int i)).bind UnaryOp.narrow.apply = .ok (.int i)) ∧
    (∀ a : Int64, Width.int.Answers (UnaryOp.narrow.apply (.long a)) a.toInt ∧
      (UnaryOp.neg.apply (.long a)).bind UnaryOp.narrow.apply =
        (UnaryOp.narrow.apply (.long a)).bind UnaryOp.neg.apply) ∧
    (∀ a b : Int64, ∀ op ∈ [BinaryOp.add, .sub, .mul],
      (op.apply nameOf (.long a) (.long b)).bind UnaryOp.narrow.apply =
        do
          let x ← UnaryOp.narrow.apply (.long a)
          let y ← UnaryOp.narrow.apply (.long b)
          op.apply nameOf x y) := by
  refine ⟨fun w a b => ?_, fun i => ⟨Width.answers_widen i, ?_⟩, fun a => ⟨Width.answers_narrow a, ?_⟩,
    fun a b op hop => Width.narrow_binary nameOf a b hop⟩
  · obtain ⟨hdiv, hrem⟩ := w.divisionByZero_iff nameOf a b
    exact ⟨w.answers_add nameOf a b, w.answers_sub nameOf a b, w.answers_mul nameOf a b, w.answers_neg a,
      hdiv, hrem, fun hb => ⟨w.divides_truncating nameOf a hb, w.div_mul_add_rem nameOf a hb⟩⟩
  · exact congrArg (Except.ok ∘ Value.int) (Int32.toInt32_toInt64 i)
  · exact congrArg (Except.ok ∘ Value.int) (Int64.toInt32_neg a)

/-- The least number divided by minus one, and a product that is out of the range of both widths. -/
theorem arithmetic_exact_least :
    let nameOf : Handle → String := fun _ => ""
    (Int64.toInt (-1) ≠ 0 ∧
      BinaryOp.div.apply nameOf (.long Int64.minValue) (.long (-1)) = .ok (.long Int64.minValue) ∧
      BinaryOp.rem.apply nameOf (.long Int64.minValue) (.long (-1)) = .ok (.long 0)) ∧
    (BinaryOp.mul ∈ [BinaryOp.add, .sub, .mul] ∧
      (BinaryOp.mul.apply nameOf (.long Int64.maxValue) (.long 3)).bind UnaryOp.narrow.apply =
        BinaryOp.mul.apply nameOf (.int (-1)) (.int 3)) := by
  intro nameOf
  obtain ⟨hwords, -, -, hnarrow⟩ := arithmetic_exact nameOf
  have hone : Int64.toInt (-1) ≠ 0 := by decide
  obtain ⟨-, -, -, -, -, -, hdivides⟩ := hwords .long Int64.minValue (-1 : Int64)
  obtain ⟨⟨q, r, hdiv, hrem, hover⟩, -⟩ := hdivides hone
  rw [if_pos ⟨rfl, rfl⟩] at hover
  obtain rfl : q = Int64.minValue := Int64.toInt.inj hover.1
  obtain rfl : r = (0 : Int64) := Int64.toInt.inj hover.2
  exact ⟨⟨hone, hdiv, hrem⟩, by decide, hnarrow Int64.maxValue 3 .mul (by decide)⟩

end ObjectMachine
