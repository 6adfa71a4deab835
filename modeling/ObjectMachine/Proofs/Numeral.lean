/-
Reading numerals. A `Decimal` is what a text has to spell to be a numeral: an optional sign and one or
more digits, worth what they are worth in base ten. Reading takes the texts of decimals whose value is
in range, and refuses every other text with its reason: a decimal out of range, nothing behind the sign,
or anything else. It is the inverse of writing a number down, and what has been read is written down
without a plus and leading zeros.
-/
import Mathlib.Data.Nat.Digits.Defs
import Mathlib.Tactic
import ObjectMachine.Numeral
import ObjectMachine.Value

namespace ObjectMachine

/-! ## Definitions -/

/-- The sign in front of a numeral. -/
inductive Sign where
  | none
  | plus
  | minus
  deriving DecidableEq, Repr

def Sign.chars : Sign → List Char
  | .none => []
  | .plus => ['+']
  | .minus => ['-']

/-- An optional sign and one or more decimal digits, the most significant one first. -/
structure Decimal where
  sign : Sign
  digits : List (Fin 10)
  nonempty : digits ≠ []
  deriving DecidableEq, Repr

namespace Decimal

/-- A row of digits as it is written. -/
def row (digits : List (Fin 10)) : List Char := digits.map fun d : Fin 10 => Nat.digitChar d.val

/-- What a row of digits is worth. -/
def worth (digits : List (Fin 10)) : Nat := Nat.ofDigits 10 (digits.reverse.map Fin.val)

def text (d : Decimal) : String := String.ofList (d.sign.chars ++ row d.digits)

def value (d : Decimal) : Int := if d.sign = .minus then -(worth d.digits : Int) else worth d.digits

/-- The text without a plus and without leading zeros; a zero of either sign is a single `0`. -/
def plain (d : Decimal) : String :=
  let digits := d.digits.dropWhile (· = 0)
  if digits = [] then "0"
  else String.ofList ((if d.sign = .minus then ['-'] else []) ++ row digits)

/-! ## Rows of digits -/

theorem isDecimalDigit_digitChar (d : Fin 10) : isDecimalDigit (Nat.digitChar d) = true := by
  revert d; decide

theorem toNat_digitChar (d : Fin 10) : (Nat.digitChar d).toNat = 48 + d :=
  Nat.toNat_digitChar_of_lt_ten d.isLt

theorem exists_digitChar {c : Char} (h : isDecimalDigit c = true) : ∃ d : Fin 10, Nat.digitChar d = c := by
  have hbounds : 48 ≤ c.toNat ∧ c.toNat ≤ 57 := by
    simpa [isDecimalDigit, Char.le_def, UInt32.le_iff_toNat_le] using h
  refine ⟨⟨c.toNat - 48, by omega⟩, Char.toNat_inj.1 ?_⟩
  rw [toNat_digitChar]
  simp only
  omega

theorem all_row (digits : List (Fin 10)) : (row digits).all isDecimalDigit = true := by
  simp [row, isDecimalDigit_digitChar]

theorem exists_row {cs : List Char} (h : ∀ c ∈ cs, isDecimalDigit c = true) : ∃ digits, row digits = cs := by
  induction cs with
  | nil => exact ⟨[], rfl⟩
  | cons c cs ih =>
    obtain ⟨hc, hcs⟩ := List.forall_mem_cons.1 h
    obtain ⟨d, rfl⟩ := exists_digitChar hc
    obtain ⟨digits, rfl⟩ := ih hcs
    exact ⟨d :: digits, rfl⟩

theorem row_eq_nil_iff {digits : List (Fin 10)} : row digits = [] ↔ digits = [] := by simp [row]

theorem worth_snoc (digits : List (Fin 10)) (d : Fin 10) : worth (digits ++ [d]) = 10 * worth digits + d := by
  simp only [worth, List.reverse_append, List.reverse_singleton, List.singleton_append, List.map_cons,
    Nat.ofDigits_cons]
  omega

theorem worth_cons_zero (digits : List (Fin 10)) : worth (0 :: digits) = worth digits := by
  simp [worth, Nat.ofDigits_append]

/-- Reading a row from left to right comes to what it is worth. -/
theorem decimalValue_row (digits : List (Fin 10)) : decimalValue (row digits) = worth digits := by
  induction digits using List.reverseRecOn with
  | nil => rfl
  | append_singleton digits d ih =>
    rw [worth_snoc, ← ih]
    simp only [row, decimalValue, List.map_append, List.foldl_append, List.map_cons, List.map_nil,
      List.foldl_cons, List.foldl_nil, toNat_digitChar]
    have hzero : '0'.toNat = 48 := rfl
    omega

theorem worth_dropWhile (digits : List (Fin 10)) : worth (digits.dropWhile (· = 0)) = worth digits := by
  induction digits with
  | nil => rfl
  | cons d digits ih =>
    by_cases hd : d = 0
    · subst hd
      rw [worth_cons_zero]
      simpa using ih
    · simp [hd]

/-- The digits of a number are the row that is worth it and does not begin with a zero. -/
theorem toDigits_worth (digits : List (Fin 10)) (hne : digits ≠ []) (hlead : digits.head? ≠ some 0) :
    0 < worth digits ∧ Nat.toDigits 10 (worth digits) = row digits := by
  induction digits using List.reverseRecOn with
  | nil => exact absurd rfl hne
  | append_singleton digits d ih =>
    rw [worth_snoc]
    by_cases hnil : digits = []
    · subst hnil
      have hd : (d : Nat) ≠ 0 := by
        intro h
        exact hlead (congrArg some (Fin.ext h))
      have hworth : worth [] = 0 := rfl
      rw [hworth, Nat.mul_zero, Nat.zero_add, Nat.toDigits_of_lt_base d.isLt]
      exact ⟨Nat.pos_of_ne_zero hd, rfl⟩
    · have hlead' : digits.head? ≠ some 0 := by
        rwa [List.head?_append_of_ne_nil _ hnil] at hlead
      obtain ⟨hpos, hdigits⟩ := ih hnil hlead'
      constructor
      · omega
      · rw [← Nat.toDigits_append_toDigits (by decide) hpos d.isLt, hdigits, Nat.toDigits_of_lt_base d.isLt]
        simp [row]

/-! ## Texts of decimals -/

theorem splitSign_chars (sign : Sign) (digits : List (Fin 10)) :
    splitSign (sign.chars ++ row digits) = (decide (sign = .minus), row digits) := by
  cases sign with
  | plus | minus => rfl
  | none =>
    cases digits with
    | nil => rfl
    | cons d digits =>
      -- a digit is no sign
      have hsign : ∀ d : Fin 10, Nat.digitChar d ≠ '-' ∧ Nat.digitChar d ≠ '+' := by decide
      simp only [Sign.chars, row, List.map_cons, List.nil_append]
      unfold splitSign
      split
      · rename_i heq; exact absurd (List.cons.inj heq).1 (hsign d).1
      · rename_i heq; exact absurd (List.cons.inj heq).1 (hsign d).2
      · simp

theorem splitSign_eq (cs : List Char) :
    ∃ sign : Sign, splitSign cs = (decide (sign = .minus), (splitSign cs).2) ∧
      cs = sign.chars ++ (splitSign cs).2 := by
  unfold splitSign
  split
  · exact ⟨.minus, rfl, rfl⟩
  · exact ⟨.plus, rfl, rfl⟩
  · exact ⟨.none, rfl, rfl⟩

theorem signedValue_row (d : Decimal) : signedValue (decide (d.sign = .minus)) (row d.digits) = d.value := by
  simp only [signedValue, value, decimalValue_row, decide_eq_true_eq]

/-- The text of a decimal is read if its value is in range, and is out of range otherwise. -/
theorem parseLong_text (d : Decimal) : parseLong d.text =
    if -2 ^ 63 ≤ d.value ∧ d.value ≤ 2 ^ 63 - 1 then .ok (Int64.ofInt d.value)
    else .error ⟨d.text, .overflow⟩ := by
  have hempty : (row d.digits).isEmpty = false := by
    simpa [row_eq_nil_iff] using d.nonempty
  have hchars : d.text.toList = d.sign.chars ++ row d.digits := String.toList_ofList
  unfold parseLong
  simp only [hchars, splitSign_chars, hempty, all_row, signedValue_row, Int64.toInt_minValue,
    Int64.toInt_maxValue, Bool.not_true, Bool.false_eq_true, if_false]

/-- Any other text has no digits at all, or some character that is none. -/
theorem parseLong_other {s : String} (h : ∀ d : Decimal, d.text ≠ s) :
    (s ∈ ["", "+", "-"] ∧ parseLong s = .error ⟨s, .empty⟩) ∨
    (s ∉ ["", "+", "-"] ∧ parseLong s = .error ⟨s, .invalidDigit⟩) := by
  obtain ⟨sign, hsplit, hs⟩ := splitSign_eq s.toList
  generalize hdigits : (splitSign s.toList).2 = digits at hsplit hs
  by_cases hnil : digits = []
  · subst hnil
    left
    constructor
    · rw [← String.ofList_toList (s := s), hs]
      cases sign <;> decide
    · simp [parseLong, hsplit]
  · right
    have hother : digits.all isDecimalDigit = false := by
      rw [Bool.eq_false_iff]
      intro hall
      obtain ⟨ds, rfl⟩ := exists_row (List.all_eq_true.1 hall)
      apply h ⟨sign, ds, fun hds => hnil (row_eq_nil_iff.2 hds)⟩
      rw [text, ← hs, String.ofList_toList]
    constructor
    · -- each of these is a sign and nothing else
      intro hmem
      have hsigns : ∀ t ∈ ["", "+", "-"], (splitSign t.toList).2 = [] := by decide
      exact hnil (hdigits.symm.trans (hsigns s hmem))
    · simp [parseLong, hsplit, hnil, hother]

theorem text_ne_sign (d : Decimal) : d.text ∉ ["", "+", "-"] := by
  intro hmem
  have hsigns : ∀ t ∈ ["", "+", "-"], (splitSign t.toList).2 = [] := by decide
  have hrow := hsigns _ hmem
  rw [text, String.toList_ofList, splitSign_chars] at hrow
  exact d.nonempty (row_eq_nil_iff.1 hrow)

/-! ## Writing numbers down -/

/-- A number is written down as a decimal that it is the value of. -/
theorem exists_toString (n : Int) : ∃ d : Decimal, d.text = toString n ∧ d.value = n := by
  have hrow : ∀ c ∈ Nat.toDigits 10 n.natAbs, isDecimalDigit c = true := by
    intro c hc
    have hdigit := Nat.isDigit_of_mem_toDigits (b := 10) (by decide) (by decide) hc
    simpa [Char.isDigit, isDecimalDigit, Char.le_def] using hdigit
  obtain ⟨digits, hdigits⟩ := exists_row hrow
  have hworth : worth digits = n.natAbs := by
    have hvalue := Nat.ofDigitChars_ten_toDigits (n := n.natAbs)
    rw [Nat.ofDigitChars_eq_foldl, ← hdigits] at hvalue
    rw [← decimalValue_row, ← hvalue]
    simp only [decimalValue, Nat.mul_comm]
  have hne : digits ≠ [] := by
    rintro rfl
    exact Nat.toDigits_ne_nil hdigits.symm
  rw [Int.toString_eq_repr, Int.repr_eq_if]
  by_cases hn : 0 ≤ n
  · refine ⟨⟨.none, digits, hne⟩, ?_, ?_⟩
    · rw [if_pos hn, Nat.repr_eq_ofList_toDigits, show n.toNat = n.natAbs by omega, ← hdigits]
      rfl
    · simp only [value, hworth, reduceCtorEq, if_false]
      omega
  · refine ⟨⟨.minus, digits, hne⟩, ?_, ?_⟩
    · rw [if_neg hn, Nat.repr_eq_ofList_toDigits, show (-n).toNat = n.natAbs by omega, ← hdigits,
        ← String.toList_inj]
      simp [text, Sign.chars]
    · simp only [value, hworth, if_true]
      omega

/-- The value of a decimal is written down as its plain text. -/
theorem toString_value (d : Decimal) : toString d.value = d.plain := by
  rw [Int.toString_eq_repr, Int.repr_eq_if]
  simp only [value, plain, ← worth_dropWhile d.digits]
  by_cases hnil : d.digits.dropWhile (· = 0) = []
  · rw [hnil]
    have hworth : worth [] = 0 := rfl
    have hzero : Nat.repr 0 = "0" := rfl
    simp [hworth, hzero]
  · have hlead : (d.digits.dropWhile (· = 0)).head? ≠ some 0 := by
      intro hzero
      have := List.head?_dropWhile_not (fun d : Fin 10 => decide (d = 0)) d.digits
      simp [hzero] at this
    obtain ⟨hpos, hdigits⟩ := toDigits_worth _ hnil hlead
    generalize d.digits.dropWhile (· = 0) = digits at hnil hpos hdigits ⊢
    rw [if_neg hnil]
    by_cases hsign : d.sign = .minus
    · simp only [hsign, if_true]
      rw [if_neg (by omega), neg_neg, Int.toNat_natCast, Nat.repr_eq_ofList_toDigits, hdigits,
        ← String.toList_inj]
      simp
    · simp only [hsign, if_false]
      rw [if_pos (by omega), Int.toNat_natCast, Nat.repr_eq_ofList_toDigits, hdigits]
      simp

end Decimal

/-! ## Outcomes -/

theorem parseLong_ok_iff {s : String} {v : Int64} : parseLong s = .ok v ↔
    ∃ d : Decimal, d.text = s ∧ (-2 ^ 63 ≤ d.value ∧ d.value ≤ 2 ^ 63 - 1) ∧ v.toInt = d.value := by
  constructor
  · intro h
    by_cases hd : ∃ d : Decimal, d.text = s
    · obtain ⟨d, rfl⟩ := hd
      rw [d.parseLong_text] at h
      split at h
      · rename_i hrange
        cases h
        exact ⟨d, rfl, hrange, Int64.toInt_ofInt_of_le hrange.1 (by omega)⟩
      · cases h
    · push Not at hd
      rcases Decimal.parseLong_other hd with ⟨-, h'⟩ | ⟨-, h'⟩ <;> rw [h'] at h <;> cases h
  · rintro ⟨d, rfl, hrange, hv⟩
    rw [d.parseLong_text, if_pos hrange, ← hv, Int64.ofInt_toInt]

theorem parseLong_overflow_iff {s : String} : parseLong s = .error ⟨s, .overflow⟩ ↔
    ∃ d : Decimal, d.text = s ∧ ¬ (-2 ^ 63 ≤ d.value ∧ d.value ≤ 2 ^ 63 - 1) := by
  constructor
  · intro h
    by_cases hd : ∃ d : Decimal, d.text = s
    · obtain ⟨d, rfl⟩ := hd
      refine ⟨d, rfl, fun hrange => ?_⟩
      rw [d.parseLong_text, if_pos hrange] at h
      cases h
    · push Not at hd
      rcases Decimal.parseLong_other hd with ⟨-, h'⟩ | ⟨-, h'⟩ <;> rw [h'] at h <;> cases h
  · rintro ⟨d, rfl, hrange⟩
    rw [d.parseLong_text, if_neg hrange]

/-- Only a text of no decimal has no digits or a wrong one. -/
theorem parseLong_malformed_iff {s : String} : (∀ d : Decimal, d.text ≠ s) ↔
    parseLong s = .error ⟨s, .empty⟩ ∨ parseLong s = .error ⟨s, .invalidDigit⟩ := by
  constructor
  · intro h
    exact (Decimal.parseLong_other h).imp And.right And.right
  · rintro h d rfl
    rw [d.parseLong_text] at h
    split at h <;> simp at h

theorem parseLong_empty_iff {s : String} : parseLong s = .error ⟨s, .empty⟩ ↔ s ∈ ["", "+", "-"] := by
  constructor
  · intro h
    rcases Decimal.parseLong_other (parseLong_malformed_iff.2 (.inl h)) with ⟨hs, -⟩ | ⟨-, h'⟩
    · exact hs
    · rw [h'] at h
      cases h
  · intro hs
    have hnone : ∀ d : Decimal, d.text ≠ s := fun d hd => d.text_ne_sign (hd ▸ hs)
    rcases Decimal.parseLong_other hnone with ⟨-, h⟩ | ⟨hs', -⟩
    · exact h
    · exact absurd hs hs'

theorem parseLong_invalidDigit_iff {s : String} : parseLong s = .error ⟨s, .invalidDigit⟩ ↔
    s ∉ ["", "+", "-"] ∧ ∀ d : Decimal, d.text ≠ s := by
  rw [← parseLong_empty_iff, parseLong_malformed_iff]
  constructor
  · intro h
    refine ⟨fun h' => ?_, .inr h⟩
    rw [h'] at h
    cases h
  · rintro ⟨hempty, h⟩
    exact h.resolve_left hempty

/-- The error of a text names it. -/
theorem parseLong_error {s : String} {e : NumeralError} (h : parseLong s = .error e) : e.input = s := by
  unfold parseLong at h
  dsimp only at h
  split_ifs at h <;> cases h <;> rfl

/-- What has been written down is read as it was. -/
theorem parseLong_toString (n : Int64) : parseLong (toString n.toInt) = .ok n := by
  obtain ⟨d, htext, hvalue⟩ := Decimal.exists_toString n.toInt
  have hlow := n.le_toInt
  have hhigh := n.toInt_lt
  exact parseLong_ok_iff.2 ⟨d, htext, by omega, hvalue.symm⟩

/-! ## Main statement -/

/-- Reading a numeral is exact. A text is read as a number if it is the text of a decimal with that value,
which lies in the range of 64-bit integers. Otherwise the error names the text as it is; the reason is that
there are no digits for the empty text and the two signs alone, the range for the text of a decimal whose
value is out of range, and a wrong digit for every other text. The canonical text of a number, of either
width, reads back as the number, and the canonical text of what has been read is the text without a plus,
without leading zeros, and without the sign of a zero. -/
theorem parseLong_exact (nameOf : Handle → String) :
    (∀ s v, parseLong s = .ok v ↔
      ∃ d : Decimal, d.text = s ∧ (-2 ^ 63 ≤ d.value ∧ d.value ≤ 2 ^ 63 - 1) ∧ v.toInt = d.value) ∧
    (∀ s e, parseLong s = .error e → e.input = s) ∧
    (∀ s, parseLong s = .error ⟨s, .empty⟩ ↔ s ∈ ["", "+", "-"]) ∧
    (∀ s, parseLong s = .error ⟨s, .overflow⟩ ↔
      ∃ d : Decimal, d.text = s ∧ ¬ (-2 ^ 63 ≤ d.value ∧ d.value ≤ 2 ^ 63 - 1)) ∧
    (∀ s, parseLong s = .error ⟨s, .invalidDigit⟩ ↔ s ∉ ["", "+", "-"] ∧ ∀ d : Decimal, d.text ≠ s) ∧
    (∀ n : Int64, parseLong ((Value.long n).canonical nameOf) = .ok n) ∧
    (∀ i : Int32, parseLong ((Value.int i).canonical nameOf) = .ok i.toInt64) ∧
    (∀ (d : Decimal) v, parseLong d.text = .ok v → (Value.long v).canonical nameOf = d.plain) := by
  refine ⟨fun _ _ => parseLong_ok_iff, fun _ _ => parseLong_error, fun _ => parseLong_empty_iff,
    fun _ => parseLong_overflow_iff, fun _ => parseLong_invalidDigit_iff, parseLong_toString, ?_, ?_⟩
  · intro i
    rw [Value.canonical, ← i.toInt_toInt64]
    exact parseLong_toString i.toInt64
  · intro d v h
    rw [d.parseLong_text] at h
    split at h
    · rename_i hrange
      cases h
      rw [Value.canonical, Int64.toInt_ofInt_of_le hrange.1 (by omega), d.toString_value]
    · cases h

end ObjectMachine
