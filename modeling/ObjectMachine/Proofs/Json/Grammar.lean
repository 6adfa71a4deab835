/-
JSON texts as a grammar, and what the reader makes of them. A value has many texts: blanks may stand around
every token, and a character of a string stands for itself, or is escaped by a letter, by its code unit or
by two surrogates. A piece of the grammar takes the reader from one position to another, whatever follows
it, so that pieces compose as the grammar puts them together. Only a number does not say where it ends; it
is told by the character behind it, which is a blank, a comma or a bracket, or by the end of the text.
-/
import Mathlib.Computability.Language
import Mathlib.Tactic.IntervalCases
import ObjectMachine.Json.Parser

namespace ObjectMachine.Json

/-! ## The grammar -/

/-- Blanks, or nothing. -/
def blanks : Language Char := {cs | ∀ c ∈ cs, isBlank c = true}

/-- The same texts with blanks around them. -/
def padded (l : Language Char) : Language Char := blanks * l * blanks

/-- Four hexadecimal digits, and the code unit that they are. -/
inductive HexUnit : List Char → Nat → Prop
  | mk {a b c d : Char} {i j k l n : Nat} (ha : hexValue? a = some i) (hb : hexValue? b = some j)
    (hc : hexValue? c = some k) (hd : hexValue? d = some l) (hn : ((i * 16 + j) * 16 + k) * 16 + l = n) :
    HexUnit [a, b, c, d] n

/-- The ways to write a code point inside a string. -/
inductive WritesPoint : Nat → List Char → Prop
  | plain {c : Char} (hquote : c ≠ '"') (hback : c ≠ '\\') (hcontrol : 0x20 ≤ c.toNat) :
    WritesPoint c.toNat [c]
  | letter {letter c : Char} (h : escaped? letter = some c) : WritesPoint c.toNat ['\\', letter]
  | unit {digits : List Char} {n : Nat} (h : HexUnit digits n) : WritesPoint n ('\\' :: 'u' :: digits)

def point (n : Nat) : Language Char := {cs | WritesPoint n cs}

/-- The ways to write code points one after the other. -/
def points : List Nat → Language Char
  | [] => 1
  | n :: ns => point n * points ns

/-- The code points that spell a text: each character is one, or comes from two surrogates. -/
inductive Spells : List Nat → List Char → Prop
  | nil : Spells [] []
  | alone {ns : List Nat} {s : List Char} (c : Char) (hs : Spells ns s) : Spells (c.toNat :: ns) (c :: s)
  | pair {high low : Nat} {ns : List Nat} {s : List Char} {c : Char} (hhigh : 0xD800 ≤ high ∧ high < 0xDC00)
    (hlow : 0xDC00 ≤ low ∧ low < 0xE000)
    (hc : c.toNat = 0x10000 + (high - 0xD800) * 0x400 + (low - 0xDC00)) (hs : Spells ns s) :
    Spells (high :: low :: ns) (c :: s)

/-- The strings of a text; without one, those that spell none. -/
def quoted (text : Option String) : Language Char :=
  {cs | ∃ ns, (∀ s, Spells ns s ↔ text.map String.toList = some s) ∧ cs ∈ {['"']} * points ns * {['"']}}

/-- Decimal digits, at least one of them. -/
def digits : Language Char := {cs | cs ≠ [] ∧ ∀ c ∈ cs, NumberPhase.isDigit c = true}

/-- The whole numbers without a sign; only zero begins with a zero. -/
def naturals : Language Char := Set.range (Nat.toDigits 10)

def fraction : Language Char := {['.']} * digits

def exponent : Language Char := {['e'], ['E']} * {[], ['+'], ['-']} * digits

/-- The numbers that are not written as whole ones, and the negative zero. -/
def decimals : Language Char :=
  {[], ['-']} * naturals * (fraction + exponent + fraction * exponent) + {['-', '0']}

mutual

/-- The texts of a value, without blanks around them. -/
def written : Json → Language Char
  | .null => {"null".toList}
  | .bool b => {(toString b).toList}
  | .int n => {(toString n).toList}
  | .float literal => {cs | cs = literal ∧ literal ∈ decimals}
  | .str text => quoted text
  | .arr items => {['[']} * writtenItems items * {[']']}
  | .obj members => {['\x7b']} * writtenMembers members * {['\x7d']}

def writtenItems : List Json → Language Char
  | [] => blanks
  | [j] => padded (written j)
  | j :: rest => padded (written j) * {[',']} * writtenItems rest

def writtenMembers : List (Option String × Json) → Language Char
  | [] => blanks
  | [(key, j)] => padded (quoted key) * {[':']} * padded (written j)
  | (key, j) :: rest =>
    padded (quoted key) * {[':']} * (padded (written j) * {[',']} * writtenMembers rest)

end

/-- The texts that are nothing but one value. -/
def document (j : Json) : Language Char := padded (written j)

section Membership

variable {l : Language Char} {before cs after name body : List Char}

theorem nil_mem_blanks : [] ∈ blanks := nofun

theorem mem_padded (hbefore : before ∈ blanks) (hcs : cs ∈ l) (hafter : after ∈ blanks) :
    before ++ cs ++ after ∈ padded l :=
  Language.append_mem_mul (Language.append_mem_mul hbefore hcs) hafter

theorem mem_unpadded (hcs : cs ∈ l) : cs ∈ padded l := by
  simpa using mem_padded nil_mem_blanks hcs nil_mem_blanks

theorem mem_enclosed (first last : Char) (hcs : cs ∈ l) :
    first :: cs ++ [last] ∈ ({[first]} : Language Char) * l * {[last]} :=
  Language.append_mem_mul (Language.append_mem_mul (a := [first]) rfl hcs) rfl

theorem mem_writtenItems_cons {j next : Json} {rest : List Json} (hcs : cs ∈ padded (written j))
    (hbody : body ∈ writtenItems (next :: rest)) : cs ++ [','] ++ body ∈ writtenItems (j :: next :: rest) :=
  Language.append_mem_mul (Language.append_mem_mul hcs rfl) hbody

theorem mem_writtenMembers_one {key : Option String} {j : Json} (hname : name ∈ padded (quoted key))
    (hcs : cs ∈ padded (written j)) : name ++ [':'] ++ cs ∈ writtenMembers [(key, j)] :=
  Language.append_mem_mul (Language.append_mem_mul hname rfl) hcs

theorem mem_writtenMembers_cons {key : Option String} {j : Json} {next : Option String × Json}
    {rest : List (Option String × Json)} (hname : name ∈ padded (quoted key)) (hcs : cs ∈ padded (written j))
    (hbody : body ∈ writtenMembers (next :: rest)) :
    name ++ [':'] ++ (cs ++ [','] ++ body) ∈ writtenMembers ((key, j) :: next :: rest) :=
  Language.append_mem_mul (Language.append_mem_mul hname rfl)
    (Language.append_mem_mul (Language.append_mem_mul hcs rfl) hbody)

end Membership

/-! ## Characters -/

/-- What may stand behind a number: the end of the text, a blank, a comma or a closing bracket. -/
def Ends (rest : List Char) : Prop := ∀ c ∈ rest.head?, isBlank c = true ∨ c ∈ [',', ']', '\x7d']

/-- The text takes the reader from one position to another, whatever follows. -/
def Takes (l : Language Char) (p q : Progress) : Prop :=
  ∀ cs ∈ l, ∀ rest, read .between p (cs ++ rest) = read .between q rest

/-- The same for a text that only what follows may end. -/
def TakesUpTo (l : Language Char) (p q : Progress) : Prop :=
  ∀ cs ∈ l, ∀ rest, Ends rest → read .between p (cs ++ rest) = read .between q rest

section Characters

variable {l m : Language Char} {p q r : Progress} {cs rest : List Char}

theorem read_cons (m : Mode) (p : Progress) (c : Char) (cs : List Char) :
    read m p (c :: cs) =
      (m.next? c).bind fun next => (p.shiftAll next.2).bind fun p => read next.1 p cs := by
  rw [read]
  cases m.next? c with
  | none => rfl
  | some next =>
    obtain ⟨n, tokens⟩ := next
    cases h : p.shiftAll tokens <;> simp [h]

/-- A character that completes no token. -/
theorem read_quiet {m n : Mode} {c : Char} (h : m.next? c = some (n, [])) :
    read m p (c :: cs) = read n p cs := by
  rw [read_cons, h]
  rfl

/-- A character that completes one token, after which the next one begins. -/
theorem read_token {m : Mode} {c : Char} {t : Token} (h : m.next? c = some (.between, [t])) :
    read m p (c :: cs) = (p.shift t).bind fun p => read .between p cs := by
  simp only [read_cons, h, Option.bind_some, Progress.shiftAll]
  cases p.shift t <;> rfl

theorem Takes.upTo (h : Takes l p q) : TakesUpTo l p q := fun cs hcs rest _ => h cs hcs rest

theorem Takes.mul (hl : Takes l p q) (hm : Takes m q r) : Takes (l * m) p r := by
  intro cs hcs rest
  obtain ⟨a, ha, b, hb, rfl⟩ := Language.mem_mul.1 hcs
  rw [List.append_assoc, hl a ha, hm b hb]

theorem takes_blanks : Takes blanks p p := by
  intro cs hcs rest
  induction cs with
  | nil => rfl
  | cons c cs ih =>
    obtain ⟨hc, hcs⟩ := List.forall_mem_cons.1 hcs
    have hnext : Mode.next? .between c = some (.between, []) := by simp [Mode.next?, begin?, hc]
    rw [List.cons_append, read_quiet hnext, ih hcs]

/-- A character that is a token. -/
theorem takes_char {c : Char} {t : Token} (hc : Mode.next? .between c = some (.between, [t]))
    (ht : p.shift t = some q) : Takes {[c]} p q := by
  rintro cs rfl rest
  rw [List.singleton_append, read_token hc, ht]
  rfl

theorem Takes.padded (h : Takes l p q) : Takes (padded l) p q := (takes_blanks.mul h).mul takes_blanks

theorem Ends.of_blanks (hcs : cs ∈ blanks) (h : Ends rest) : Ends (cs ++ rest) := by
  cases cs with
  | nil => exact h
  | cons c cs => exact fun c hc => .inl (hcs c (by simp_all))

/-- A text with blanks around it that a comma or a bracket ends. -/
theorem TakesUpTo.closed (h : TakesUpTo l p q) {c : Char} (hc : c ∈ [',', ']', '\x7d'])
    (hm : Takes {[c]} q r) : Takes (Json.padded l * {[c]}) p r := by
  intro cs hcs rest
  obtain ⟨_, ⟨_, ⟨before, hbefore, text, htext, rfl⟩, after, hafter, rfl⟩, _, rfl, rfl⟩ := hcs
  have hends : Ends ([c] ++ rest) := fun _ hhead => .inr (by cases hhead; exact hc)
  simp only [List.append_assoc]
  rw [takes_blanks before hbefore, h text htext _ (hends.of_blanks hafter), takes_blanks after hafter,
    hm [c] rfl]

end Characters

/-! ## Strings -/

section Strings

variable {p q : Progress} {cs rest : List Char}

theorem WritesPoint.read {n : Nat} (h : WritesPoint n cs) (ns : List Nat) :
    read (.text ns) p (cs ++ rest) = Json.read (.text (n :: ns)) p rest := by
  cases h with
  | plain hquote hback hcontrol =>
    exact read_quiet (by simp [Mode.next?, hquote, hback, Nat.not_lt.2 hcontrol])
  | @letter letter c h =>
    have hunit : letter ≠ 'u' := by rintro rfl; cases h
    exact (read_quiet (n := .escape ns) rfl).trans (read_quiet (by simp [Mode.next?, hunit, h]))
  | unit h =>
    obtain ⟨ha, hb, hc, hd, rfl⟩ := h
    simp only [List.cons_append, List.nil_append]
    rw [read_quiet (n := .escape ns) rfl, read_quiet (n := .unit ns 4 0) rfl,
      read_quiet (by simp [Mode.next?, ha]; rfl), read_quiet (by simp [Mode.next?, hb]; rfl),
      read_quiet (by simp [Mode.next?, hc]; rfl)]
    exact read_quiet (by simp [Mode.next?, hd])

theorem read_points {ns : List Nat} : ∀ {cs}, cs ∈ points ns → ∀ before : List Nat,
    read (.text before) p (cs ++ rest) = read (.text (ns.reverse ++ before)) p rest := by
  induction ns with
  | nil =>
    rintro _ rfl before
    rfl
  | cons n ns ih =>
    intro cs hcs before
    obtain ⟨a, ha, b, hb, rfl⟩ := Language.mem_mul.1 hcs
    rw [List.append_assoc, WritesPoint.read ha, ih hb, List.reverse_cons, List.append_assoc]
    rfl

theorem hexValue?_lt {c : Char} {i : Nat} (h : hexValue? c = some i) : i < 16 := by
  simp only [hexValue?, Char.le_def, UInt32.le_iff_toNat_le, Char.toNat, Char.reduceVal,
    UInt32.reduceToNat] at h
  split_ifs at h with hdigit hlower hupper
  all_goals
    cases h
    omega

theorem toNat_valid (c : Char) : c.toNat < 0xD800 ∨ 0xDFFF < c.toNat ∧ c.toNat < 0x110000 := c.valid

theorem toNat_ofNat {n : Nat} (h : n < 0xD800 ∨ 0xDFFF < n ∧ n < 0x110000) : (Char.ofNat n).toNat = n := by
  have hvalid : n.isValidChar := h
  unfold Char.ofNat
  rw [dif_pos hvalid]
  rfl

/-- No code point of a string is beyond those of characters. -/
theorem WritesPoint.lt {n : Nat} (h : WritesPoint n cs) : n < 0x110000 := by
  cases h with
  | @plain c => have := toNat_valid c; omega
  | @letter _ c => have := toNat_valid c; omega
  | unit h =>
    obtain ⟨ha, hb, hc, hd, rfl⟩ := h
    have := hexValue?_lt ha
    have := hexValue?_lt hb
    have := hexValue?_lt hc
    have := hexValue?_lt hd
    omega

theorem points_lt {ns : List Nat} : ∀ {cs}, cs ∈ points ns → ∀ n ∈ ns, n < 0x110000 := by
  induction ns with
  | nil => simp
  | cons n ns ih =>
    intro cs hcs
    obtain ⟨a, ha, b, hb, -⟩ := Language.mem_mul.1 hcs
    exact List.forall_mem_cons.2 ⟨WritesPoint.lt ha, ih hb⟩

theorem Spells.decodePoints {ns : List Nat} {s : List Char} (h : Spells ns s) : decodePoints ns = some s := by
  induction h with
  | nil => rfl
  | @alone ns s c hs ih =>
    have hvalid := toNat_valid c
    have hhigh : ¬ (0xD800 ≤ c.toNat ∧ c.toNat < 0xDC00) := by omega
    have hlow : ¬ (0xDC00 ≤ c.toNat ∧ c.toNat < 0xE000) := by omega
    unfold Json.decodePoints
    simp [if_neg hhigh, if_neg hlow, ih]
  | pair hhigh hlow hc hs ih =>
    unfold Json.decodePoints
    simp only [if_pos hhigh, if_pos hlow, ih, ← hc]
    simp

theorem spells_of_decodePoints {ns : List Nat} (hns : ∀ n ∈ ns, n < 0x110000) :
    ∀ {s}, decodePoints ns = some s → Spells ns s := by
  induction ns using decodePoints.induct with
  | case1 =>
    intro s h
    cases h
    exact .nil
  | case2 high hhigh low rest hlow ih =>
    intro s h
    unfold decodePoints at h
    simp only [if_pos hhigh, if_pos hlow] at h
    obtain ⟨s, hs, rfl⟩ := Option.map_eq_some_iff.1 h
    refine .pair hhigh hlow ?_ (ih (fun n hn => hns n (by simp [hn])) hs)
    exact toNat_ofNat (by omega)
  | case3 high hhigh low rest hlow =>
    intro s h
    unfold decodePoints at h
    simp [if_pos hhigh, if_neg hlow] at h
  | case4 high hhigh =>
    intro s h
    unfold decodePoints at h
    simp [if_pos hhigh] at h
  | case5 high rest hhigh hlow =>
    intro s h
    unfold decodePoints at h
    simp [if_neg hhigh, if_pos hlow] at h
  | case6 n rest hhigh hlow ih =>
    intro s h
    unfold decodePoints at h
    rw [if_neg hhigh, if_neg hlow] at h
    obtain ⟨s, hs, rfl⟩ := Option.map_eq_some_iff.1 h
    obtain ⟨hn, hrest⟩ := List.forall_mem_cons.1 hns
    have hchar : (Char.ofNat n).toNat = n := toNat_ofNat (by omega)
    have hspells : Spells ((Char.ofNat n).toNat :: rest) (Char.ofNat n :: s) := .alone _ (ih hrest hs)
    rwa [hchar] at hspells

theorem takes_quoted {text : Option String} (ht : p.shift (.string text) = some q) :
    Takes (quoted text) p q := by
  rintro cs ⟨ns, hspells, _, ⟨_, rfl, body, hbody, rfl⟩, _, rfl, rfl⟩ rest
  have hpoints : decodePoints ns = text.map String.toList := by
    refine Option.ext fun s => ⟨fun h => ?_, fun h => ((hspells s).2 h).decodePoints⟩
    exact (hspells s).1 (spells_of_decodePoints (points_lt hbody) h)
  have htext : (decodePoints ns).map String.ofList = text := by
    rw [hpoints]
    cases text <;> simp
  simp only [List.append_assoc, List.cons_append, List.nil_append]
  rw [read_quiet (n := .text []) rfl, read_points hbody, List.append_nil]
  have hnext : Mode.next? (.text ns.reverse) '"' = some (.between, [.string text]) := by
    simp [Mode.next?, htext]
  rw [read_token hnext, ht]
  rfl

end Strings

/-! ## Numbers -/

section Numbers

variable {p q : Progress} {cs rest : List Char}

/-- The phase that characters of a number lead to. -/
def NumberPhase.after (a : NumberPhase) (cs : List Char) : Option NumberPhase := cs.foldlM next? a

theorem read_number {a b : NumberPhase} (h : a.after cs = some b) : ∀ literal,
    read (.number a literal) p (cs ++ rest) = read (.number b (cs.reverse ++ literal)) p rest := by
  induction cs generalizing a with
  | nil =>
    cases h
    exact fun _ => rfl
  | cons c cs ih =>
    intro literal
    obtain ⟨next, hnext, hrest⟩ := Option.bind_eq_some_iff.1 h
    rw [List.cons_append, read_quiet (by simp [Mode.next?, hnext]; rfl), ih hrest, List.reverse_cons,
      List.append_assoc]
    rfl

theorem NumberPhase.after_append {a b : NumberPhase} (h : a.after cs = some b) (rest : List Char) :
    a.after (cs ++ rest) = b.after rest := by
  unfold after at *
  rw [List.foldlM_append, h]
  rfl

theorem NumberPhase.next?_ends {a : NumberPhase} (ha : a.canEnd = true) {c : Char}
    (hc : isBlank c = true ∨ c ∈ [',', ']', '\x7d']) : a.next? c = none := by
  have hcases : c ∈ [' ', '\n', '\t', '\r', ',', ']', '\x7d'] := by
    simp only [isBlank, Bool.or_eq_true, decide_eq_true_eq] at hc
    simp only [List.mem_cons] at *
    tauto
  revert ha
  simp only [List.mem_cons, List.not_mem_nil, or_false] at hcases
  rcases hcases with rfl | rfl | rfl | rfl | rfl | rfl | rfl <;> cases a <;> decide

/-- The end of a number is seen at the character behind it, which is then read as it would be
anyway. -/
theorem read_number_end {a : NumberPhase} {literal : List Char} (ha : a.canEnd = true) (hrest : Ends rest) :
    read (.number a literal) p rest =
      (p.shift (.scalar (ofNumber a literal.reverse))).bind fun p => read .between p rest := by
  cases rest with
  | nil =>
    simp only [read, Mode.finish?, ha, if_true, Progress.shiftAll]
    cases p.shift (.scalar (ofNumber a literal.reverse)) <;> rfl
  | cons c rest =>
    have hc : a.next? c = none := NumberPhase.next?_ends ha (hrest c rfl)
    simp only [read_cons, Mode.next?, hc, ha, if_true]
    cases begin? c with
    | none => cases p.shift (.scalar (ofNumber a literal.reverse)) <;> rfl
    | some next =>
      simp only [Option.map_some, Option.bind_some, Progress.shiftAll]
      cases p.shift (.scalar (ofNumber a literal.reverse)) <;> rfl

theorem isDigit_iff {c : Char} : NumberPhase.isDigit c = true ↔ ∃ d < 10, c = Nat.digitChar d := by
  refine ⟨fun hc => ?_, ?_⟩
  · have hbounds : 48 ≤ c.toNat ∧ c.toNat ≤ 57 := by
      simpa [NumberPhase.isDigit, Char.le_def, UInt32.le_iff_toNat_le] using hc
    refine ⟨c.toNat - 48, by omega, Char.toNat_inj.1 ?_⟩
    obtain ⟨hlo, hhi⟩ := hbounds
    generalize c.toNat = n at *
    interval_cases n <;> rfl
  · rintro ⟨d, hd, rfl⟩
    interval_cases d <;> rfl

theorem between_digit {c : Char} {a : NumberPhase} (h : NumberPhase.sign.next? c = some a) :
    Mode.next? .between c = some (.number a [c], []) := by
  have hdigit : NumberPhase.isDigit c = true := by
    replace h : (if c = '0' then some NumberPhase.zero
      else if NumberPhase.isDigit c then some .whole else none) = some a := h
    split at h
    · subst c; rfl
    · by_contra hc
      rw [if_neg hc] at h
      cases h
  have hnext : Mode.next? .between c = (NumberPhase.sign.next? c).map fun a => (.number a [c], []) := by
    obtain ⟨d, hd, rfl⟩ := isDigit_iff.1 hdigit
    interval_cases d <;> rfl
  rw [hnext, h]
  rfl

/-- A number is read from its first character on. -/
theorem takes_number {a : NumberPhase} {sign : List Char} (hsign : sign ∈ ({[], ['-']} : Language Char))
    (h : NumberPhase.sign.after cs = some a) (ha : a.canEnd = true)
    (ht : p.shift (.scalar (ofNumber a (sign ++ cs))) = some q) : TakesUpTo {sign ++ cs} p q := by
  rintro _ rfl rest hrest
  have hread : read .between p (sign ++ cs ++ rest) = read (.number a (sign ++ cs).reverse) p rest := by
    rcases hsign with rfl | rfl
    · cases cs with
      | nil => cases h; cases ha
      | cons c cs =>
        obtain ⟨b, hb, hcs⟩ := Option.bind_eq_some_iff.1 h
        rw [List.nil_append, List.cons_append, read_quiet (between_digit hb), read_number hcs,
          List.reverse_cons]
    · simp only [List.cons_append, List.nil_append]
      rw [read_quiet (n := .number .sign ['-']) rfl, read_number h, List.reverse_cons]
  rw [hread, read_number_end ha hrest, List.reverse_reverse, ht]
  rfl

theorem after_digits {a : NumberPhase} (ha : ∀ c, NumberPhase.isDigit c = true → a.next? c = some a)
    (hcs : ∀ c ∈ cs, NumberPhase.isDigit c = true) : a.after cs = some a := by
  induction cs with
  | nil => rfl
  | cons c cs ih =>
    obtain ⟨hc, hcs⟩ := List.forall_mem_cons.1 hcs
    exact Option.bind_eq_some_iff.2 ⟨a, ha c hc, ih hcs⟩

/-- A row of digits leads to the phase of its digits, whatever the first of them leads to. -/
theorem after_digit_digits {a b : NumberPhase} (ha : ∀ c, NumberPhase.isDigit c = true → a.next? c = some b)
    (hb : ∀ c, NumberPhase.isDigit c = true → b.next? c = some b) (hcs : cs ∈ digits) :
    a.after cs = some b := by
  obtain ⟨hne, hcs⟩ := hcs
  cases cs with
  | nil => exact absurd rfl hne
  | cons c cs =>
    obtain ⟨hc, hcs⟩ := List.forall_mem_cons.1 hcs
    exact Option.bind_eq_some_iff.2 ⟨b, ha c hc, after_digits hb hcs⟩

/-- Only a single zero begins with one. -/
theorem toDigits_leading (n : Nat) : ∃ d digits, d < 10 ∧ Nat.toDigits 10 n = Nat.digitChar d :: digits ∧
    (∀ c ∈ digits, NumberPhase.isDigit c = true) ∧ (d = 0 → n = 0 ∧ digits = []) := by
  induction n using Nat.strong_induction_on with
  | h n ih =>
    rw [Nat.toDigits_eq_if (by decide)]
    split
    · rename_i hlt
      exact ⟨n, [], hlt, rfl, by simp, fun h => ⟨h, rfl⟩⟩
    · rename_i hle
      obtain ⟨d, digits, hd, heq, hdigits, hzero⟩ := ih (n / 10) (by omega)
      refine ⟨d, digits ++ [Nat.digitChar (n % 10)], hd, by rw [heq]; rfl, ?_, fun h => ?_⟩
      · intro c hc
        rcases List.mem_append.1 hc with hc | hc
        · exact hdigits c hc
        · rw [List.mem_singleton.1 hc]
          exact isDigit_iff.2 ⟨n % 10, by omega, rfl⟩
      · have := (hzero h).1
        omega

theorem after_natural (n : Nat) : ∃ a, (a = .zero ∨ a = .whole) ∧
    NumberPhase.sign.after (Nat.toDigits 10 n) = some a := by
  obtain ⟨d, digits, hd, heq, hdigits, hzero⟩ := toDigits_leading n
  rw [heq]
  rcases Nat.eq_zero_or_pos d with rfl | hpos
  · rw [(hzero rfl).2]
    exact ⟨.zero, .inl rfl, rfl⟩
  · have hfirst : NumberPhase.sign.next? (Nat.digitChar d) = some .whole := by interval_cases d <;> rfl
    have hrest : NumberPhase.whole.after digits = some .whole :=
      after_digits (fun c hc => by simp [NumberPhase.next?, hc]) hdigits
    exact ⟨.whole, .inr rfl, Option.bind_eq_some_iff.2 ⟨_, hfirst, hrest⟩⟩

theorem after_fraction {a : NumberPhase} (ha : a = .zero ∨ a = .whole) (hcs : cs ∈ fraction) :
    a.after cs = some .fraction := by
  obtain ⟨_, rfl, ds, hds, rfl⟩ := hcs
  have hpoint : a.next? '.' = some .point := by rcases ha with rfl | rfl <;> rfl
  have hdigit (b : NumberPhase) (hb : b = .point ∨ b = .fraction) (c : Char)
      (hc : NumberPhase.isDigit c = true) : b.next? c = some .fraction := by
    rcases hb with rfl | rfl <;> simp [NumberPhase.next?, hc]
  have hfraction := after_digit_digits (hdigit _ (.inl rfl)) (hdigit _ (.inr rfl)) hds
  exact Option.bind_eq_some_iff.2 ⟨_, hpoint, hfraction⟩

theorem after_exponent {a : NumberPhase} (ha : a = .zero ∨ a = .whole ∨ a = .fraction) (hcs : cs ∈ exponent) :
    a.after cs = some .exponentDigits := by
  obtain ⟨_, ⟨e, he, sign, hsign, rfl⟩, ds, hds, rfl⟩ := hcs
  have hdigit (b : NumberPhase) (hb : b = .exponent ∨ b = .exponentSign ∨ b = .exponentDigits) (c : Char)
      (hc : NumberPhase.isDigit c = true) : b.next? c = some .exponentDigits := by
    have hplus : c ≠ '+' ∧ c ≠ '-' := by constructor <;> rintro rfl <;> revert hc <;> decide
    rcases hb with rfl | rfl | rfl <;> simp [NumberPhase.next?, hc, hplus]
  have hletter : ∃ b, (b = .exponent ∨ b = .exponentSign) ∧ a.after (e ++ sign) = some b := by
    rcases he with rfl | rfl <;> rcases hsign with rfl | rfl | rfl <;> rcases ha with rfl | rfl | rfl
    all_goals first | exact ⟨_, .inl rfl, rfl⟩ | exact ⟨_, .inr rfl, rfl⟩
  obtain ⟨b, hb, hafter⟩ := hletter
  refine (NumberPhase.after_append hafter ds).trans ?_
  exact after_digit_digits (hdigit b (by tauto)) (hdigit _ (by tauto)) hds

theorem digits_value (n : Nat) :
    (Nat.toDigits 10 n).foldl (fun n c => n * 10 + (c.toNat - '0'.toNat)) 0 = n := by
  have h := Nat.ofDigitChars_ten_toDigits (n := n)
  rw [Nat.ofDigitChars_eq_foldl] at h
  simpa only [Nat.mul_comm 10] using h

theorem ofNumber_natural {a : NumberPhase} (ha : a = .zero ∨ a = .whole) (n : Nat) :
    ofNumber a (Nat.toDigits 10 n) = .int n := by
  obtain ⟨d, digits, -, heq, -, -⟩ := toDigits_leading n
  unfold ofNumber
  rw [if_pos ha]
  split
  · rename_i hminus
    rw [heq] at hminus
    exact absurd (List.cons.inj hminus).1 (Nat.digitChar_ne '-' (by decide))
  · simp only [digits_value]

theorem ofNumber_negative {a : NumberPhase} (ha : a = .zero ∨ a = .whole) {n : Nat} (hn : n ≠ 0) :
    ofNumber a ('-' :: Nat.toDigits 10 n) = .int (-n) := by
  unfold ofNumber
  rw [if_pos ha]
  simp only [digits_value, if_neg hn]

theorem toString_int (n : Int) :
    (toString n).toList = (if 0 ≤ n then [] else ['-']) ++ Nat.toDigits 10 n.natAbs := by
  rw [Int.toString_eq_repr, Int.repr_eq_if]
  split
  · rename_i hn
    have habs : n.toNat = n.natAbs := by omega
    rw [habs, Nat.repr_eq_ofList_toDigits, String.toList_ofList, List.nil_append]
  · rename_i hn
    have habs : (-n).toNat = n.natAbs := by omega
    rw [habs, Nat.repr_eq_ofList_toDigits, String.toList_append, String.toList_ofList, String.toList_ofList]

theorem takes_int {n : Int} (ht : p.shift (.scalar (.int n)) = some q) :
    TakesUpTo {(toString n).toList} p q := by
  obtain ⟨a, ha, hafter⟩ := after_natural n.natAbs
  have hend : a.canEnd = true := by rcases ha with rfl | rfl <;> rfl
  rw [toString_int]
  split
  · rename_i hn
    have hvalue : ofNumber a (Nat.toDigits 10 n.natAbs) = .int n := by
      rw [ofNumber_natural ha, Int.natAbs_of_nonneg hn]
    exact takes_number (.inl rfl) hafter hend (by rw [List.nil_append, hvalue, ht])
  · rename_i hn
    have hvalue : ofNumber a ('-' :: Nat.toDigits 10 n.natAbs) = .int n := by
      rw [ofNumber_negative ha (by omega)]
      congr 1
      omega
    exact takes_number (.inr rfl) hafter hend (by rw [List.singleton_append, hvalue, ht])

theorem takes_decimal {literal : List Char} (hliteral : literal ∈ decimals)
    (ht : p.shift (.scalar (.float literal)) = some q) : TakesUpTo {literal} p q := by
  rcases hliteral with ⟨_, ⟨sign, hsign, _, ⟨n, rfl⟩, rfl⟩, tail, htail, rfl⟩ | rfl
  · obtain ⟨a, ha, hafter⟩ := after_natural n
    -- the phase at the end is never that of a whole number
    have htail : a.after tail = some .fraction ∨ a.after tail = some .exponentDigits := by
      rcases htail with (hfraction | hexponent) | ⟨f, hfraction, e, hexponent, rfl⟩
      · exact .inl (after_fraction ha hfraction)
      · exact .inr (after_exponent (by tauto) hexponent)
      · refine .inr ((NumberPhase.after_append (after_fraction ha hfraction) e).trans ?_)
        exact after_exponent (.inr (.inr rfl)) hexponent
    have hcs := NumberPhase.after_append hafter tail
    simp only [List.append_assoc] at ht ⊢
    rcases htail with htail | htail
    · exact takes_number hsign (hcs.trans htail) rfl ht
    · exact takes_number hsign (hcs.trans htail) rfl ht
  · have hzero : NumberPhase.sign.after ['0'] = some .zero := rfl
    show TakesUpTo {['-'] ++ ['0']} p q
    exact takes_number (.inr rfl) hzero rfl ht

end Numbers

/-! ## Values -/

/-- A value may begin here. -/
def Want.TakesValue (w : Want) : Prop := w = .value ∨ w = .firstItem

/-- A key may begin here. -/
def Want.TakesKey (w : Want) : Prop := w = .key ∨ w = .firstKey

namespace Want.TakesValue

variable {w : Want} {stack : List Open}

theorem scalar (hw : w.TakesValue) (j : Json) :
    Progress.shift ⟨w, stack⟩ (.scalar j) = some (Progress.complete j stack) := by
  rcases hw with rfl | rfl <;> simp [Progress.shift, Progress.beginValue]

theorem string (hw : w.TakesValue) (text : Option String) :
    Progress.shift ⟨w, stack⟩ (.string text) = some (Progress.complete (.str text) stack) := by
  rcases hw with rfl | rfl <;> simp [Progress.shift, Progress.beginValue]

theorem beginArray (hw : w.TakesValue) :
    Progress.shift ⟨w, stack⟩ .beginArray = some ⟨.firstItem, .array [] :: stack⟩ := by
  rcases hw with rfl | rfl <;> simp [Progress.shift, Progress.beginValue]

theorem beginObject (hw : w.TakesValue) :
    Progress.shift ⟨w, stack⟩ .beginObject = some ⟨.firstKey, .object [] none :: stack⟩ := by
  rcases hw with rfl | rfl <;> simp [Progress.shift, Progress.beginValue]

end Want.TakesValue

theorem Want.TakesKey.string {w : Want} (hw : w.TakesKey) (members : List (Option String × Json))
    (old key : Option String) (stack : List Open) :
    Progress.shift ⟨w, .object members old :: stack⟩ (.string key) =
      some ⟨.colon, .object members key :: stack⟩ := by
  rcases hw with rfl | rfl <;> simp [Progress.shift, Progress.beginMember]

section Values

variable {p q : Progress} {w : Want} {stack : List Open}

/-- A literal name, by its first letter and the others. -/
theorem takes_name {j : Json} : ∀ {letter : Char} {letters : List Char},
    Mode.next? .between letter = some (.name letters j, []) → letters ≠ [] → p.shift (.scalar j) = some q →
    Takes {letter :: letters} p q := by
  intro letter letters hletter hne ht
  rintro _ rfl rest
  have hname (letters : List Char) (hne : letters ≠ []) :
      read (.name letters j) p (letters ++ rest) = read .between q rest := by
    induction letters with
    | nil => exact absurd rfl hne
    | cons c letters ih =>
      cases letters with
      | nil =>
        rw [List.singleton_append, read_token (t := .scalar j) (by simp [Mode.next?]), ht]
        rfl
      | cons d letters =>
        rw [List.cons_append, read_quiet (n := .name (d :: letters) j) (by simp [Mode.next?])]
        exact ih (by simp)
  rw [List.cons_append, read_quiet hletter, hname letters hne]

theorem takes_null (hw : w.TakesValue) :
    Takes {"null".toList} ⟨w, stack⟩ (Progress.complete .null stack) := by
  have htext : "null".toList = ['n', 'u', 'l', 'l'] := by decide
  rw [htext]
  exact takes_name rfl (by simp) (hw.scalar _)

theorem takes_bool (hw : w.TakesValue) (b : Bool) :
    Takes {(toString b).toList} ⟨w, stack⟩ (Progress.complete (.bool b) stack) := by
  cases b with
  | true =>
    have htext : (toString true).toList = ['t', 'r', 'u', 'e'] := by decide
    rw [htext]
    exact takes_name rfl (by simp) (hw.scalar _)
  | false =>
    have htext : (toString false).toList = ['f', 'a', 'l', 's', 'e'] := by decide
    rw [htext]
    exact takes_name rfl (by simp) (hw.scalar _)

/-- A key with its colon. -/
theorem takes_key (hw : w.TakesKey) (members : List (Option String × Json)) (key : Option String) :
    Takes (padded (quoted key) * {[':']}) ⟨w, .object members none :: stack⟩
      ⟨.value, .object members key :: stack⟩ :=
  (takes_quoted (hw.string members none key stack)).padded.mul (takes_char rfl rfl)

end Values

mutual

/-- A written value is put into the innermost open array or object. -/
theorem takes_written (j : Json) {w : Want} (hw : w.TakesValue) (stack : List Open) :
    TakesUpTo (written j) ⟨w, stack⟩ (Progress.complete j stack) := by
  match j with
  | .null => exact (takes_null hw).upTo
  | .bool b => exact (takes_bool hw b).upTo
  | .int n => exact takes_int (hw.scalar _)
  | .float literal =>
    rintro _ ⟨rfl, hliteral⟩
    exact takes_decimal hliteral (hw.scalar _) _ rfl
  | .str text => exact (takes_quoted (hw.string text)).upTo
  | .arr [] =>
    exact (((takes_char rfl hw.beginArray).mul takes_blanks).mul (takes_char rfl rfl)).upTo
  | .arr (item :: items) =>
    rw [written, mul_assoc]
    have hitems := takes_writtenItems (item :: items) (by simp) (.inr rfl) [] stack
    exact ((takes_char rfl hw.beginArray).mul hitems).upTo
  | .obj [] =>
    exact (((takes_char rfl hw.beginObject).mul takes_blanks).mul (takes_char rfl rfl)).upTo
  | .obj (member :: members) =>
    rw [written, mul_assoc]
    have hmembers := takes_writtenMembers (member :: members) (by simp) (.inr rfl) [] stack
    exact ((takes_char rfl hw.beginObject).mul hmembers).upTo

/-- Written items, from where an item may begin to the end of the array. -/
theorem takes_writtenItems (items : List Json) (hne : items ≠ []) {w : Want} (hw : w.TakesValue)
    (before : List Json) (stack : List Open) :
    Takes (writtenItems items * {[']']}) ⟨w, .array before :: stack⟩
      (Progress.complete (.arr (before.reverse ++ items)) stack) := by
  match items with
  | [] => exact absurd rfl hne
  | [item] =>
    refine (takes_written item hw _).closed (by simp) (takes_char (t := .endArray) rfl ?_)
    simp [Progress.complete, Progress.shift]
  | item :: next :: items =>
    rw [writtenItems, mul_assoc]
    · have hitem := (takes_written item hw (.array before :: stack)).closed (c := ',') (by simp)
        (takes_char (t := .comma) rfl rfl)
      have hitems := takes_writtenItems (next :: items) (by simp) (.inl rfl) (item :: before) stack
      rw [List.reverse_cons, List.append_assoc] at hitems
      exact hitem.mul hitems
    · simp

/-- Written members, from where a key may begin to the end of the object. -/
theorem takes_writtenMembers (members : List (Option String × Json)) (hne : members ≠ []) {w : Want}
    (hw : w.TakesKey) (before : List (Option String × Json)) (stack : List Open) :
    Takes (writtenMembers members * {['\x7d']}) ⟨w, .object before none :: stack⟩
      (Progress.complete (.obj (before.reverse ++ members)) stack) := by
  match members with
  | [] => exact absurd rfl hne
  | [(key, j)] =>
    rw [writtenMembers, mul_assoc]
    refine (takes_key hw before key).mul ?_
    refine (takes_written j (.inl rfl) _).closed (by simp) (takes_char (t := .endObject) rfl ?_)
    simp [Progress.complete, Progress.shift]
  | (key, j) :: next :: members =>
    rw [writtenMembers, mul_assoc, mul_assoc (padded (written j) * _)]
    · have hvalue := (takes_written j (.inl rfl) (.object before key :: stack)).closed (c := ',') (by simp)
        (takes_char (t := .comma) rfl rfl)
      have hmembers := takes_writtenMembers (next :: members) (by simp) (.inl rfl) ((key, j) :: before) stack
      rw [List.reverse_cons, List.append_assoc] at hmembers
      exact (takes_key hw before key).mul (hvalue.mul hmembers)
    · simp

end

/-! ## Main statement -/

/-- A text of a value is read as that value. -/
theorem parse?_document {j : Json} {cs : List Char} (h : cs ∈ document j) : parse? cs = some j := by
  obtain ⟨_, ⟨before, hbefore, text, htext, rfl⟩, after, hafter, rfl⟩ := h
  have hends : Ends (after ++ []) := Ends.of_blanks hafter nofun
  have hread : read .between .start (before ++ text ++ after) = some (Progress.complete j []) := by
    rw [List.append_assoc, takes_blanks before hbefore, ← List.append_nil after]
    refine (takes_written j (w := .value) (.inl rfl) [] text htext _ hends).trans ?_
    rw [takes_blanks after hafter]
    rfl
  unfold parse?
  simp only [hread]
  rfl

end ObjectMachine.Json
