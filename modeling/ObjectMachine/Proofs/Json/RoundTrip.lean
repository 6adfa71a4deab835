/-
What is printed is a text of the value, so that it reads back as itself. A number that is not whole is
kept as its literal, which need not be one; all other values are covered, strings that spell no text
included.
-/
import ObjectMachine.Json.Printer
import ObjectMachine.Proofs.Json.Grammar

namespace ObjectMachine.Json

/-! ## Definitions -/

mutual

/-- Every number in the value is whole. -/
def Whole : Json → Prop
  | .float _ => False
  | .arr items => WholeItems items
  | .obj members => WholeMembers members
  | _ => True

def WholeItems : List Json → Prop
  | [] => True
  | j :: rest => j.Whole ∧ WholeItems rest

def WholeMembers : List (Option String × Json) → Prop
  | [] => True
  | (_, j) :: rest => j.Whole ∧ WholeMembers rest

end

/-! ## Strings -/

theorem hexValue?_digitChar : ∀ d : Fin 16, hexValue? (Nat.digitChar d) = some d := by decide

theorem hexUnit_escapeControl {c : Char} (h : c.toNat < 0x20) :
    HexUnit ['0', '0', Nat.digitChar (c.toNat / 16), Nat.digitChar (c.toNat % 16)] c.toNat := by
  have hhigh : hexValue? (Nat.digitChar (c.toNat / 16)) = some (c.toNat / 16) :=
    hexValue?_digitChar ⟨c.toNat / 16, by omega⟩
  have hlow : hexValue? (Nat.digitChar (c.toNat % 16)) = some (c.toNat % 16) :=
    hexValue?_digitChar ⟨c.toNat % 16, by omega⟩
  have hzero : hexValue? '0' = some 0 := rfl
  exact .mk hzero hzero hhigh hlow (by omega)

theorem writesPoint_escapeChar (c : Char) : WritesPoint c.toNat (escapeChar c) := by
  unfold escapeChar
  split
  · subst c; exact .letter rfl
  split
  · subst c; exact .letter rfl
  split
  · subst c; exact .letter rfl
  split
  · subst c; exact .letter rfl
  split
  · subst c; exact .letter rfl
  split
  · subst c; exact .letter rfl
  split
  · subst c; exact .letter rfl
  split
  · rename_i hcontrol; exact .unit (hexUnit_escapeControl hcontrol)
  · rename_i hquote hback _ _ _ _ _ hcontrol
    exact .plain hquote hback (by omega)

theorem escapeChars_mem_points (s : List Char) : s.flatMap escapeChar ∈ points (s.map Char.toNat) := by
  induction s with
  | nil => rfl
  | cons c s ih => exact Language.append_mem_mul (writesPoint_escapeChar c) ih

/-- No character of a text is half of a surrogate pair. -/
theorem spells_toNat (s : List Char) : Spells (s.map Char.toNat) s := by
  induction s with
  | nil => exact .nil
  | cons c s ih => exact .alone c ih

/-- What a text is spelled by stands between quotes. -/
theorem mem_quoted {ns : List Nat} {s : String} {body : List Char} (hs : Spells ns s.toList)
    (hbody : body ∈ points ns) : '"' :: body ++ ['"'] ∈ quoted (some s) := by
  refine ⟨ns, fun t => ⟨fun h => hs.decodePoints.symm.trans h.decodePoints, ?_⟩, mem_enclosed '"' '"' hbody⟩
  rintro ⟨⟩
  exact hs

theorem printString_mem_quoted (text : Option String) : printString text ∈ quoted text := by
  cases text with
  | none =>
    have hescape : printString none = '"' :: ['\\', 'u', 'd', '8', '0', '0'] ++ ['"'] := by decide
    have hpoint : WritesPoint 0xd800 ['\\', 'u', 'd', '8', '0', '0'] := .unit (.mk rfl rfl rfl rfl rfl)
    have hpoints : ['\\', 'u', 'd', '8', '0', '0'] ∈ points [0xd800] :=
      Language.append_mem_mul hpoint (Language.nil_mem_one (α := Char))
    rw [hescape]
    refine ⟨[0xd800], fun s => ⟨fun h => ?_, nofun⟩, mem_enclosed '"' '"' hpoints⟩
    cases h.decodePoints
  | some s => exact mem_quoted (spells_toNat s.toList) (escapeChars_mem_points s.toList)

/-! ## Values -/

theorem blank_mem_blanks : [' '] ∈ blanks := by
  rintro c hc
  rw [List.mem_singleton.1 hc]
  rfl

theorem newline_mem_blanks (level : Nat) : newline level ∈ blanks := by
  intro c hc
  rcases List.mem_cons.1 hc with rfl | hc
  · rfl
  · rw [List.eq_of_mem_replicate hc]
    rfl

mutual

theorem pretty_mem_written (level : Nat) (j : Json) (hj : j.Whole) : pretty level j ∈ written j := by
  match j with
  | .null => rfl
  | .bool true => rfl
  | .bool false => rfl
  | .int n => rfl
  | .float _ => exact hj.elim
  | .str text => exact printString_mem_quoted text
  | .arr [] => exact mem_enclosed '[' ']' nil_mem_blanks
  | .arr (item :: items) =>
    have hitems := prettyItems_mem_written (level + 1) (item :: items) (by simp) hj level
    have hmem := mem_enclosed '[' ']' hitems
    rwa [← List.cons_append] at hmem
  | .obj [] => exact mem_enclosed '\x7b' '\x7d' nil_mem_blanks
  | .obj (member :: members) =>
    have hmembers := prettyMembers_mem_written (level + 1) (member :: members) (by simp) hj level
    have hmem := mem_enclosed '\x7b' '\x7d' hmembers
    rwa [← List.cons_append] at hmem

/-- Printed items, with the new line behind the last one. -/
theorem prettyItems_mem_written (level : Nat) (items : List Json) (hne : items ≠ []) (hj : WholeItems items)
    (outer : Nat) : prettyItems level items ++ newline outer ∈ writtenItems items := by
  match items with
  | [] => exact absurd rfl hne
  | [item] =>
    exact mem_padded (newline_mem_blanks level) (pretty_mem_written level item hj.1)
      (newline_mem_blanks outer)
  | item :: next :: items =>
    have hitem := mem_padded (newline_mem_blanks level) (pretty_mem_written level item hj.1) nil_mem_blanks
    have hitems := prettyItems_mem_written level (next :: items) (by simp) hj.2 outer
    simpa [prettyItems] using mem_writtenItems_cons hitem hitems

/-- Printed members, with the new line behind the last one. -/
theorem prettyMembers_mem_written (level : Nat) (members : List (Option String × Json)) (hne : members ≠ [])
    (hj : WholeMembers members) (outer : Nat) :
    prettyMembers level members ++ newline outer ∈ writtenMembers members := by
  have hkey (key : Option String) :=
    mem_padded (newline_mem_blanks level) (printString_mem_quoted key) nil_mem_blanks
  match members with
  | [] => exact absurd rfl hne
  | [(key, j)] =>
    have hvalue := mem_padded blank_mem_blanks (pretty_mem_written level j hj.1) (newline_mem_blanks outer)
    simpa [prettyMembers] using mem_writtenMembers_one (hkey key) hvalue
  | (key, j) :: next :: members =>
    have hvalue := mem_padded blank_mem_blanks (pretty_mem_written level j hj.1) nil_mem_blanks
    have hmembers := prettyMembers_mem_written level (next :: members) (by simp) hj.2 outer
    simpa [prettyMembers] using mem_writtenMembers_cons (hkey key) hvalue hmembers

end

/-- A printed value is a text that is read as the value. -/
theorem parse?_pretty (level : Nat) {j : Json} (h : j.Whole) : parse? (pretty level j) = some j :=
  parse?_document (mem_unpadded (pretty_mem_written level j h))

end ObjectMachine.Json
