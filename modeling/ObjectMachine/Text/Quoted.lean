/-
Texts quoted for diagnostics: between double quotes, with the quote, the backslash and every
character that does not print by itself written as an escape.
-/
import ObjectMachine.Text.Printable
import ObjectMachine.Value

namespace ObjectMachine.Text

/-- One character inside a quoted text. A combining mark is escaped too, since it would join the
character before it. -/
def quoteChar (c : Char) : String :=
  if c = '"' then "\\\""
  else if c = '\\' then "\\\\"
  else if c = '\n' then "\\n"
  else if c = '\r' then "\\r"
  else if c = '\t' then "\\t"
  else if c.toNat = 0 then "\\0"
  else if isPrintable c && !isCombining c then c.toString
  else "\\u\x7b" ++ hexDigits c.toNat ++ "\x7d"

/-- A text between double quotes. -/
def quoted (s : String) : String :=
  "\"" ++ String.join (s.toList.map quoteChar) ++ "\""

/-- A list of texts, each quoted, between square brackets. -/
def quotedList (items : List String) : String :=
  "[" ++ String.intercalate ", " (items.map quoted) ++ "]"

end ObjectMachine.Text
