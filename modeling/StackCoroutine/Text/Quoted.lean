import StackCoroutine.Text.Hex
import StackCoroutine.Text.Visible

/-!
Quoted text for messages. A backslash introduces the quote in use, the backslash itself, the usual
control characters and, as a code point between braces, every character that is not visible.
-/

namespace StackCoroutine.Text

/-- One character inside the given quotes. -/
def escape (quote c : Char) : String :=
  if c = quote then String.ofList ['\\', c]
  else if c = '\\' then "\\\\"
  else if c = '\n' then "\\n"
  else if c = '\r' then "\\r"
  else if c = '\t' then "\\t"
  else if c = '\x00' then "\\0"
  else if isVisible c then c.toString
  else "\\u\x7b" ++ String.ofList (Hex.digits c.toNat) ++ "\x7d"

def quote (text : String) : String :=
  "\"" ++ String.join (text.toList.map (escape '"')) ++ "\""

def quoteChar (c : Char) : String :=
  "'" ++ escape '\'' c ++ "'"

end StackCoroutine.Text
