import StackCoroutine.Json.Printer
import StackCoroutine.Json.Reader

/-!
Quoted text. Every character is read back from its escape, whatever follows it, so a text is read
back from its quotation: no character of it ends the quotation early or joins what follows.
-/

namespace StackCoroutine.Json

/-- What is written between the quotes. -/
def escaped (text : List Char) : List Char := text.flatMap fun c => (escape c).toList

end StackCoroutine.Json
