/-!
What the tool prints: the output of programs as it is, and its own notes, which may be coloured.
-/

namespace StackCoroutine

/-- How a piece of output is shown. -/
inductive Style where
  /-- As it is. -/
  | plain
  /-- Finished work. -/
  | done
  /-- Work left undone on purpose. -/
  | skipped
  /-- Names of methods. -/
  | name
  | heading
  /-- Paths and notes on suspensions. -/
  | quiet
  deriving DecidableEq, Repr, Inhabited

structure Span where
  style : Style
  text : String
  deriving DecidableEq, Repr, Inhabited

/-- Numbers of the terminal attributes, weight before colour. -/
def Style.attributes : Style → List Nat
  | .plain => []
  | .done => [1, 32]
  | .skipped => [1, 33]
  | .name => [36]
  | .heading => [1]
  | .quiet => [2]

/-- The sequence that sets a terminal attribute; number 0 takes all away. -/
def terminalAttribute (number : Nat) : String := "\x1b[" ++ toString number ++ "m"

namespace Span

def newline : Span := ⟨.plain, "\n"⟩

/-- The text, between terminal attributes if it is coloured. -/
def render (coloured : Bool) (span : Span) : String :=
  match coloured, span.style.attributes with
  | false, _ | _, [] => span.text
  | true, attributes =>
      terminalAttribute 0 ++ String.join (attributes.map terminalAttribute) ++ span.text ++
        terminalAttribute 0

end Span

end StackCoroutine
