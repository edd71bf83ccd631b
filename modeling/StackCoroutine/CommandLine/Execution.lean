import StackCoroutine.CommandLine.InspectCommand
import StackCoroutine.CommandLine.InstrumentCommand
import StackCoroutine.CommandLine.RunCommand

/-!
Doing what the arguments of the tool ask for.
-/

namespace StackCoroutine

def Request.execute {m : Type → Type} [Monad m] [Host m] : Request → ExceptT Failure m Unit
  | .instrument request => request.execute
  | .inspect request => request.execute
  | .run request => request.execute

end StackCoroutine
