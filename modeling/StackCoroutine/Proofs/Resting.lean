import StackCoroutine.Coroutine.Runner

/-!
Runners between the calls of their user. A coroutine may do to its context whatever it likes, as long
as it leaves the argument frames as it finds them: after each call the runner is terminated, or has
nothing saved, or is ready to load what is saved, and the last execution tells which. A reset makes it
as good as new, its payload apart.
-/

namespace StackCoroutine

variable {S V ε : Type}

/-- Whatever the coroutine comes to, it leaves the argument frames as it has found them. -/
def CoroutineBody.KeepsArguments (body : CoroutineBody S V ε) : Prop :=
  ∀ state context, (body state context).2.2.argumentFrames = context.argumentFrames

/-- After saving comes loading, from the outermost frame on. -/
theorem Context.setMode_loading {context : Context V} (saving : context.mode = .saving) :
    context.setMode .loading =
      .ok { context with mode := .loading, chain := context.chain.rewind } := by
  have follows : context.mode.transition .loading = .ok .loading := by rw [saving]; rfl
  rw [setMode, follows]
  rfl

namespace Runner

/-- What a user asks of a runner. -/
inductive Call (V : Type) where
  | execute (arguments : List V)
  | reset
  | setPayload (payload : Option V)

/-- A runner with what its last execution came to, unless it is new or has been reset since. -/
structure Session (S V ε : Type) where
  runner : Runner S V
  last : Option (Except (CoroutineError ε) Bool)

def Session.begin (state : S) : Session S V ε := ⟨.ofParts state .empty, none⟩

def Session.call (body : CoroutineBody S V ε) (session : Session S V ε) :
    Call V → Session S V ε
  | .execute arguments =>
      let (outcome, runner) := session.runner.execute body arguments
      ⟨runner, some outcome⟩
  | .reset => ⟨session.runner.reset, none⟩
  | .setPayload payload => { session with runner := session.runner.setPayload payload }

/-- Nothing is saved; the next execution starts from the beginning. -/
def Fresh (runner : Runner S V) : Prop :=
  runner.terminated = false ∧ runner.context.mode = .normal ∧ runner.context.chain = .empty

/-- The next execution loads what is saved, the outermost frame first. -/
def Suspended (runner : Runner S V) : Prop :=
  runner.terminated = false ∧ runner.context.mode = .loading ∧ runner.context.chain.cursor = 0

/-- The runner is as the last execution has left it. -/
def Follows (runner : Runner S V) : Option (Except (CoroutineError ε) Bool) → Prop
  | none | some (.ok false) => runner.Fresh
  | some (.ok true) => runner.Suspended
  | some (.error _) => runner.terminated = true

/-- Nothing is going on. -/
structure Session.Rests (session : Session S V ε) : Prop where
  idle : session.runner.context.argumentFrames = []
  follows : session.runner.Follows session.last

variable {body : CoroutineBody S V ε} {runner : Runner S V} {session : Session S V ε}

/-- The runner's own part in an execution cannot fail. -/
theorem execute_unprotocolled (arguments : List V) (cause : ProtocolError) :
    (runner.execute body arguments).1 ≠ .error (.protocol cause) := by
  unfold execute
  split
  · nofun
  rcases body runner.state (runner.context.pushArguments arguments) with ⟨_ | _, state, left⟩
  · nofun
  · dsimp only
    split
    · rename_i saving
      rw [Context.setMode_loading saving]
      nofun
    · nofun

/-- An execution comes to rest as its outcome says. -/
theorem execute_rests (keeps : body.KeepsArguments)
    (idle : runner.context.argumentFrames = []) (arguments : List V) :
    let ran := runner.execute body arguments
    (Session.mk ran.2 (some ran.1)).Rests := by
  unfold execute
  split
  · rename_i ended
    exact ⟨idle, ended⟩
  have kept := keeps runner.state (runner.context.pushArguments arguments)
  rcases ran : body runner.state (runner.context.pushArguments arguments) with
    ⟨outcome, state, left⟩
  rw [ran] at kept
  have popped : left.popArguments.argumentFrames = [] := (congrArg List.tail kept).trans idle
  cases outcome with
  | error cause => exact ⟨popped, rfl⟩
  | ok =>
    dsimp only
    split
    · rename_i saving
      rw [Context.setMode_loading saving]
      exact ⟨popped, rfl, rfl, rfl⟩
    · exact ⟨popped, rfl, rfl, rfl⟩

theorem Session.Rests.call (keeps : body.KeepsArguments) (rests : session.Rests) (next : Call V) :
    (session.call body next).Rests := by
  obtain ⟨runner, last⟩ := session
  obtain ⟨idle, follows⟩ := rests
  cases next with
  | execute arguments => exact execute_rests keeps idle arguments
  | reset => exact ⟨idle, rfl, rfl, rfl⟩
  | setPayload payload =>
      -- The state of a runner has nothing to do with its payload.
      exact ⟨idle, follows⟩

theorem Session.Rests.calls (keeps : body.KeepsArguments) (rests : session.Rests)
    (calls : List (Call V)) : (calls.foldl (Session.call body) session).Rests := by
  induction calls generalizing session with
  | nil => exact rests
  | cons next rest ih => exact ih (rests.call keeps next)

/-- A runner at rest is in one of three states. -/
theorem Session.Rests.states (rests : session.Rests) :
    session.runner.terminated = true ∨ session.runner.Fresh ∨ session.runner.Suspended := by
  obtain ⟨runner, last⟩ := session
  obtain ⟨_, follows⟩ := rests
  match last with
  | none | some (.ok false) => exact .inr (.inl follows)
  | some (.ok true) => exact .inr (.inr follows)
  | some (.error _) => exact .inl follows

theorem Session.Rests.suspended_iff (rests : session.Rests) :
    session.runner.Suspended ↔ session.last = some (.ok true) := by
  obtain ⟨runner, last⟩ := session
  obtain ⟨_, follows⟩ := rests
  have other : runner.Fresh → ¬runner.Suspended := fun fresh suspended =>
    Mode.noConfusion (fresh.2.1.symm.trans suspended.2.1)
  match last with
  | none | some (.ok false) => exact ⟨fun suspended => absurd suspended (other follows), nofun⟩
  | some (.ok true) => exact ⟨fun _ => rfl, fun _ => follows⟩
  | some (.error _) =>
      exact ⟨fun suspended => absurd (follows.symm.trans suspended.1) nofun, nofun⟩

/-- A reset leaves a new runner with the payload and the coroutine there are. -/
theorem reset_eq (idle : runner.context.argumentFrames = []) :
    runner.reset = (ofParts runner.state .empty).setPayload runner.context.payload := by
  obtain ⟨state, ⟨mode, chain, frames, payload⟩, terminated⟩ := runner
  cases idle
  rfl

theorem foldl_setPayload (payloads : List (Option V)) (runner : Runner S V) :
    payloads.foldl setPayload runner =
      runner.setPayload (payloads.getLastD runner.context.payload) := by
  induction payloads generalizing runner with
  | nil => rfl
  | cons payload rest ih =>
      rw [List.foldl_cons, ih]
      cases rest <;> rfl

/-- A runner at rest is in one of three clean states. It is suspended exactly if the last execution
since it was made or reset says so, and otherwise terminated, which only a reset ends, or as good as
new but for its payload, which a reset always makes it. No arguments are left behind, and no fault of
the protocol ever comes of the runner itself. -/
theorem rests_clean (keeps : body.KeepsArguments) (state : S) (calls : List (Call V)) :
    let session := calls.foldl (Session.call body) (.begin state)
    let runner := session.runner
    (runner.terminated = true ∨ runner.Fresh ∨ runner.Suspended) ∧
    (runner.Suspended ↔ session.last = some (.ok true)) ∧
    runner.context.argumentFrames = [] ∧
    (runner.terminated = true →
      ∀ arguments, runner.execute body arguments = (.error .terminated, runner)) ∧
    (∀ arguments cause, (runner.execute body arguments).1 ≠ .error (.protocol cause)) ∧
    ∀ payloads : List (Option V), payloads.foldl setPayload runner.reset =
      (ofParts runner.state .empty).setPayload (payloads.getLastD runner.context.payload) := by
  intro session runner
  have begun : (Session.begin state : Session S V ε).Rests := ⟨rfl, rfl, rfl, rfl⟩
  have rests := begun.calls keeps calls
  refine ⟨rests.states, rests.suspended_iff, rests.idle, ?_, execute_unprotocolled, ?_⟩
  · intro ended arguments
    exact if_pos ended
  · intro payloads
    rw [foldl_setPayload, reset_eq rests.idle]
    rfl

/-- A coroutine that suspends itself at each number down to one and then fails. -/
def countdown : CoroutineBody Nat Nat Unit
  | 0, context => (.error (), 0, context)
  | number + 1, context =>
      (.ok (), number,
        { context.reset.push ⟨"Countdown", 0, 0, number, none⟩ with mode := .saving })

/-- Suspended once, terminated by the next execution, and reset in the end. -/
theorem rests_clean_countdown :
    let suspended : Session Nat Nat Unit :=
      [Call.setPayload (some 7), .execute [3]].foldl (Session.call countdown) (.begin 1)
    let failed := suspended.call countdown (.execute [])
    countdown.KeepsArguments ∧ suspended.last = some (.ok true) ∧ suspended.runner.Suspended ∧
      failed.last = some (.error (.execution ())) ∧
      failed.runner.execute countdown [5] = (.error .terminated, failed.runner) ∧
      failed.runner.reset = (ofParts 0 .empty).setPayload (some 7) := by
  intro suspended failed
  have keeps : countdown.KeepsArguments := by
    rintro (_ | number) context <;> rfl
  obtain ⟨_, suspends, _⟩ := rests_clean keeps 1 [.setPayload (some 7), .execute [3]]
  obtain ⟨_, _, _, stays, _, resets⟩ :=
    rests_clean keeps 1 [.setPayload (some 7), .execute [3], .execute []]
  exact ⟨keeps, rfl, suspends.mpr rfl, rfl, stays rfl [5], resets []⟩

end Runner

end StackCoroutine
