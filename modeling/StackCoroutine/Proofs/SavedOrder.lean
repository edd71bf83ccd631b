import Mathlib.Data.List.Induction
import StackCoroutine.Coroutine.Context

/-!
The order of saved frames. The frames of one coroutine are a stack; its generated code calls, returns,
passes exceptions on, suspends and resumes in any order, and each of these does a few operations on
the context. None of them fails, and the chain always holds the states of exactly the frames that
need one, outermost first: of the retained frames while user code runs, of all frames while the
coroutine is suspended.
-/

namespace StackCoroutine.SavedOrder

variable {V : Type}

/-- A frame on the call stack. -/
inductive LiveFrame (V : Type) where
  | fresh
  /-- Waits for the call that its restoring code has made again. Its state was handed out from a
  position of the chain and has not been unloaded. -/
  | retained (position : Nat) (state : SavedFrame V)

/-- A coroutine with its frames. -/
inductive Session (V : Type) where
  /-- User code runs; frames are listed from the innermost outward. -/
  | running (frames : List (LiveFrame V)) (context : Context V)
  /-- Suspended, with the state in which each frame stopped, outermost first. -/
  | dormant (states : List (SavedFrame V)) (context : Context V)

inductive Event (V : Type) where
  | call
  | return
  /-- An exception passes a number of frames and is caught by the next one. -/
  | throw (passed : Nat)
  /-- An exception that no frame catches; the runner is reset after it. -/
  | escape
  /-- The frame at depth `depth`, the outermost at depth zero, stops in state `capture depth`. -/
  | suspend (capture : Nat → SavedFrame V)
  | resume

/-- The state a frame at a depth stops in: a retained frame is still in the one it was made from. -/
def LiveFrame.stopped (capture : Nat → SavedFrame V) (depth : Nat) : LiveFrame V → SavedFrame V
  | .fresh => capture depth
  | .retained _ state => state

/-- The states of all frames, outermost first. -/
def stoppedStates (capture : Nat → SavedFrame V) : List (LiveFrame V) → List (SavedFrame V)
  | [] => []
  | frame :: outer => stoppedStates capture outer ++ [frame.stopped capture outer.length]

/-- The frames around the suspended one return in turn, and the fresh ones save themselves. -/
def saveOuter (capture : Nat → SavedFrame V) : List (LiveFrame V) → Context V → Context V
  | [], context => context
  | .fresh :: outer, context => saveOuter capture outer (context.push (capture outer.length))
  | .retained .. :: outer, context => saveOuter capture outer context

/-- Takes the given number of states off the chain, one for each frame from the outermost inward. -/
def loadEach : Nat → Context V → Except ProtocolError (List (Nat × SavedFrame V) × Context V)
  | 0, context => .ok ([], context)
  | count + 1, context => do
      let (first, next) ← context.loadNext
      let (rest, last) ← loadEach count next
      return (first :: rest, last)

/-- The frames made from the states handed out: all but the innermost wait for their calls. -/
def reentered (handed : List (Nat × SavedFrame V)) : List (LiveFrame V) :=
  .fresh :: (handed.dropLast.map fun (position, state) => .retained position state).reverse

/-- The frames left by a call that is complete. -/
def complete (context : Context V) : List (LiveFrame V) → Except ProtocolError (Session V)
  | [] => .ok (.running [] context.reset)
  | .retained .. :: outer => do
      let (_, next) ← context.unloadCurrent
      return .running (.fresh :: outer) next
  | .fresh :: outer => .ok (.running (.fresh :: outer) context)

/-- The frames from the one that catches an exception outward. -/
def handle (context : Context V) : List (LiveFrame V) → Except ProtocolError (Session V)
  | .retained position _ :: outer => do
      let next ← context.unloadToBefore position
      return .running (.fresh :: outer) next
  | frames => .ok (.running frames context)

namespace Event

/-- Whether generated code can come to the event. -/
def possible : Event V → Session V → Bool
  | .call, .running _ _ => true
  | .throw passed, .running frames _ => passed < frames.length
  | .return, .running frames _ | .escape, .running frames _ | .suspend _, .running frames _ =>
      !frames.isEmpty
  | .resume, .dormant _ _ => true
  | _, _ => false

/-- What the event does; nothing where it is not possible. -/
def perform : Event V → Session V → Except ProtocolError (Session V)
  | .call, .running frames context => .ok (.running (.fresh :: frames) context)
  | .return, .running (_ :: outer) context => complete context outer
  | .throw passed, .running frames context => handle context (frames.drop passed)
  | .escape, .running _ context => .ok (.running [] context.reset)
  | .suspend capture, .running (innermost :: outer) context => do
      let saving ← (context.push (capture outer.length)).setMode .saving
      let ready ← (saveOuter capture outer saving).setMode .loading
      return .dormant (stoppedStates capture (innermost :: outer)) ready
  | .resume, .dormant states context => do
      let (handed, loaded) ← loadEach states.length context
      let normal ← loaded.setMode .normal
      let (_, next) ← normal.unloadCurrent
      return .running (reentered handed) next
  | _, session => .ok session

end Event

def run : List (Event V) → Session V → Except ProtocolError (Session V)
  | [], session => .ok session
  | event :: rest, session => do run rest (← event.perform session)

/-- Every event is possible when its turn comes. -/
def Admissible : List (Event V) → Session V → Prop
  | [], _ => True
  | event :: rest, session =>
      event.possible session ∧ ∀ next, event.perform session = .ok next → Admissible rest next

/-- Before the entry point is called for the first time. -/
def start : Session V := .running [] .empty

/-- Frames made from the states of a chain, each with its position. -/
def retainedFrames (kept : List (SavedFrame V)) : List (LiveFrame V) :=
  (kept.zipIdx.map fun (state, position) => .retained position state).reverse

/-- The chain holds the states of the retained frames, which are the outermost ones, or of all
frames of a suspended coroutine. -/
def Faithful : Session V → Prop
  | .running frames context =>
      context.mode = .normal ∧ ∃ fresh kept,
        frames = List.replicate fresh .fresh ++ retainedFrames kept ∧
        (kept ≠ [] → 0 < fresh) ∧ context.chain = ⟨kept, kept.length⟩
  | .dormant states context =>
      context.mode = .loading ∧ states ≠ [] ∧ context.chain = ⟨states, 0⟩

/-- Whoever resumes is handed the states in which the frames stopped, each with its depth. -/
def HandsOutInOrder : Session V → Prop
  | .running _ _ => True
  | .dormant states context =>
      ∃ next, loadEach states.length context =
        .ok (states.zipIdx.map fun (state, depth) => (depth, state), next)

theorem retainedFrames_concat (kept : List (SavedFrame V)) (last : SavedFrame V) :
    retainedFrames (kept ++ [last]) = .retained kept.length last :: retainedFrames kept := by
  simp [retainedFrames, List.zipIdx_append]

@[simp]
theorem retainedFrames_length (kept : List (SavedFrame V)) :
    (retainedFrames kept).length = kept.length := by
  simp [retainedFrames]

theorem stoppedStates_retained (capture : Nat → SavedFrame V) (kept : List (SavedFrame V)) :
    stoppedStates capture (retainedFrames kept) = kept := by
  induction kept using List.reverseRecOn with
  | nil => rfl
  | append_singleton kept last ih =>
      rw [retainedFrames_concat, stoppedStates, ih]
      rfl

theorem retainedFrames_drop (outer inner : List (SavedFrame V)) :
    (retainedFrames (outer ++ inner)).drop inner.length = retainedFrames outer := by
  simp [retainedFrames, List.zipIdx_append]

theorem stoppedStates_fresh (capture : Nat → SavedFrame V) (kept : List (SavedFrame V))
    (fresh : Nat) :
    stoppedStates capture (List.replicate fresh .fresh ++ retainedFrames kept) =
      kept ++ (List.range fresh).map fun depth => capture (kept.length + depth) := by
  induction fresh with
  | zero => simpa using stoppedStates_retained capture kept
  | succ fresh ih =>
      rw [List.replicate_succ, List.cons_append, stoppedStates, ih, List.range_succ]
      simp [LiveFrame.stopped, Nat.add_comm]

theorem insertIdx_behind (kept rest : List (SavedFrame V)) (frame : SavedFrame V) :
    (kept ++ rest).insertIdx kept.length frame = kept ++ frame :: rest := by
  induction kept with
  | nil => rfl
  | cons first kept ih => simp [ih]

/-- A chain whose cursor stands behind `kept` takes a new state right there. -/
theorem push_at_cursor (kept rest : List (SavedFrame V)) (frame : SavedFrame V) :
    Chain.push ⟨kept ++ rest, kept.length⟩ frame = ⟨kept ++ frame :: rest, kept.length⟩ := by
  have inside : min kept.length (kept ++ rest).length = kept.length := by simp
  simp only [Chain.push, Chain.length, inside, insertIdx_behind]

theorem saveOuter_retained (capture : Nat → SavedFrame V) (kept : List (SavedFrame V))
    (context : Context V) : saveOuter capture (retainedFrames kept) context = context := by
  induction kept using List.reverseRecOn with
  | nil => rfl
  | append_singleton kept last ih => rw [retainedFrames_concat, saveOuter, ih]

/-- The frames save themselves from the inside outward, so each state comes before those that were
saved earlier. -/
theorem saveOuter_chain (capture : Nat → SavedFrame V) (kept rest : List (SavedFrame V))
    (fresh : Nat) (context : Context V) (chain : context.chain = ⟨kept ++ rest, kept.length⟩) :
    saveOuter capture (List.replicate fresh .fresh ++ retainedFrames kept) context =
      { context with
        chain := ⟨kept ++ (List.range fresh).map (fun depth => capture (kept.length + depth)) ++
          rest, kept.length⟩ } := by
  induction fresh generalizing rest context with
  | zero =>
      simp only [List.replicate_zero, List.nil_append, saveOuter_retained, List.range_zero,
        List.map_nil, List.append_nil]
      rw [← chain]
  | succ fresh ih =>
      have depth : (List.replicate fresh LiveFrame.fresh ++ retainedFrames kept).length =
          kept.length + fresh := by simp [Nat.add_comm]
      rw [List.replicate_succ, List.cons_append, saveOuter, depth]
      rw [ih (capture (kept.length + fresh) :: rest) _ (by
        rw [Context.push, chain, push_at_cursor])]
      simp [Context.push, List.range_succ]

theorem unloadCurrent_concat (kept : List (SavedFrame V)) (last : SavedFrame V)
    (context : Context V) (chain : context.chain = ⟨kept ++ [last], (kept ++ [last]).length⟩) :
    context.unloadCurrent = .ok (last, { context with chain := ⟨kept, kept.length⟩ }) := by
  simp [Context.unloadCurrent, chain, Chain.unloadCurrent, List.eraseIdx_append_of_length_le,
    bind, Except.bind, pure, Except.pure]

/-- Loading every state behind the cursor hands them out in the order of the chain. -/
theorem loadEach_rest (before rest : List (SavedFrame V)) (context : Context V)
    (chain : context.chain = ⟨before ++ rest, before.length⟩) :
    loadEach rest.length context =
      .ok ((rest.zipIdx before.length).map fun (state, position) => (position, state),
        { context with chain := ⟨before ++ rest, (before ++ rest).length⟩ }) := by
  induction rest generalizing before context with
  | nil =>
      simp only [List.append_nil] at chain
      simp [loadEach, ← chain]
  | cons state rest ih =>
      have first : context.loadNext = .ok ((before.length, state),
          { context with chain := ⟨before ++ state :: rest, before.length + 1⟩ }) := by
        simp [Context.loadNext, chain, Chain.loadNext, bind, Except.bind, pure, Except.pure]
      have later := ih (before ++ [state])
        { context with chain := ⟨before ++ state :: rest, before.length + 1⟩ } (by simp)
      simp only [List.length_cons, loadEach, first, bind, Except.bind, later, pure, Except.pure]
      simp [List.zipIdx_cons]

theorem start_faithful : Faithful (start : Session V) :=
  ⟨rfl, 0, [], by simp [retainedFrames], by simp, rfl⟩

/-- A call that is complete leaves the innermost of the retained frames to go on. -/
theorem complete_faithful (fresh : Nat) (kept : List (SavedFrame V)) (context : Context V)
    (normal : context.mode = .normal) (chain : context.chain = ⟨kept, kept.length⟩) :
    ∃ next, complete context (List.replicate fresh .fresh ++ retainedFrames kept) = .ok next ∧
      Faithful next := by
  cases fresh with
  | succ fresh =>
      refine ⟨_, rfl, normal, fresh + 1, kept, ?_, by simp, chain⟩
      simp [List.replicate_succ]
  | zero =>
      cases kept using List.reverseRecOn with
      | nil => exact ⟨_, rfl, rfl, 0, [], by simp [retainedFrames], by simp, rfl⟩
      | append_singleton kept last =>
          refine ⟨.running (.fresh :: retainedFrames kept)
            { context with chain := ⟨kept, kept.length⟩ }, ?_, normal, 1, kept, by simp, by simp,
            rfl⟩
          rw [List.replicate_zero, List.nil_append, retainedFrames_concat, complete,
            unloadCurrent_concat kept last context chain]
          rfl

/-- The state at a distance from the innermost one, between those around it. -/
theorem exists_caught (kept : List (SavedFrame V)) (inner : Nat) (inside : inner < kept.length) :
    ∃ outer caught below, kept = outer ++ [caught] ++ below ∧ below.length = inner := by
  induction inner generalizing kept with
  | zero =>
      have some_frame : kept ≠ [] := List.ne_nil_of_length_pos inside
      exact ⟨kept.dropLast, kept.getLast some_frame, [],
        by rw [List.append_nil, List.dropLast_concat_getLast], rfl⟩
  | succ inner ih =>
      have some_frame : kept ≠ [] := List.ne_nil_of_length_pos (by omega)
      obtain ⟨outer, caught, below, split, count⟩ := ih kept.dropLast (by simp; omega)
      refine ⟨outer, caught, below ++ [kept.getLast some_frame], ?_, by simp [count]⟩
      rw [← List.append_assoc, ← split, List.dropLast_concat_getLast]

/-- A frame that catches an exception drops its own state and those of the frames it passed. -/
theorem handle_faithful (fresh passed : Nat) (kept : List (SavedFrame V)) (context : Context V)
    (normal : context.mode = .normal) (chain : context.chain = ⟨kept, kept.length⟩)
    (possible : passed < fresh + kept.length) :
    ∃ next, handle context
      ((List.replicate fresh LiveFrame.fresh ++ retainedFrames kept).drop passed) = .ok next ∧
      Faithful next := by
  by_cases within : passed < fresh
  · obtain ⟨left, rfl⟩ : ∃ left, fresh = passed + (left + 1) := ⟨fresh - passed - 1, by omega⟩
    have dropped : (List.replicate (passed + (left + 1)) LiveFrame.fresh ++
        retainedFrames kept).drop passed =
        .fresh :: (List.replicate left .fresh ++ retainedFrames kept) := by
      rw [List.drop_append_of_le_length (by simp), List.drop_replicate, Nat.add_sub_cancel_left,
        List.replicate_succ, List.cons_append]
    rw [dropped]
    exact ⟨_, rfl, normal, left + 1, kept, by simp [List.replicate_succ], by simp, chain⟩
  · -- The exception passes all fresh frames and comes to a retained one.
    obtain ⟨inner, rfl⟩ : ∃ inner, passed = fresh + inner := ⟨passed - fresh, by omega⟩
    obtain ⟨outer, caught, below, rfl, rfl⟩ := exists_caught kept inner (by omega)
    have dropped : (List.replicate fresh LiveFrame.fresh ++
        retainedFrames (outer ++ [caught] ++ below)).drop (fresh + below.length) =
        .retained outer.length caught :: retainedFrames outer := by
      rw [← List.drop_drop, List.drop_left' (by simp), retainedFrames_drop, retainedFrames_concat]
    rw [dropped]
    refine ⟨.running (.fresh :: retainedFrames outer)
      { context with chain := ⟨outer, outer.length⟩ }, ?_, normal, 1, outer, by simp, by simp,
      rfl⟩
    simp [handle, Context.unloadToBefore, chain, Chain.unloadToBefore, Chain.length, normal, bind,
      Except.bind, pure, Except.pure]

theorem suspend_faithful (capture : Nat → SavedFrame V) (fresh : Nat)
    (kept : List (SavedFrame V)) (context : Context V) (normal : context.mode = .normal)
    (chain : context.chain = ⟨kept, kept.length⟩) :
    ∃ next, (Event.suspend capture).perform
      (.running (List.replicate (fresh + 1) .fresh ++ retainedFrames kept) context) = .ok next ∧
      Faithful next := by
  have depth : (List.replicate fresh LiveFrame.fresh ++ retainedFrames kept).length =
      kept.length + fresh := by simp [Nat.add_comm]
  have pushed : context.push (capture (kept.length + fresh)) =
      { context with chain := ⟨kept ++ [capture (kept.length + fresh)], kept.length⟩ } := by
    have appended := push_at_cursor kept [] (capture (kept.length + fresh))
    rw [List.append_nil] at appended
    rw [Context.push, chain, appended]
  have stopped := stoppedStates_fresh capture kept (fresh + 1)
  rw [List.replicate_succ, List.cons_append] at stopped ⊢
  refine ⟨.dormant (kept ++ (List.range (fresh + 1)).map fun d => capture (kept.length + d))
    { context with
      mode := .loading
      chain := ⟨kept ++ (List.range (fresh + 1)).map fun d => capture (kept.length + d), 0⟩ },
    ?_, rfl, by simp [List.range_succ], rfl⟩
  simp only [Event.perform, stopped, depth, pushed, Context.setMode, normal, Mode.transition,
    Mode.canBecome, Mode.next, bind, Except.bind, pure, Except.pure, decide_true, if_true,
    reduceCtorEq, if_false]
  rw [saveOuter_chain capture kept [capture (kept.length + fresh)] fresh _ rfl]
  simp [Chain.rewind, List.range_succ]

theorem resume_faithful (states : List (SavedFrame V)) (context : Context V)
    (loading : context.mode = .loading) (some_frame : states ≠ [])
    (chain : context.chain = ⟨states, 0⟩) :
    ∃ next, Event.resume.perform (.dormant states context) = .ok next ∧ Faithful next := by
  obtain ⟨outer, innermost, rfl⟩ : ∃ outer innermost, states = outer ++ [innermost] :=
    ⟨states.dropLast, states.getLast some_frame, (List.dropLast_concat_getLast some_frame).symm⟩
  have loaded := loadEach_rest [] (outer ++ [innermost]) context (by simpa using chain)
  refine ⟨.running (.fresh :: retainedFrames outer)
    { context with mode := .normal, chain := ⟨outer, outer.length⟩ }, ?_, rfl, 1, outer, by simp,
    by simp, rfl⟩
  simp only [Event.perform, loaded, bind, Except.bind, Context.setMode, loading, Mode.transition,
    Mode.canBecome, Mode.next, decide_true, if_true, reduceCtorEq, if_false, pure, Except.pure]
  rw [unloadCurrent_concat outer innermost _ (by simp)]
  simp [reentered, retainedFrames, List.zipIdx_append]

/-- No event fails, and each leaves the chain in order. -/
theorem perform_faithful (event : Event V) (session : Session V) (faithful : Faithful session)
    (possible : event.possible session) :
    ∃ next, event.perform session = .ok next ∧ Faithful next := by
  cases session with
  | dormant states context =>
      rcases faithful with ⟨loading, some_frame, chain⟩
      cases event with
      | resume => exact resume_faithful states context loading some_frame chain
      | _ => simp [Event.possible] at possible
  | running frames context =>
      rcases faithful with ⟨normal, fresh, kept, rfl, innermost, chain⟩
      cases event with
      | resume => simp [Event.possible] at possible
      | call =>
          exact ⟨_, rfl, normal, fresh + 1, kept, by simp [List.replicate_succ], by simp, chain⟩
      | escape => exact ⟨_, rfl, rfl, 0, [], by simp [retainedFrames], by simp, rfl⟩
      | throw passed =>
          exact handle_faithful fresh passed kept context normal chain
            (by simpa [Event.possible] using possible)
      | «return» =>
          cases fresh with
          | zero =>
              have none_kept : kept = [] := by simpa using innermost
              simp [Event.possible, none_kept, retainedFrames] at possible
          | succ fresh => exact complete_faithful fresh kept context normal chain
      | suspend capture =>
          cases fresh with
          | zero =>
              have none_kept : kept = [] := by simpa using innermost
              simp [Event.possible, none_kept, retainedFrames] at possible
          | succ fresh => exact suspend_faithful capture fresh kept context normal chain

theorem faithful_handsOut (session : Session V) (faithful : Faithful session) :
    HandsOutInOrder session := by
  cases session with
  | running frames context => trivial
  | dormant states context =>
      rcases faithful with ⟨_, _, chain⟩
      exact ⟨_, loadEach_rest [] states context (by simpa using chain)⟩

theorem run_faithful (events : List (Event V)) (session : Session V)
    (faithful : Faithful session) (admissible : Admissible events session) :
    ∃ last, run events session = .ok last ∧ Faithful last := by
  induction events generalizing session with
  | nil => exact ⟨session, rfl, faithful⟩
  | cons event rest ih =>
      rcases admissible with ⟨possible, later⟩
      obtain ⟨next, performed, kept⟩ := perform_faithful event session faithful possible
      obtain ⟨last, ran, faithful⟩ := ih next kept (later next performed)
      exact ⟨last, by rw [run, performed]; exact ran, faithful⟩

/-- From a new context on, no sequence of events makes an operation of the chain fail. While user
code runs, the chain holds the states of the retained frames, the cursor behind them; of a suspended
coroutine it holds the state in which each frame stopped, outermost first, and hands them out in
this order. -/
theorem saved_frames_in_order (events : List (Event V)) (admissible : Admissible events start) :
    ∃ session, run events start = .ok session ∧ Faithful session ∧ HandsOutInOrder session := by
  obtain ⟨session, ran, faithful⟩ := run_faithful events start start_faithful admissible
  exact ⟨session, ran, faithful, faithful_handsOut session faithful⟩

theorem admissible_cons {event : Event V} {rest : List (Event V)} {session next : Session V}
    (possible : event.possible session) (performed : event.perform session = .ok next)
    (later : Admissible rest next) : Admissible (event :: rest) session := by
  refine ⟨possible, fun other same => ?_⟩
  rw [performed] at same
  cases same
  exact later

/-- Three frames stop; the innermost returns to a retained frame, whose new callee stops; an exception
passes both and is caught by the outermost, which stops again. -/
def mixedEvents : List (Event Nat) :=
  let capture (time depth : Nat) : SavedFrame Nat := ⟨"demo/Worker", 7, 0, 10 * time + depth, none⟩
  [.call, .call, .call, .suspend (capture 1), .resume, .return, .call, .suspend (capture 2),
    .resume, .throw 2, .suspend (capture 3)]

theorem saved_frames_in_order_mixed :
    Admissible mixedEvents start ∧
      ∃ session, run mixedEvents start = .ok session ∧ Faithful session ∧
        HandsOutInOrder session := by
  have admissible : Admissible mixedEvents start := by
    repeat refine admissible_cons (by decide) rfl ?_
    trivial
  exact ⟨admissible, saved_frames_in_order mixedEvents admissible⟩

end StackCoroutine.SavedOrder
