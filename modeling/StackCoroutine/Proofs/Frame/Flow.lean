import StackCoroutine.Proofs.Frame.Typing

/-!
Typing code piece by piece. A scheme says which shape frames have at each label; given that, a piece
of code takes one shape to another, and pieces can be put one behind the other. What control cannot
come to has no shape. Flows through all of a method's code make a typing of it.
-/

namespace StackCoroutine

/-- Labels a piece of code defines, in its order. -/
def definedLabels (code : List Insn) : List Label :=
  code.filterMap fun
    | .label label => some label
    | _ => none

theorem definedLabels_append (first second : List Insn) :
    definedLabels (first ++ second) = definedLabels first ++ definedLabels second :=
  List.filterMap_append

theorem mem_definedLabels {label : Label} {code : List Insn} :
    label ∈ definedLabels code ↔ .label label ∈ code := by
  unfold definedLabels
  rw [List.mem_filterMap]
  constructor
  · rintro ⟨insn, member, found⟩
    split at found <;> simp at found
    exact found ▸ member
  · exact fun member => ⟨_, member, rfl⟩

/-- Labels a piece of code defines or may branch to. -/
def usedLabels (code : List Insn) : List Label := code.flatMap Insn.labels

theorem usedLabels_append (first second : List Insn) :
    usedLabels (first ++ second) = usedLabels first ++ usedLabels second :=
  List.flatMap_append

theorem definedLabels_subset (code : List Insn) : definedLabels code ⊆ usedLabels code := by
  intro label member
  exact List.mem_flatMap.mpr ⟨_, mem_definedLabels.mp member, List.mem_singleton_self label⟩

/-- What pieces of code are typed against: the number of local slots, the category the method
returns, and the shape at each label that control comes to. -/
structure Scheme where
  limit : Nat
  result : Option Kind
  shapeAt : Label → Option Shape

/-- Frames of the first shape, if there are any, are of the second. -/
def Below (first second : Option Shape) : Prop :=
  ∀ shape, first = some shape → ∃ weak, second = some weak ∧ shape.Implies weak

theorem Below.refl (shape : Option Shape) : Below shape shape :=
  fun some_shape same => ⟨some_shape, same, .refl some_shape⟩

theorem Below.trans {first second third : Option Shape} (early : Below first second)
    (late : Below second third) : Below first third := by
  intro shape same
  obtain ⟨middle, same', implies⟩ := early shape same
  obtain ⟨weak, same'', implies'⟩ := late middle same'
  exact ⟨weak, same'', implies.trans implies'⟩

theorem below_none (shape : Option Shape) : Below none shape := by
  intro some_shape same
  cases same

theorem below_some {strong weak : Shape} : Below (some strong) (some weak) ↔ strong.Implies weak := by
  constructor
  · intro below
    obtain ⟨shape, same, implies⟩ := below strong rfl
    cases same
    exact implies
  · intro implies shape same
    cases same
    exact ⟨weak, rfl, implies⟩

theorem below_declared {shape : Option Shape} {strong weak : Shape} (declared : shape = some weak)
    (implies : strong.Implies weak) : Below (some strong) shape :=
  declared ▸ below_some.mpr implies

/-- The code takes frames of the first shape to the last; before each instruction stands its shape. -/
inductive Flows (scheme : Scheme) : Option Shape → List Insn → List (Option Shape) →
    Option Shape → Prop where
  | done {start stop} : Below start stop → Flows scheme start [] [] stop
  | dead {insn code shapes stop} :
      (∀ label, insn = .label label → scheme.shapeAt label = none) →
      Flows scheme none code shapes stop → Flows scheme none (insn :: code) (none :: shapes) stop
  | step {start shape after insn code shapes stop} : Below start (some shape) →
      (∀ label, insn = .label label → scheme.shapeAt label = some shape) →
      Shape.Executes scheme.limit scheme.result insn shape after →
      (∀ label ∈ insn.targets, Below (some after) (scheme.shapeAt label)) →
      Flows scheme (if insn.isTerminator then none else some after) code shapes stop →
      Flows scheme start (insn :: code) (some shape :: shapes) stop

namespace Flows

variable {scheme : Scheme} {start middle stop : Option Shape} {code rest : List Insn}
  {shapes others : List (Option Shape)}

theorem length (flows : Flows scheme start code shapes stop) : shapes.length = code.length := by
  induction flows with
  | done => rfl
  | dead _ _ ih => simp [ih]
  | step _ _ _ _ _ ih => simp [ih]

theorem weaken_start {strong : Option Shape} (below : Below strong start)
    (flows : Flows scheme start code shapes stop) (live : code = [] ∨ start ≠ none ∨ strong = none) :
    Flows scheme strong code shapes stop := by
  cases flows with
  | done last => exact .done (below.trans last)
  | dead undeclared flows =>
      rcases live with empty | alive | none_strong
      · simp at empty
      · exact absurd rfl alive
      · exact none_strong ▸ .dead undeclared flows
  | step first declared executes branches flows =>
      exact .step (below.trans first) declared executes branches flows

theorem append (first : Flows scheme start code shapes middle)
    (second : Flows scheme middle rest others stop) :
    Flows scheme start (code ++ rest) (shapes ++ others) stop := by
  induction first with
  | done below =>
      refine second.weaken_start below ?_
      rename_i start _
      cases start with
      | none => exact Or.inr (Or.inr rfl)
      | some shape =>
          obtain ⟨weak, same, _⟩ := below shape rfl
          exact Or.inr (Or.inl (by simp [same]))
  | dead undeclared _ ih => exact .dead undeclared (ih second)
  | step first declared executes branches _ ih =>
      exact .step first declared executes branches (ih second)

/-- The shape before the code is no weaker than that of its first instruction. -/
theorem head (flows : Flows scheme start code shapes stop) (some_code : code ≠ []) :
    ∃ first, shapes[0]? = some first ∧ Below start first := by
  cases flows with
  | done => exact absurd rfl some_code
  | dead => exact ⟨none, rfl, .refl none⟩
  | step first => exact ⟨_, rfl, first⟩

/-- A label has the shape declared for it. -/
theorem label_at (flows : Flows scheme start code shapes stop) {index : Nat} {label : Label}
    (there : code[index]? = some (.label label)) : shapes[index]? = some (scheme.shapeAt label) := by
  induction flows generalizing index with
  | done => simp at there
  | dead undeclared _ ih =>
      cases index with
      | zero =>
          have same := Option.some.inj there
          rw [undeclared label same]
          rfl
      | succ index => exact ih there
  | step _ declared _ _ _ ih =>
      cases index with
      | zero =>
          have same := Option.some.inj there
          rw [declared label same]
          rfl
      | succ index => exact ih there

/-- An instruction that control comes to executes and passes its frame on. -/
theorem at_index (flows : Flows scheme start code shapes stop) {index : Nat} {insn : Insn}
    {shape : Shape} (there : code[index]? = some insn)
    (typed : shapes[index]? = some (some shape)) :
    ∃ after, Shape.Executes scheme.limit scheme.result insn shape after ∧
      (∀ label ∈ insn.targets, Below (some after) (scheme.shapeAt label)) ∧
      (insn.isTerminator = false →
        Below (some after) (if index + 1 < code.length then (shapes[index + 1]?).join else stop)) := by
  induction flows generalizing index with
  | done => simp at there
  | dead _ flows ih =>
      cases index with
      | zero => simp at typed
      | succ index =>
          obtain ⟨after, executes, branches, follows⟩ := ih there typed
          exact ⟨after, executes, branches, by simpa using follows⟩
  | @step start shape' after' insn' code' shapes' stop' _ declared executes branches flows ih =>
      cases index with
      | zero =>
          cases Option.some.inj there
          cases Option.some.inj (Option.some.inj typed)
          refine ⟨after', executes, branches, ?_⟩
          intro continues
          rw [if_neg (by simp [continues])] at flows
          by_cases more : code' = []
          · subst more
            cases flows with
            | done below => simpa using below
          · obtain ⟨first, found, below⟩ := flows.head more
            have longer : 0 < code'.length := List.length_pos_iff.mpr more
            simpa [longer, found] using below
      | succ index =>
          obtain ⟨after, executes, branches, follows⟩ := ih there typed
          exact ⟨after, executes, branches, by simpa using follows⟩

end Flows

/-- The code can be typed from the first shape to the last, and wherever control comes in it, the
shape is as needed. -/
def TypesWith (scheme : Scheme) (needs : Shape → Prop) (start : Option Shape) (code : List Insn)
    (stop : Option Shape) : Prop :=
  ∃ shapes, Flows scheme start code shapes stop ∧ ∀ shape, some shape ∈ shapes → needs shape

/-- The code can be typed from the first shape to the last, and wherever control comes in it, the
local slots of the base are known. -/
def Types (scheme : Scheme) (base : Set (Nat × Kind)) (start : Option Shape) (code : List Insn)
    (stop : Option Shape) : Prop :=
  TypesWith scheme (fun shape => base ⊆ shape.locals) start code stop

namespace Types

variable {scheme : Scheme} {base : Set (Nat × Kind)} {start middle stop : Option Shape}
  {code rest : List Insn}

theorem nil (below : Below start stop) : Types scheme base start [] stop :=
  ⟨[], .done below, by simp⟩

theorem append (first : Types scheme base start code middle)
    (second : Types scheme base middle rest stop) : Types scheme base start (code ++ rest) stop := by
  obtain ⟨shapes, flows, covered⟩ := first
  obtain ⟨others, flows', covered'⟩ := second
  refine ⟨shapes ++ others, flows.append flows', ?_⟩
  intro shape member
  rcases List.mem_append.mp member with here | there
  · exact covered shape here
  · exact covered' shape there

theorem weaken {strong weak : Option Shape} (types : Types scheme base start code stop)
    (below : Below strong start) (above : Below stop weak) :
    Types scheme base strong code weak := by
  have first : Types scheme base strong [] start := nil below
  have last : Types scheme base stop [] weak := nil above
  simpa using (first.append types).append last

theorem mono {smaller : Set (Nat × Kind)} (types : Types scheme base start code stop)
    (subset : smaller ⊆ base) : Types scheme smaller start code stop := by
  obtain ⟨shapes, flows, covered⟩ := types
  exact ⟨shapes, flows, fun shape member => subset.trans (covered shape member)⟩

/-- Code behind a jump, without a label that control comes to. -/
theorem dead {needs : Shape → Prop}
    (undeclared : ∀ label, .label label ∈ code → scheme.shapeAt label = none) :
    TypesWith scheme needs none code stop := by
  induction code with
  | nil => exact ⟨[], .done (below_none stop), by simp⟩
  | cons insn rest ih =>
      obtain ⟨shapes, flows, needed⟩ := ih fun label member =>
        undeclared label (List.mem_cons_of_mem _ member)
      refine ⟨none :: shapes, .dead ?_ flows, by simpa using needed⟩
      rintro label rfl
      exact undeclared label List.mem_cons_self

theorem label {label : Label} {shape : Shape} (declared : scheme.shapeAt label = some shape)
    (below : Below start (some shape)) (covered : base ⊆ shape.locals) :
    Types scheme base start [.label label] (some shape) := by
  refine ⟨[some shape], .step below ?_ ?_ (by simp [Insn.targets]) (.done (.refl _)), by simpa⟩
  · rintro other same
    cases same
    exact declared
  · intro frame _ holds
    exact ⟨frame, by cases frame; rfl, holds⟩

/-- An instruction that goes to one of its targets or on to the next instruction, as it may. -/
theorem insn {insn : Insn} {before after : Shape} (unlabelled : ∀ label, insn ≠ .label label)
    (covered : base ⊆ before.locals)
    (executes : Shape.Executes scheme.limit scheme.result insn before after)
    (branches : ∀ label ∈ insn.targets, Below (some after) (scheme.shapeAt label)) :
    Types scheme base (some before) [insn] (if insn.isTerminator then none else some after) := by
  refine ⟨[some before], .step (.refl _) (fun label same => absurd same (unlabelled label)) executes
    branches (.done (.refl _)), by simpa⟩

end Types

/-- A piece of code with the shape it starts with and what is needed of all shapes in it. -/
structure Segment where
  needs : Shape → Prop
  start : Option Shape
  code : List Insn

namespace Segment

/-- A segment throughout which local slots are known. -/
def keeping (base : Set (Nat × Kind)) (start : Option Shape) (code : List Insn) : Segment :=
  ⟨fun shape => base ⊆ shape.locals, start, code⟩

/-- The code of segments one behind the other. -/
def join (segments : List Segment) : List Insn := segments.flatMap code

/-- The shape before the first segment, or the last shape if there is none. -/
def startOf (segments : List Segment) (stop : Option Shape) : Option Shape :=
  match segments with
  | [] => stop
  | first :: _ => first.start

/-- Each segment ends as the next one starts. -/
def Linked (scheme : Scheme) : List Segment → Option Shape → Prop
  | [], _ => True
  | first :: rest, stop =>
      TypesWith scheme first.needs first.start first.code (startOf rest stop) ∧
        Linked scheme rest stop

variable {scheme : Scheme} {stop : Option Shape}

theorem startOf_append (first second : List Segment) (stop : Option Shape) :
    startOf (first ++ second) stop = startOf first (startOf second stop) := by
  cases first <;> rfl

theorem Linked.append {first second : List Segment}
    (early : Linked scheme first (startOf second stop)) (late : Linked scheme second stop) :
    Linked scheme (first ++ second) stop := by
  induction first with
  | nil => exact late
  | cons segment rest ih =>
      refine ⟨?_, ih early.2⟩
      have here : TypesWith scheme segment.needs segment.start segment.code
          (startOf (rest ++ second) stop) := by
        rw [startOf_append]
        exact early.1
      exact here

/-- Linked segments make one flow, in which the shapes of every segment are as needed and begin with
the one it starts with. -/
theorem Linked.flows {segments : List Segment} (linked : Linked scheme segments stop) :
    ∃ shapes, Flows scheme (startOf segments stop) (join segments) shapes stop ∧
      ∀ before segment after, segments = before ++ segment :: after →
        ∀ offset shape, offset < segment.code.length →
          shapes[(join before).length + offset]? = some (some shape) →
          segment.needs shape ∧ (offset = 0 → Below segment.start (some shape)) := by
  induction segments with
  | nil =>
      refine ⟨[], .done (.refl _), ?_⟩
      intro before segment after same
      simp at same
  | cons first rest ih =>
      obtain ⟨others, flows, within⟩ := ih linked.2
      obtain ⟨shapes, flows', covered⟩ := linked.1
      refine ⟨shapes ++ others, flows'.append flows, ?_⟩
      have length := flows'.length
      intro before segment after same offset shape inside there
      cases before with
      | nil =>
          obtain ⟨rfl, rfl⟩ := List.cons.inj same
          have here : shapes[offset]? = some (some shape) := by
            rw [List.getElem?_append_left (by simp [join]; omega)] at there
            simpa [join] using there
          refine ⟨covered shape (List.mem_of_getElem? here), ?_⟩
          rintro rfl
          obtain ⟨head, found, below⟩ := flows'.head (List.ne_nil_of_length_pos inside)
          cases found.symm.trans here
          exact below
      | cons other before =>
          obtain ⟨rfl, rfl⟩ := List.cons.inj same
          refine within before segment after rfl offset shape inside ?_
          rw [List.getElem?_append_right (by simp [join]; omega)] at there
          simpa [join, length, Nat.add_assoc] using there

end Segment

/-- The shapes of a flow, by place. -/
def shapesAt (shapes : List (Option Shape)) (index : Nat) : Option Shape := (shapes[index]?).join

/-- A flow through all the code types it, if the handlers find the local slots they need. -/
theorem Flows.typing {setting : Analysis.Setting} {scheme : Scheme} {code : List Insn}
    {shapes : List (Option Shape)} {start : Option Shape} (coded : setting.code = code.toArray)
    (result : setting.result = scheme.result) (flows : Flows scheme start code shapes none)
    (resolves : ∀ label place, Analysis.resolve setting.labels label = .ok place ↔
      code[place]? = some (.label label))
    (declared : ∀ label, scheme.shapeAt label ≠ none → .label label ∈ code)
    (caught : ∀ index shape handler, shapes[index]? = some (some shape) →
      handler ∈ setting.handlers → handler.covers index →
      Analysis.Receives (shapesAt shapes) ⟨shape.locals, [.ref]⟩ handler.target) :
    Analysis.Typing setting scheme.limit (shapesAt shapes) where
  executes {index insn shape} there typed := by
    have there' : code[index]? = some insn := by simpa [coded] using there
    have typed' : shapes[index]? = some (some shape) := by
      simpa [shapesAt, Option.join_eq_some_iff] using typed
    obtain ⟨after, executes, branches, follows⟩ := flows.at_index there' typed'
    refine ⟨after, result ▸ executes, ?_, ?_⟩
    · intro label target
      obtain ⟨weak, found, implies⟩ := branches label target after rfl
      obtain ⟨place, inside, same⟩ := List.mem_iff_getElem.mp (declared label (by simp [found]))
      have place_label : code[place]? = some (.label label) := by
        rw [List.getElem?_eq_getElem inside, same]
      refine ⟨place, (resolves label place).mpr place_label, weak, ?_, implies⟩
      simp [shapesAt, flows.label_at place_label, found]
    · intro continues
      obtain ⟨weak, found, implies⟩ := follows continues after rfl
      by_cases inside : index + 1 < code.length
      · rw [if_pos inside] at found
        exact ⟨by simpa [coded] using inside, weak, found, implies⟩
      · rw [if_neg inside] at found
        cases found
  caught {index shape handler} typed listed covers := by
    refine caught index shape handler ?_ listed covers
    simpa [shapesAt, Option.join_eq_some_iff] using typed

end StackCoroutine
