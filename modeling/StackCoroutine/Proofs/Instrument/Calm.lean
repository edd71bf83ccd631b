import StackCoroutine.Instrument.Method
import StackCoroutine.Proofs.Frame.Flow

/-!
Stretches of generated code that control runs through from the first instruction to the last.
-/

namespace StackCoroutine

/-- Control goes on to the next instruction and nowhere else, and cannot come from elsewhere. -/
def Insn.isCalm (insn : Insn) : Bool := !insn.isTerminator && insn.labels.isEmpty

def Calm (code : List Insn) : Prop := ∀ insn ∈ code, insn.isCalm = true

namespace Calm

variable {first second code : List Insn}

@[simp] theorem nil : Calm [] := by simp [Calm]

@[simp] theorem cons_iff {insn : Insn} : Calm (insn :: code) ↔ insn.isCalm = true ∧ Calm code :=
  List.forall_mem_cons

@[simp] theorem append_iff : Calm (first ++ second) ↔ Calm first ∧ Calm second :=
  List.forall_mem_append

/-- For code whose instructions are written out. -/
theorem ofAll (all : code.all Insn.isCalm = true) : Calm code := List.all_eq_true.mp all

theorem flatMap {α : Type} {items : List α} {code : α → List Insn}
    (calm : ∀ item ∈ items, Calm (code item)) : Calm (items.flatMap code) := by
  intro insn member
  obtain ⟨item, listed, inside⟩ := List.mem_flatMap.mp member
  exact calm item listed insn inside

theorem usedLabels (calm : Calm code) : usedLabels code = [] := by
  apply List.flatMap_eq_nil_iff.mpr
  intro insn member
  have quiet := calm insn member
  unfold Insn.isCalm at quiet
  rw [Bool.and_eq_true, List.isEmpty_iff] at quiet
  exact quiet.2

theorem definedLabels (calm : Calm code) : definedLabels code = [] := by
  apply List.eq_nil_of_subset_nil
  rw [← calm.usedLabels]
  exact definedLabels_subset code

end Calm

theorem StoredValue.load_calm (stored : StoredValue) (array : Variable) :
    Calm (stored.load array) := by
  obtain ⟨value, kind, index⟩ := stored
  cases value with
  | reference name =>
      simp only [StoredValue.load, Calm.append_iff, Calm.cons_iff, Calm.nil, and_true]
      refine ⟨⟨rfl, rfl, rfl⟩, ?_⟩
      split
      · exact Calm.nil
      · exact Calm.cons_iff.mpr ⟨rfl, Calm.nil⟩
  | _ => exact Calm.ofAll rfl

namespace SlotLayout

theorem allocate_calm (arrayOf : Kind → Variable) (sizes : PerKind Nat) (values : List FrameValue) :
    Calm (allocate arrayOf sizes values) :=
  Calm.flatMap fun _ _ => Calm.ofAll rfl

theorem allocateStack_calm (layout : SlotLayout) (stack : List FrameValue) :
    Calm (layout.allocateStack stack) :=
  allocate_calm _ _ _

theorem saveStack_calm (layout : SlotLayout) (stack : List FrameValue) (count : Nat) :
    Calm (layout.saveStack stack count) := by
  refine Calm.flatMap fun entry _ => ?_
  cases entry with
  | none => exact Calm.nil
  | some stored => exact Calm.ofAll rfl

theorem pushAll_calm (layout : SlotLayout) (entries : List (Option StoredValue)) :
    Calm (layout.pushAll entries) := by
  refine Calm.flatMap fun entry _ => ?_
  cases entry with
  | none => exact Calm.nil
  | some stored => exact stored.load_calm _

theorem saveLocals_calm (layout : SlotLayout) (locals : List FrameValue) :
    Calm (layout.saveLocals locals) :=
  Calm.flatMap fun _ _ => Calm.ofAll rfl

theorem loadLocals_calm (layout : SlotLayout) (locals : List FrameValue) :
    Calm (layout.loadLocals locals) :=
  Calm.flatMap fun item _ => Calm.append_iff.mpr
    ⟨item.1.load_calm _, Calm.cons_iff.mpr ⟨rfl, Calm.nil⟩⟩

theorem pack_calm (layout : SlotLayout) (locals stack : List FrameValue) :
    Calm (layout.pack locals stack) := by
  refine Calm.append_iff.mpr ⟨Calm.ofAll rfl, ?_⟩
  exact Calm.flatMap fun _ _ => Calm.ofAll rfl

theorem unpack_calm (layout : SlotLayout) (locals stack : List FrameValue) :
    Calm (layout.unpack locals stack) :=
  Calm.flatMap fun _ _ => Calm.ofAll rfl

end SlotLayout

namespace MethodPlan

theorem marker_calm (plan : MethodPlan) (step : String) : Calm (plan.marker step) := by
  unfold marker
  cases plan.settings.markers <;> exact Calm.ofAll rfl

theorem setMode_calm (plan : MethodPlan) (mode : Mode) : Calm (plan.setMode mode) :=
  Calm.ofAll rfl

theorem unloadCurrent_calm (plan : MethodPlan) : Calm plan.unloadCurrent :=
  Calm.ofAll rfl

theorem popResult_calm (point : Point) : Calm (popResult point) := by
  unfold popResult
  cases point.resultKind <;> exact Calm.ofAll rfl

theorem pushSavedFrame_calm (plan : MethodPlan) (point : Point) :
    Calm (plan.pushSavedFrame point) := by
  unfold pushSavedFrame
  cases plan.layout.locks <;> exact Calm.ofAll rfl

theorem saveLocalsAndPack_calm (plan : MethodPlan) (frame : Frame) :
    Calm (plan.saveLocalsAndPack frame) :=
  Calm.append_iff.mpr ⟨Calm.append_iff.mpr ⟨SlotLayout.allocate_calm _ _ _,
    SlotLayout.saveLocals_calm _ _⟩, SlotLayout.pack_calm _ _ _⟩

end MethodPlan

theorem MethodPlan.loadSavedFrame_calm (plan : MethodPlan) : Calm plan.loadSavedFrame := by
  unfold loadSavedFrame
  refine Calm.append_iff.mpr ⟨?_, ?_⟩
  · exact Calm.ofAll rfl
  · cases plan.layout.locks <;> exact Calm.ofAll rfl

theorem MethodPlan.branchUnlessSaving_labels (plan : MethodPlan) (target : Label) :
    definedLabels (plan.branchUnlessSaving target) = [] := rfl

theorem throwIllegalState_labels (message : String) :
    definedLabels (throwIllegalState message) = [] := rfl

theorem dummyReturn_labels (type : ValueType) : definedLabels (dummyReturn type) = [] := by
  unfold dummyReturn
  rcases type.kind with _ | _ | _ | _ | _ | _ <;> rfl

end StackCoroutine
