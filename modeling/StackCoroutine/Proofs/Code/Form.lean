import StackCoroutine.Code.Form
import StackCoroutine.Proofs.Json.Conveying

/-!
The JSON form of instructions is faithful. Every instruction is decoded from its form, if the number
it holds is finite, and none is if it is not. Where the form stands matters only for the element
types of new arrays, which nest.
-/

namespace StackCoroutine

open Json (Conveys depthLimit)

variable {depth : Nat}

theorem Kind.conveys (kind : Kind) : Conveys depth kind.toJson ofJson? (some kind) := by
  cases kind <;> exact .named rfl

theorem Kind.reread_ne_null (kind : Kind) : kind.toJson.reread ≠ .null := nofun

theorem Condition.conveys (condition : Condition) :
    Conveys depth condition.toJson ofJson? (some condition) := by
  cases condition <;> exact .named rfl

theorem BinaryOp.conveys (op : BinaryOp) : Conveys depth op.toJson ofJson? (some op) := by
  cases op <;> exact .named rfl

theorem Dispatch.conveys (dispatch : Dispatch) :
    Conveys depth dispatch.toJson ofJson? (some dispatch) := by
  cases dispatch <;> exact .named rfl

theorem Label.conveys (label : Label) : Conveys depth label.toJson ofJson? (some label) :=
  (Conveys.uint32 label.number).map Label.mk

namespace ValueType

/-- The number of JSON objects within each other that the form of the type takes. -/
def nesting : ValueType → Nat
  | .object _ => 1
  | .array element => element.nesting + 1
  | _ => 0

theorem conveys (type : ValueType) (room : depth + type.nesting < depthLimit) :
    Conveys depth type.toJson ofJson? (some type) := by
  induction type generalizing depth with
  | object name => exact (Conveys.text name).tagged ValueType.object (fun _ => rfl) room
  | array element ih =>
      rw [nesting] at room
      have inner : Conveys (depth + 1) element.toJson ofJson? (some element) := ih (by omega)
      exact inner.tagged ValueType.array (fun _ => rfl) (by omega)
  | void | boolean | byte | char | short | int | long | float | double => exact .named rfl

end ValueType

theorem MethodRef.conveys (method : MethodRef) (above : depth + 1 < depthLimit) :
    Conveys depth method.toJson ofJson? (some method) :=
  ⟨.object above (by simp [Json.Legible.string]), rfl⟩

theorem FieldRef.conveys (field : FieldRef) (above : depth + 1 < depthLimit) :
    Conveys depth field.toJson ofJson? (some field) :=
  ⟨.object above (by simp [Json.Legible.string]), rfl⟩

namespace Insn

/-- The number that the instruction pushes, if it pushes a fraction, is finite. -/
def isFinite : Insn → Bool
  | .floatConst value => value.classify.isFinite
  | .doubleConst value => value.classify.isFinite
  | _ => true

/-- The number that the instruction pushes is read back from its text if it is finite. -/
def ReadsBack : Insn → Prop
  | .floatConst value => value.classify.isFinite = true → value.ReadsBack
  | .doubleConst value => value.classify.isFinite = true → value.ReadsBack
  | _ => True

instance : DecidablePred ReadsBack := fun insn => by
  unfold ReadsBack
  split <;> infer_instance

/-- The element type of the array that the instruction makes, if it makes one. -/
def newElement? : Insn → Option ValueType
  | .newArray element => some element
  | _ => none

/-- The element type of a new array nests above the limit, where the instruction stands. -/
def Shallow (depth : Nat) (insn : Insn) : Prop :=
  ∀ element ∈ insn.newElement?, depth + 1 + element.nesting < depthLimit

instance : DecidablePred (Shallow depth) := fun _ => inferInstanceAs (Decidable (∀ _ ∈ _, _))

theorem pair_conveys {α β : Type} {first second : Json} {decode : Json → Option α}
    {decode' : Json → Option β} {value : α} {value' : β}
    (here : Conveys (depth + 1) first decode (some value))
    (there : Conveys (depth + 1) second decode' (some value')) (above : depth + 1 < depthLimit) :
    Conveys depth (.array [first, second]) (pair? decode decode') (some (value, value')) := by
  refine ⟨.array above (by simp [here.legible, there.legible]), ?_⟩
  have opened : pair? decode decode' (.array [first.reread, second.reread]) =
      (decode first.reread).bind fun value =>
        (decode' second.reread).bind fun value' => some (value, value') := rfl
  rw [here.decoded, there.decoded] at opened
  exact opened

/-- An instruction whose form is its name with what it holds. -/
theorem tagged_conveys {α : Type} {name : String} {held : Json} {decode : Json → Option α}
    {value : α} (here : Conveys (depth + 1) held decode (some value)) (build : α → Insn)
    (chosen : ∀ held, ofJson? (Json.tagged name held) = (decode held).map build)
    (above : depth + 1 < depthLimit) :
    Conveys depth (Json.tagged name held) ofJson? (some (build value)) :=
  here.tagged build chosen above

theorem tableSwitch_conveys (low : Int32) (default : Label) (targets : List Label)
    (room : depth + 3 < depthLimit) :
    Conveys depth (toJson (.tableSwitch low default targets)) ofJson?
      (some (.tableSwitch low default targets)) := by
  have lowest : Conveys (depth + 2) _ Json.int32? _ := .int32 low
  have otherwise : Conveys (depth + 2) _ Label.ofJson? _ := default.conveys
  have list : Conveys (depth + 2) (.ofList Label.toJson targets) (Json.items? Label.ofJson?) _ :=
    .items (by omega) fun target _ => target.conveys
  refine ⟨.object (by omega) ?_, ?_⟩
  · simpa using Json.Legible.object (by omega)
      (by simp [lowest.legible, otherwise.legible, list.legible])
  · have opened : ∀ low default targets : Json,
        ofJson? (Json.tagged "TableSwitch"
          (.object [("low", low), ("default", default), ("targets", targets)])) =
        (low.int32?).bind fun low => (Label.ofJson? default).bind fun default =>
          (targets.items? Label.ofJson?).bind fun targets =>
            some (.tableSwitch low default targets) := fun _ _ _ => rfl
    refine (opened _ _ _).trans ?_
    rw [lowest.decoded, otherwise.decoded, list.decoded]
    rfl

theorem conveys (insn : Insn) (readsBack : insn.ReadsBack) (room : depth + 3 < depthLimit)
    (shallow : insn.Shallow depth) :
    Conveys depth insn.toJson ofJson? (Option.guard isFinite insn) := by
  have above : depth + 1 < depthLimit := by omega
  have above' : depth + 1 + 1 < depthLimit := by omega
  have above'' : depth + 1 + 1 + 1 < depthLimit := by omega
  cases insn with
  | label target => exact tagged_conveys target.conveys .label (fun _ => rfl) above
  | line number => exact tagged_conveys (.uint32 number) .line (fun _ => rfl) above
  | intConst value => exact tagged_conveys (.int32 value) .intConst (fun _ => rfl) above
  | longConst value => exact tagged_conveys (.int64 value) .longConst (fun _ => rfl) above
  | floatConst value =>
      exact (Conveys.single readsBack).tagged_guard floatConst (fun _ => rfl) rfl above
  | doubleConst value =>
      exact (Conveys.double readsBack).tagged_guard doubleConst (fun _ => rfl) rfl above
  | textConst value => exact tagged_conveys (.text value) .textConst (fun _ => rfl) above
  | load kind slot =>
      exact tagged_conveys (pair_conveys kind.conveys (.uint16 slot) above')
        (Function.uncurry load) (fun _ => rfl) above
  | store kind slot =>
      exact tagged_conveys (pair_conveys kind.conveys (.uint16 slot) above')
        (Function.uncurry store) (fun _ => rfl) above
  | increment slot amount =>
      exact tagged_conveys (pair_conveys (.uint16 slot) (.int32 amount) above')
        (Function.uncurry increment) (fun _ => rfl) above
  | binary kind op =>
      exact tagged_conveys (pair_conveys kind.conveys op.conveys above')
        (Function.uncurry binary) (fun _ => rfl) above
  | neg kind => exact tagged_conveys kind.conveys .neg (fun _ => rfl) above
  | convert source target =>
      exact tagged_conveys (pair_conveys source.conveys target.conveys above')
        (Function.uncurry convert) (fun _ => rfl) above
  | compare kind => exact tagged_conveys kind.conveys .compare (fun _ => rfl) above
  | jump target => exact tagged_conveys target.conveys .jump (fun _ => rfl) above
  | branch condition target =>
      exact tagged_conveys (pair_conveys condition.conveys target.conveys above')
        (Function.uncurry branch) (fun _ => rfl) above
  | branchCompare condition target =>
      exact tagged_conveys (pair_conveys condition.conveys target.conveys above')
        (Function.uncurry branchCompare) (fun _ => rfl) above
  | branchNull target => exact tagged_conveys target.conveys .branchNull (fun _ => rfl) above
  | branchNonNull target => exact tagged_conveys target.conveys .branchNonNull (fun _ => rfl) above
  | branchSame target => exact tagged_conveys target.conveys .branchSame (fun _ => rfl) above
  | branchDifferent target =>
      exact tagged_conveys target.conveys .branchDifferent (fun _ => rfl) above
  | tableSwitch low default targets => exact tableSwitch_conveys low default targets room
  | new name => exact tagged_conveys (.text name) .new (fun _ => rfl) above
  | getField field => exact tagged_conveys (field.conveys above') .getField (fun _ => rfl) above
  | putField field => exact tagged_conveys (field.conveys above') .putField (fun _ => rfl) above
  | getStatic field => exact tagged_conveys (field.conveys above') .getStatic (fun _ => rfl) above
  | putStatic field => exact tagged_conveys (field.conveys above') .putStatic (fun _ => rfl) above
  | checkCast name => exact tagged_conveys (.text name) .checkCast (fun _ => rfl) above
  | instanceOf name => exact tagged_conveys (.text name) .instanceOf (fun _ => rfl) above
  | newArray element =>
      exact tagged_conveys (element.conveys (shallow element rfl)) .newArray (fun _ => rfl) above
  | arrayLoad kind => exact tagged_conveys kind.conveys .arrayLoad (fun _ => rfl) above
  | arrayStore kind => exact tagged_conveys kind.conveys .arrayStore (fun _ => rfl) above
  | invoke dispatch method =>
      exact tagged_conveys (pair_conveys dispatch.conveys (method.conveys above'') above')
        (Function.uncurry invoke) (fun _ => rfl) above
  | invokeDynamic name descriptor =>
      exact ⟨.object above (by simpa using .object above' (by simp [Json.Legible.string])), rfl⟩
  | «return» kind =>
      exact tagged_conveys (.optional Kind.reread_ne_null fun kind _ => kind.conveys) .return
        (fun _ => rfl) above
  | nop | constNull | pop | dup | dupBelow | swap | arrayLength | throw | monitorEnter
  | monitorExit => exact .named rfl

end Insn

theorem TryBlock.conveys (block : TryBlock) (above : depth + 1 < depthLimit) :
    Conveys depth block.toJson ofJson? (some block) := by
  have start : Conveys (depth + 1) _ Label.ofJson? _ := block.start.conveys
  have stop : Conveys (depth + 1) _ Label.ofJson? _ := block.stop.conveys
  have handler : Conveys (depth + 1) _ Label.ofJson? _ := block.handler.conveys
  have caught : Conveys (depth + 1) (.ofOption Json.string block.caught)
      (Json.optional? Json.string?) _ := .optional nofun fun text _ => .text text
  refine ⟨.object above ?_, ?_⟩
  · simp [start.legible, stop.legible, handler.legible, caught.legible]
  · have opened : ∀ start stop handler caught : Json, ofJson? (.object [("start", start),
        ("end", stop), ("handler", handler), ("catch_type", caught)]) =
          (Label.ofJson? start).bind fun start => (Label.ofJson? stop).bind fun stop =>
            (Label.ofJson? handler).bind fun handler => (caught.optional? Json.string?).bind
              fun caught => some ⟨start, stop, handler, caught⟩ := fun _ _ _ _ => rfl
    refine (opened _ _ _ _).trans ?_
    rw [start.decoded, stop.decoded, handler.decoded, caught.decoded]
    rfl

end StackCoroutine
