import StackCoroutine.ValueType

/-!
Parameter and return types of a method, written `(parameters)result`.
-/

namespace StackCoroutine

structure MethodType where
  parameters : List ValueType
  result : ValueType
  deriving DecidableEq, Repr, Inhabited

namespace MethodType

def descriptor (type : MethodType) : String :=
  String.ofList ('(' :: type.parameters.flatMap ValueType.descriptorChars ++ ')' ::
    type.result.descriptorChars)

/-- Local slots of values of the given types. -/
def slotsOf (types : List ValueType) : Nat := types.foldr (fun type slots => type.size + slots) 0

def parameterSlots (type : MethodType) : Nat := slotsOf type.parameters

/-- The parameter types up to the closing parenthesis and what follows it; a text that ends before
it gives `none` as its fault. -/
def scanParameters (text : List Char) :
    Except (Option ValueType.Fault) (List ValueType × List Char) :=
  match text with
  | [] => .error none
  | c :: rest =>
      if c = ')' then .ok ([], rest)
      else match _scanned : ValueType.scan (c :: rest) with
        | .error fault => .error (some fault)
        | .ok (type, after) =>
            if type = .void then .error (some .void)
            else match scanParameters after with
              | .error fault => .error fault
              | .ok (types, last) => .ok (type :: types, last)
termination_by text.length
decreasing_by exact ValueType.scan_length _scanned

def parse (descriptor : String) : Except DescriptorError MethodType :=
  match descriptor.toList with
  | '(' :: text =>
      match scanParameters text with
      | .error none => .error (.malformedMethod descriptor)
      | .error (some fault) => .error (fault.toError descriptor)
      | .ok (parameters, after) =>
          match ValueType.scan after with
          | .error fault => .error (fault.toError descriptor)
          | .ok (result, []) => .ok ⟨parameters, result⟩
          | .ok (_, _ :: _) => .error (.trailing descriptor)
  | _ => .error (.malformedMethod descriptor)

end MethodType

end StackCoroutine
