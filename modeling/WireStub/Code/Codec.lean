import WireStub.Code.CType
import WireStub.Code.Signature

/-!
# Codec functions and calls

Every C type has two codec functions: one writes a value into a buffer, the other reads one.  Values
of base types are written by value; all else is passed by pointer.

* `Half.signature` is the signature of a codec function;
* `CodecCall` is a call, with an `Argument` that says how the place of the value is passed.
-/

namespace WireStub

/-- One of the two codec functions of a type. -/
inductive Half where
  /-- Writes a value into a buffer. -/
  | marshal
  /-- Reads a value from a buffer. -/
  | unmarshal
  deriving DecidableEq, Repr

namespace Half

/-- Both functions, the writer first. -/
def both : List Half := [.marshal, .unmarshal]

/-- The name of the function for a type. -/
def functionName (h : Half) (c : CType) : String :=
  c.codecPrefix ++ match h with
    | .marshal => "_marshal"
    | .unmarshal => "_unmarshal"

/-- Whether the function takes a pointer to the value. -/
def takesPointer (h : Half) (c : CType) : Bool :=
  match h with
  | .marshal => !c.isBase
  | .unmarshal => true

/-- The parameter for the value. -/
def valueParameter (h : Half) (c : CType) : CParameter := ⟨c.name, h.takesPointer c, "value"⟩

/-- The signature of the function for a type. -/
def signature (h : Half) (c : CType) : Signature :=
  ⟨false, "uint32_t", h.functionName c,
    [⟨"MessageBuffer_t", false, "buffer"⟩, ⟨"uint32_t", false, "offset"⟩, h.valueParameter c]⟩

end Half

/-- How a place is passed. -/
inductive Access where
  /-- The place itself. -/
  | itself
  /-- Its address. -/
  | address
  /-- What it points to. -/
  | contents
  deriving DecidableEq, Repr

/-- An argument of a call. -/
structure Argument where
  access : Access
  place : String
  deriving DecidableEq, Repr

/-- The text of an argument. -/
def Argument.text (a : Argument) : String :=
  match a.access with
  | .itself => a.place
  | .address => "&" ++ a.place
  | .contents => "*" ++ a.place

/-- The argument for a value that lies at a place. -/
def Half.argument (h : Half) (c : CType) (place : String) : Argument :=
  ⟨if h.takesPointer c then .address else .itself, place⟩

/-- A call of a codec function. -/
structure CodecCall where
  half : Half
  type : CType
  buffer : String
  offset : String
  argument : Argument
  deriving DecidableEq, Repr

/-- The text of a call. -/
def CodecCall.text (c : CodecCall) : String :=
  c.half.functionName c.type ++
    "(" ++ c.buffer ++ ", " ++ c.offset ++ ", " ++ c.argument.text ++ ")"

end WireStub
