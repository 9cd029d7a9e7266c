import WireStub.Code.Codec
import WireStub.Code.Layout

/-!
# Statements

The bodies of generated functions, as data.  A statement says what it is for, and `Statement.layout`
writes it down.

* `Statement.calls` lists the codec calls of a statement.
-/

namespace WireStub

/-- The buffers of a request and its response. -/
inductive Buffer where
  | request
  | response
  deriving DecidableEq, Repr

namespace Buffer

/-- The variable that holds a buffer. -/
def variableName : Buffer → String
  | request => "request"
  | response => "response"

/-- The type of a buffer. -/
def typeName : Buffer → String
  | request => "RequestMessageBuffer_t"
  | response => "ResponseMessageBuffer_t"

/-- The end of the names of a buffer's accessors. -/
def ending : Buffer → String
  | request => "_req"
  | response => "_resp"

end Buffer

/-- The fields of a request header. -/
inductive HeaderField where
  | classCode
  | instanceNumber
  | serviceCode
  | attributeCode
  deriving DecidableEq, Repr

/-- The name of a header field in its accessor. -/
def HeaderField.word : HeaderField → String
  | classCode => "ClassCode"
  | instanceNumber => "InstanceNumber"
  | serviceCode => "ServiceCode"
  | attributeCode => "AttributeCode"

/-- One case of a dispatch: a request with this code goes to this handler. -/
structure DispatchCase where
  code : String
  handler : String
  deriving DecidableEq, Repr

/-- A statement of a generated function. -/
inductive Statement where
  /-- Declares a variable. -/
  | declare (type name : String)
  /-- Declares a counter of bytes with a value. -/
  | startCounter (counter : String) (value : Nat)
  /-- Sets the offset to the payload of a buffer, and declares it if it is new. -/
  | startOffset (isNew : Bool) (buffer : Buffer)
  /-- Adds to a counter what a codec call moved. -/
  | advance (counter : String) (call : CodecCall)
  /-- Returns what a codec call moved. -/
  | delegate (call : CodecCall)
  /-- Calls a function, and keeps the result in a variable of a type, if one is given. -/
  | invoke (result : Option String) (function : String) (arguments : List Argument)
  /-- Sets a field of the request header. -/
  | setField (field : HeaderField) (value : String)
  /-- Sets the length of a buffer to the offset. -/
  | setLength (buffer : Buffer)
  /-- Writes the counted length to the beginning of a struct. -/
  | storeLength (counter : String)
  /-- Returns a value. -/
  | giveBack (value : String)
  /-- Runs a statement for each index below a bound. -/
  | loop (depth : Nat) (bound : UInt32) (body : Statement)
  /-- Returns what the handler for a selected code returns, or a status if there is none. -/
  | dispatch (selector : String) (cases : List DispatchCase) (otherwise : String)
  /-- Any other line. -/
  | line (text : String)
  deriving Repr

namespace Statement

/-- The index variable of a loop. -/
def indexName (depth : Nat) : String := "i" ++ toString depth

/-- The head of a loop. -/
def loopHead (depth : Nat) (bound : UInt32) : String :=
  "for (uint32_t " ++ indexName depth ++ " = 0; " ++ indexName depth ++ " < " ++
    toString bound.toNat ++ "; " ++ indexName depth ++ "++)"

/-- The lines of a case. -/
def caseSteps (c : DispatchCase) : List Layout.Step :=
  [.line ("case " ++ c.code ++ ":"), .indent,
   .line ("return " ++ c.handler ++ "(request, response);"), .dedent]

/-- The layout of a statement. -/
def layout : Statement → List Layout.Step
  | declare type name => [.line (type ++ " " ++ name ++ ";")]
  | startCounter counter value =>
    [.line ("uint32_t " ++ counter ++ " = " ++ toString value ++ ";")]
  | startOffset isNew buffer =>
    [.line ((if isNew then "uint32_t " else "") ++ "offset = getPayloadOffset" ++ buffer.ending ++
      "(" ++ buffer.variableName ++ ");")]
  | advance counter call => [.line (counter ++ " += " ++ call.text ++ ";")]
  | delegate call => [.line ("return " ++ call.text ++ ";")]
  | invoke result function arguments =>
    [.line ((match result with
        | some type => type ++ " retval = "
        | none => "") ++
      function ++ "(" ++ String.intercalate ", " (arguments.map (·.text)) ++ ");")]
  | setField field value => [.line ("set" ++ field.word ++ "_req(request, " ++ value ++ ");")]
  | setLength buffer =>
    [.line ("setLength" ++ buffer.ending ++ "(" ++ buffer.variableName ++ ", offset);")]
  | storeLength counter =>
    [.line ("(void)uint32_t_marshal(buffer, offset, " ++ counter ++ "); /* struct length */")]
  | giveBack value => [.line ("return " ++ value ++ ";")]
  | loop depth bound body => .line (loopHead depth bound) :: Layout.braced body.layout ""
  | dispatch selector cases otherwise =>
    .line ("switch (" ++ selector ++ ")") ::
      Layout.braced
        (cases.flatMap caseSteps ++
          [.line "default:", .indent, .line ("return " ++ otherwise ++ ";"), .dedent]) ""
  | line text => [.line text]

/-- The codec calls of a statement. -/
def calls : Statement → List CodecCall
  | advance _ call => [call]
  | delegate call => [call]
  | loop _ _ body => body.calls
  | _ => []

/-- A nest of loops over dimensions, outermost first, from a depth on, around a statement about the
indexed place. -/
def nest (body : String → Statement) (depth : Nat) (place : String) : List UInt32 → Statement
  | [] => body place
  | n :: ns => loop depth n (nest body (depth + 1) (place ++ "[" ++ indexName depth ++ "]") ns)

end Statement

end WireStub
