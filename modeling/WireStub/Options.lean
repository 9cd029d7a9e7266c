import WireStub.Code.Identifier
import WireStub.Tree

/-!
# Generator options

The names and the layout that generated C code uses.  Every option has a default, so a
configuration names only what it changes.

* `Options.read?` reads a configuration from a document tree;
* `Options.statusType` is the status type of the handlers of a module.
-/

namespace WireStub

/-- Options of the generator. -/
structure Options where
  /-- Spaces per level of indentation. -/
  indent : Nat := 2
  /-- Headers included in quotes. -/
  localIncludes : List String := ["message-buffer.h"]
  /-- Headers included in angle brackets, behind the local ones. -/
  systemIncludes : List String := ["stdint.h", "stdbool.h", "stddef.h"]
  /-- The status type that handlers return.  An unqualified name belongs to the module. -/
  errorType : String := "ErrorCode"
  /-- The status of an operation that returns nothing. -/
  successStatus : String := "e_EC_SUCCESS"
  /-- The status for a request with an unknown service code. -/
  invalidServiceCode : String := "e_EC_INVALID_SERVICE_CODE"
  /-- The status for a request with an unknown attribute code. -/
  invalidAttributeCode : String := "e_EC_INVALID_ATTRIBUTE_CODE"
  /-- The function by which a stub sends a request and waits for the response. -/
  transport : String := "SendMessage"
  /-- Stubs take the number of the instance as their first argument. -/
  stubInstanceArgument : Bool := false
  deriving DecidableEq, Repr

namespace Options

/-- The keys of a configuration. -/
def keys : List String :=
  ["indent", "local-includes", "system-includes", "error-type", "success-status",
   "invalid-service-code", "invalid-attribute-code", "transport-fn", "stub-instance-argument"]

/-- Indentations that can be configured: numbers of 64 bits. -/
def maxIndent : Nat := 18446744073709551615

/-- Reads a configuration. -/
def read? (t : Tree) : Option Options := do
  let fs ← t.fields? keys
  let dflt : Options := {}
  some {
    indent := ← Tree.optional fs "indent" dflt.indent (Tree.unsigned? maxIndent)
    localIncludes :=
      ← Tree.optional fs "local-includes" dflt.localIncludes (Tree.list? Tree.text?)
    systemIncludes :=
      ← Tree.optional fs "system-includes" dflt.systemIncludes (Tree.list? Tree.text?)
    errorType := ← Tree.optional fs "error-type" dflt.errorType Tree.text?
    successStatus := ← Tree.optional fs "success-status" dflt.successStatus Tree.text?
    invalidServiceCode :=
      ← Tree.optional fs "invalid-service-code" dflt.invalidServiceCode Tree.text?
    invalidAttributeCode :=
      ← Tree.optional fs "invalid-attribute-code" dflt.invalidAttributeCode Tree.text?
    transport := ← Tree.optional fs "transport-fn" dflt.transport Tree.text?
    stubInstanceArgument :=
      ← Tree.optional fs "stub-instance-argument" dflt.stubInstanceArgument Tree.bool? }

/-- The C name of the status type in a module: a qualified one stands for itself. -/
def statusType (o : Options) (moduleName : String) : String :=
  Identifier.ofScopedName
    (if ScopedName.isQualified o.errorType then ScopedName.parse o.errorType
     else (ScopedName.root.child moduleName).child o.errorType)

/-- The text of one level of indentation. -/
def indentText (o : Options) : String := String.ofList (List.replicate o.indent ' ')

end Options

end WireStub
