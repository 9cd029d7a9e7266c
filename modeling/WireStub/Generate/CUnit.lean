import WireStub.Generate.Declaration
import WireStub.Generate.Stub
import WireStub.Text.UpperCase

/-!
# Units of a module

A module becomes seven C files, its units.

* `CUnit.fileName` and `CUnit.guard` name a unit;
* `Module.importedNames` lists the modules whose units a module includes;
* `CUnit.items` are the items of a unit.
-/

namespace WireStub

/-- A C file of a module. -/
inductive CUnit where
  /-- The C types and the server functions. -/
  | declarations
  | dispatchHeader
  | dispatchSource
  | stubHeader
  | stubSource
  | codecHeader
  | codecSource
  deriving DecidableEq, Repr

namespace CUnit

/-- All units, in the order in which they are emitted. -/
def all : List CUnit :=
  [declarations, dispatchHeader, dispatchSource, stubHeader, stubSource, codecHeader, codecSource]

/-- What is put behind the name of the module. -/
def ending : CUnit → String
  | declarations => ""
  | dispatchHeader | dispatchSource => "_unmarshal"
  | stubHeader | stubSource => "_stub"
  | codecHeader | codecSource => "_type"

/-- Whether a unit is a header. -/
def isHeader : CUnit → Bool
  | declarations | dispatchHeader | stubHeader | codecHeader => true
  | dispatchSource | stubSource | codecSource => false

/-- The file name of a unit. -/
def fileName (u : CUnit) (module : String) : String :=
  module ++ u.ending ++ if u.isHeader then ".h" else ".c"

/-- The include guard of a unit, in capitals. -/
def guard (u : CUnit) (module : String) : String :=
  "__" ++ UpperCase.ofText module ++ UpperCase.ofText u.ending ++ "_H__"

/-- The unit of an imported module that a unit includes. -/
def importedUnit? : CUnit → Option CUnit
  | declarations => some declarations
  | codecHeader | dispatchSource | stubSource => some codecHeader
  | dispatchHeader | stubHeader | codecSource => none

/-- The units of the same module that a unit includes. -/
def siblings : CUnit → List CUnit
  | declarations => []
  | dispatchHeader | stubHeader | codecHeader => [declarations]
  | dispatchSource => [dispatchHeader, codecHeader]
  | stubSource => [stubHeader, codecHeader]
  | codecSource => [codecHeader]

end CUnit

/-- The module that owns the target of a linked reference. -/
def Reference.owner? (r : Reference) : Option String :=
  if r.isLinked then r.target.bind (·.segments.head?) else none

/-- The other modules that the references of a module lead to, in the order of first use. -/
def Module.importedNames (m : Module) : List String :=
  ((m.references.filterMap (·.owner?)).filter (· != m.name)).eraseDups

namespace CUnit

/-- The files of imported modules that a unit includes. -/
def importedFiles (u : CUnit) (m : Module) : List String :=
  match u.importedUnit? with
  | some v => m.importedNames.map v.fileName
  | none => []

/-- The comment at the top of every unit. -/
def banner : List Item :=
  [.line "/////////////////////////////////////////////////////////////////",
   .line "// This file is generated by idl-gen from an interface schema. //",
   .line "// Any modifications to this file will be overwritten.         //",
   .line "/////////////////////////////////////////////////////////////////"]

/-- The units that a unit includes: of its own module, then of imported ones. -/
def unitIncludes (u : CUnit) (m : Module) : List Item :=
  (u.siblings.map fun v => .includeLocal (v.fileName m.name)) ++
    (u.importedFiles m).map .includeLocal

/-- What stands around the content of a unit: banner, guard and includes. -/
def frame (u : CUnit) (o : Options) (m : Module) (content : List Item) : List Item :=
  if u.isHeader then
    banner ++
      [.line ("#ifndef " ++ u.guard m.name), .line ("#define " ++ u.guard m.name), .blank] ++
      o.localIncludes.map .includeLocal ++ o.systemIncludes.map .includeSystem ++
      u.unitIncludes m ++ [.blank] ++ content ++ [.line ("#endif // " ++ u.guard m.name)]
  else banner ++ [.blank] ++ u.unitIncludes m ++ [.blank] ++ content

/-- One prototype per endpoint, under a comment with the name of the interface. -/
def prototypes (m : Module) (f : Endpoint → Except RenderError Prototype) :
    Except RenderError (List Item) := do
  let groups ← m.interfaces.mapM fun i => do
    let ps ← i.endpoints.mapM f
    .ok ([.line ("/* " ++ i.name ++ " */")] ++ ps.map .prototype ++ [.blank])
  .ok groups.flatten

/-- The content of a unit. -/
def content (u : CUnit) (o : Options) (m : Module) : Except RenderError (List Item) :=
  let status := o.statusType m.name
  match u with
  | declarations => do
    let types ← m.declarations.mapM (·.item)
    .ok (types ++ (← prototypes m (·.serverPrototype)))
  | dispatchHeader =>
    .ok [.prototype ⟨true, dispatcherSignature false status "unmarshal", []⟩, .blank]
  | dispatchSource => do
    let table ← DispatchTable.build m
    let handlerPrototypes ← prototypes m fun e => .ok (e.handlerPrototype status)
    let handlers ← m.endpoints.mapM (·.handler o status)
    .ok ([.prototype ⟨false, dispatcherSignature true status getDispatcher, []⟩,
        .prototype ⟨false, dispatcherSignature true status setDispatcher, []⟩, .blank] ++
      handlerPrototypes ++ (dispatchers o status table ++ handlers).map .function)
  | stubHeader => do
    .ok ((m.interfaces.map fun i => .clientStruct i.name) ++
      (← prototypes m (·.stubPrototype o)))
  | stubSource => do .ok ((← m.endpoints.mapM (·.stub o)).map .function)
  | codecHeader => do
    let ps ← m.declarations.mapM (·.codecPrototypes)
    .ok (ps.flatten.map .prototype ++ [.blank])
  | codecSource => do
    let fs ← m.declarations.mapM (·.codecs)
    .ok (fs.flatten.map .function)

/-- The items of a unit. -/
def items (u : CUnit) (o : Options) (m : Module) : Except RenderError (List Item) := do
  .ok (u.frame o m (← u.content o m))

/-- The text of a unit. -/
def render (u : CUnit) (o : Options) (m : Module) : Except RenderError String := do
  .ok (Layout.render o.indentText (Item.layoutAll (← u.items o m)))

end CUnit

/-- A generated file that is not written yet. -/
structure GeneratedFile where
  name : String
  contents : String
  deriving DecidableEq, Repr

/-- All units of a module, in the order in which they are emitted. -/
def Module.render (o : Options) (m : Module) : Except RenderError (List GeneratedFile) :=
  CUnit.all.mapM fun u => do .ok ⟨u.fileName m.name, ← u.render o m⟩

end WireStub
