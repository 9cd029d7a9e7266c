import WireStub.Generate.Dispatch
import WireStub.Import.Schema
import WireStub.Json
import WireStub.Keyed

/-!
# Reports

A report describes the main modules of a schema without generating code: the C types of their
declarations, the roles of their attributes, and the number of their dispatch cases.

* `Report.ofSchema` makes a report; `ReportError` says why there is none;
* `Report.lines` writes a report as lines, and `Report.toJson` as JSON.

Entries have keys, and of two entries with one key the later stands in the place of the earlier.
-/

namespace WireStub

/-- What a report says about a module. -/
structure ModuleReport where
  /-- The C types of the declarations. -/
  declarations : List (String × CType)
  /-- The roles of the operations of attribute interfaces. -/
  attributes : List (String × List Role)
  dispatchCases : Nat
  deriving DecidableEq, Repr

/-- The entries of a report, by the names of the modules. -/
structure Report where
  modules : List (String × ModuleReport)
  deriving DecidableEq, Repr

/-- Why there is no report. -/
inductive ReportError where
  /-- A declaration has no C type. -/
  | declaration (context : String) (fault : RenderError)
  /-- A module has no dispatch table. -/
  | dispatch (module : String) (fault : RenderError)
  deriving DecidableEq, Repr

namespace ReportError

/-- What was being done. -/
def task : ReportError → String
  | declaration context _ => "failed to resolve " ++ context
  | dispatch module _ => "failed to build dispatch table for module " ++ module

/-- Why it failed. -/
def fault : ReportError → RenderError
  | declaration _ e => e
  | dispatch _ e => e

end ReportError

namespace ModuleReport

/-- The entry of a declaration. -/
def declarationEntry (d : Definition) : Except ReportError (String × CType) :=
  match d.cType with
  | .error e => .error (.declaration d.context e)
  | .ok c => .ok (d.path.display, c)

/-- The entries of attributes, by the names of interface and operation. -/
def attributeEntries (m : Module) : List (String × List Role) :=
  (m.interfaces.filter (·.isAttributes)).flatMap fun i =>
    i.operations.map fun o => (i.name ++ "::" ++ o.name, i.rolesOf o)

/-- The report of a module. -/
def ofModule (m : Module) : Except ReportError ModuleReport := do
  let declarations ← m.declarations.mapM declarationEntry
  let table ← (DispatchTable.build m).mapError (.dispatch m.name)
  .ok ⟨Keyed.ofList declarations, Keyed.ofList (attributeEntries m), table.size⟩

end ModuleReport

namespace Role

/-- The word for a role in a text. -/
def label : Role → String
  | plain => "service"
  | getter => "getter"
  | setter => "setter"

/-- The word for a role in JSON. -/
def word : Role → String
  | plain => "none"
  | getter => "getter"
  | setter => "setter"

end Role

namespace ModuleReport

/-- The lines about a module. -/
def lines (name : String) (r : ModuleReport) : List String :=
  ["", "[*] Module: " ++ name, "  Declarations:"] ++
    r.declarations.map (fun (d, c) =>
      "    - " ++ d ++ " -> " ++ c.name ++ " (" ++ (if c.isBase then "base" else "by pointer") ++
        ")") ++
    (if r.attributes.isEmpty then [] else ["  Attributes:"]) ++
    r.attributes.map (fun (a, roles) =>
      "    - " ++ a ++ ": " ++ String.intercalate ", " (roles.map (·.label))) ++
    ["  Dispatch cases: " ++ toString r.dispatchCases]

/-- The JSON value for a module. -/
def toJson (r : ModuleReport) : Json :=
  .record
    [("declarations", .record (r.declarations.map fun (d, c) =>
        (d, .record [("target-name", .text c.name), ("is-base", .bool c.isBase)]))),
     ("attributes", .record (r.attributes.map fun (a, roles) =>
        (a, .list (roles.map fun role => .text role.word)))),
     ("dispatch-cases", .number r.dispatchCases)]

end ModuleReport

namespace Report

/-- The report of a schema: its main modules in order, up to the first fault. -/
def ofSchema (s : Schema) : Except ReportError Report := do
  let entries ← s.mainModules.mapM fun m => do
    .ok (m.module.name, ← ModuleReport.ofModule m.module)
  .ok ⟨Keyed.ofList entries⟩

/-- The lines of a report. -/
def lines (r : Report) : List String :=
  ["IDL Generator - Schema Analysis", "==============================="] ++
    r.modules.flatMap (fun (name, m) => m.lines name) ++ [""]

/-- The JSON value of a report. -/
def toJson (r : Report) : Json := .record (r.modules.map fun (name, m) => (name, m.toJson))

end Report

end WireStub
