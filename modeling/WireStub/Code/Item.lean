import WireStub.Code.Statement

/-!
# Items of a file

A generated file is a list of items: includes, types, prototypes, functions and single lines.

* `Item.layout` lays out an item;
* `Item.prototypes`, `Item.functions` and `Item.includes` are the views of a file that other files
  depend on.
-/

namespace WireStub

/-- A field of a C struct. -/
structure Field where
  name : String
  declarator : Declarator
  deriving DecidableEq, Repr

/-- A function with its body. -/
structure Function where
  signature : Signature
  body : List Statement

/-- The layout of a function and the blank line behind it. -/
def Function.layout (f : Function) : List Layout.Step :=
  .line f.signature.text :: Layout.braced (f.body.flatMap Statement.layout) "" ++ [.blank]

/-- An item of a generated file. -/
inductive Item where
  | line (text : String)
  | blank
  /-- Includes a file in quotes. -/
  | includeLocal (file : String)
  /-- Includes a file in angle brackets. -/
  | includeSystem (file : String)
  | prototype (p : Prototype)
  /-- A function and a blank line. -/
  | function (f : Function)
  /-- A struct type and a blank line. -/
  | structType (name : String) (fields : List Field)
  /-- An enum type and a blank line. -/
  | enumType (name : String) (enumerators : List String)
  /-- A name for a type with dimensions, and a blank line. -/
  | aliasType (name : String) (declarator : Declarator)
  /-- The struct that stands for a client of an interface, and a blank line. -/
  | clientStruct (interface : String)

namespace Item

/-- The layout of an item. -/
def layout : Item → List Layout.Step
  | line text => [.line text]
  | blank => [.blank]
  | includeLocal file => [.line ("#include \"" ++ file ++ "\"")]
  | includeSystem file => [.line ("#include <" ++ file ++ ">")]
  | prototype p => [.line p.text]
  | function f => f.layout
  | structType name fields =>
    .line "typedef struct" ::
      Layout.braced (fields.map fun f => .line (f.declarator.text f.name ++ ";"))
        (" " ++ name ++ ";") ++ [.blank]
  | enumType name enumerators =>
    .line "typedef enum" ::
      Layout.braced [.line (String.intercalate ", " enumerators)] (" " ++ name ++ ";") ++ [.blank]
  | aliasType name declarator => [.line ("typedef " ++ declarator.text name ++ ";"), .blank]
  | clientStruct interface =>
    .line ("struct " ++ interface ++ "_stub") ::
      Layout.braced [.line "uint16_t instanceNum;"] ";" ++ [.blank]

/-- The layout of items that follow each other. -/
def layoutAll (items : List Item) : List Layout.Step := items.flatMap layout

/-- The prototypes among items. -/
def prototypes (items : List Item) : List Prototype :=
  items.filterMap fun i => match i with
    | prototype p => some p
    | _ => none

/-- The functions among items. -/
def functions (items : List Item) : List Function :=
  items.filterMap fun i => match i with
    | function f => some f
    | _ => none

/-- The files that items include in quotes. -/
def includes (items : List Item) : List String :=
  items.filterMap fun i => match i with
    | includeLocal file => some file
    | _ => none

end Item

end WireStub
