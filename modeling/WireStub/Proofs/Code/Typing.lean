import WireStub.Code.Item

/-!
# Types of generated expressions

A codec call passes a place in memory, and the place has a C type: that of a variable, of a struct
field, of an array element.  The typing rules here are those of C for the expressions that generated
code writes.

* `ExprType` is the type of an expression, and `Place` an expression that stands for a place;
* `Scope` holds what a statement can use, and `Place.HasType` types a place in a scope;
* `Argument.HasType` types an argument, with the address or the contents of its place;
* `Scope.calls` lists the codec calls of a body, each with the scope in which it stands.
-/

namespace WireStub

/-- The type of a C expression. -/
inductive ExprType where
  | named (name : String)
  | pointer (target : ExprType)
  | array (size : UInt32) (element : ExprType)
  deriving DecidableEq, Repr

/-- The type of what a declarator declares: an array for each dimension, outermost first. -/
def Declarator.exprType (d : Declarator) : ExprType := d.dims.foldr .array (.named d.type.name)

/-- The type of a parameter. -/
def CParameter.exprType (p : CParameter) : ExprType :=
  if p.isPointer then .pointer (.named p.type) else .named p.type

/-- An expression that stands for a place in memory. -/
inductive Place where
  /-- A variable. -/
  | name (n : String)
  /-- A field of the struct that a pointer leads to. -/
  | field (pointer : Place) (name : String)
  /-- An element of an array. -/
  | element (array : Place) (index : String)
  /-- What a pointer leads to. -/
  | contents (pointer : Place)
  deriving DecidableEq, Repr

/-- The text of a place. -/
def Place.text : Place → String
  | name n => n
  | field pointer f => pointer.text ++ "->" ++ f
  | element array index => array.text ++ "[" ++ index ++ "]"
  | contents pointer => "(*" ++ pointer.text ++ ")"

/-- What a statement can use. -/
structure Scope where
  /-- The types that are declared. -/
  types : List Item
  bindings : List (String × ExprType)
  /-- The index variables of the loops around the statement, each with its bound. -/
  indices : List (String × UInt32)

/-- A name for a type may be replaced by what it stands for, behind a pointer too. -/
inductive ExprType.Unalias (types : List Item) : ExprType → ExprType → Prop
  | name {n : String} {d : Declarator} (h : Item.aliasType n d ∈ types) :
      Unalias types (.named n) d.exprType
  | pointer {τ σ : ExprType} (h : Unalias types τ σ) : Unalias types (.pointer τ) (.pointer σ)

/-- A place has a type in a scope.  The index of an array runs below the size of the array. -/
inductive Place.HasType (Γ : Scope) : Place → ExprType → Prop
  | name {n : String} {τ : ExprType} (h : (n, τ) ∈ Γ.bindings) : HasType Γ (.name n) τ
  | field {p : Place} {s : String} {fields : List Field} {f : Field}
      (hp : HasType Γ p (.pointer (.named s))) (hs : Item.structType s fields ∈ Γ.types)
      (hf : f ∈ fields) : HasType Γ (.field p f.name) f.declarator.exprType
  | element {p : Place} {n : UInt32} {τ : ExprType} {i : String} (hp : HasType Γ p (.array n τ))
      (hi : (i, n) ∈ Γ.indices) : HasType Γ (.element p i) τ
  | contents {p : Place} {τ : ExprType} (hp : HasType Γ p (.pointer τ)) : HasType Γ (.contents p) τ
  | unalias {p : Place} {τ σ : ExprType} (hp : HasType Γ p τ) (h : τ.Unalias Γ.types σ) :
      HasType Γ p σ

/-- An access to a place of type `τ` is an expression of type `σ`. -/
def Access.Gives : Access → ExprType → ExprType → Prop
  | .itself, τ, σ => σ = τ
  | .address, τ, σ => σ = .pointer τ
  | .contents, τ, σ => τ = .pointer σ

/-- An argument has a type in a scope. -/
def Argument.HasType (Γ : Scope) (a : Argument) (σ : ExprType) : Prop :=
  ∃ (p : Place) (τ : ExprType), p.text = a.place ∧ p.HasType Γ τ ∧ a.access.Gives τ σ

/-- A codec call passes what the codec of a type takes. -/
def CodecCall.Passes (Γ : Scope) (c : CType) (call : CodecCall) : Prop :=
  call.argument.HasType Γ (call.half.valueParameter c).exprType

namespace Scope

/-- The scope behind a statement. -/
def behind (Γ : Scope) : Statement → Scope
  | .declare type name => { Γ with bindings := (name, .named type) :: Γ.bindings }
  | .startCounter counter _ => { Γ with bindings := (counter, .named "uint32_t") :: Γ.bindings }
  | .startOffset true _ => { Γ with bindings := ("offset", .named "uint32_t") :: Γ.bindings }
  | _ => Γ

/-- The scope inside a loop. -/
def inside (Γ : Scope) (depth : Nat) (bound : UInt32) : Scope :=
  { Γ with indices := (Statement.indexName depth, bound) :: Γ.indices }

/-- The codec calls of a statement, each with its scope. -/
def callsOf (Γ : Scope) : Statement → List (Scope × CodecCall)
  | .advance _ call => [(Γ, call)]
  | .delegate call => [(Γ, call)]
  | .loop depth bound body => (Γ.inside depth bound).callsOf body
  | _ => []

/-- The codec calls of a body, each with its scope. -/
def calls (Γ : Scope) : List Statement → List (Scope × CodecCall)
  | [] => []
  | s :: ss => Γ.callsOf s ++ (Γ.behind s).calls ss

end Scope

/-- The scope in which the body of a function starts. -/
def Function.scope (types : List Item) (f : Function) : Scope :=
  ⟨types, f.signature.parameters.map fun p => (p.name, p.exprType), []⟩

namespace Scope

variable {Γ Δ : Scope}

/-- A scope holds at least what another one holds. -/
structure Holds (Γ Δ : Scope) : Prop where
  types : Γ.types ⊆ Δ.types
  bindings : Γ.bindings ⊆ Δ.bindings
  indices : Γ.indices ⊆ Δ.indices

theorem Holds.refl (Γ : Scope) : Γ.Holds Γ := ⟨fun _ h => h, fun _ h => h, fun _ h => h⟩

theorem Holds.trans {Θ : Scope} (h : Γ.Holds Δ) (h' : Δ.Holds Θ) : Γ.Holds Θ :=
  ⟨fun _ hx => h'.types (h.types hx), fun _ hx => h'.bindings (h.bindings hx),
    fun _ hx => h'.indices (h.indices hx)⟩

end Scope

theorem Place.HasType.mono {Γ Δ : Scope} (h : Γ.Holds Δ) {p : Place} {τ : ExprType}
    (hp : p.HasType Γ τ) : p.HasType Δ τ := by
  have hunalias {τ σ : ExprType} (hτ : τ.Unalias Γ.types σ) : τ.Unalias Δ.types σ := by
    induction hτ with
    | name hmem => exact .name (h.types hmem)
    | pointer _ ih => exact .pointer ih
  induction hp with
  | name hmem => exact .name (h.bindings hmem)
  | field _ hs hf ih => exact .field ih (h.types hs) hf
  | element _ hi ih => exact .element ih (h.indices hi)
  | contents _ ih => exact .contents ih
  | unalias _ hτ ih => exact .unalias ih (hunalias hτ)

theorem CodecCall.Passes.mono {Γ Δ : Scope} (h : Γ.Holds Δ) {c : CType} {call : CodecCall}
    (hcall : call.Passes Γ c) : call.Passes Δ c := by
  obtain ⟨p, τ, htext, hp, hgives⟩ := hcall
  exact ⟨p, τ, htext, hp.mono h, hgives⟩

end WireStub
