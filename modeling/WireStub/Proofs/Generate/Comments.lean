import WireStub.Proofs.Code.Escaping
import WireStub.Proofs.Generate.Symbols

/-!
# Comments on exceptions

The prototypes of server functions and of stubs list the exceptions of their operations in a comment.
The names of exceptions are free text, and a comment of C ends at the first `*/`, so a name with `*/` in
it would end the comment early and go on as code.  Names are escaped, and no identifier has a star.

* `closeComment?` reads a comment to its end, and `closeComment?_append` finds that end;
* `Prototype.remark` is what the comment of a prototype says, and `Prototype.star_not_mem_remark` what
  usable identifiers keep out of it;
* `CUnit.map_raises` and `CUnit.exists_raises`: the exceptions of a prototype are those of an operation;
* `escaped_names_stay_in_comments` is the main statement.
-/

namespace WireStub

open Identifier

/-- Reads the rest of a comment, up to the first `*/`, and what stands behind it. -/
def closeComment? : List Char → Option (List Char × List Char)
  | [] => none
  | '*' :: '/' :: r => some ([], r)
  | c :: r => (closeComment? r).map fun (text, rest) => (c :: text, rest)

/-- Without a star in it, a comment goes on to the `*/` that stands behind it. -/
theorem closeComment?_append : ∀ {cs : List Char}, '*' ∉ cs → ∀ r : List Char,
    closeComment? (cs ++ '*' :: '/' :: r) = some (cs, r)
  | [], _, r => rfl
  | c :: cs, h, r => by
    obtain ⟨hc, hcs⟩ := not_or.1 (mt List.mem_cons.2 h)
    rw [List.cons_append, closeComment?, closeComment?_append hcs]
    · rfl
    · exact fun _ hstar => absurd hstar.symm hc

namespace Prototype

variable {p : Prototype}

/-- What the comment of a prototype says. -/
def remark (p : Prototype) : String := " raises (" ++ String.intercalate ", " p.raises ++ ") "

/-- The comment stands at the end of the prototype. -/
theorem text_of_raises (h : p.raises ≠ []) :
    p.text = (if p.isExtern then "extern " else "") ++ p.signature.text ++ " /*" ++
      p.remark ++ "*/;" := by
  have hraises : p.raises.isEmpty = false := by simpa using h
  rw [text, hraises, ← String.toList_inj]
  simp [remark]

/-- Usable identifiers bring no star into a comment. -/
theorem star_not_mem_remark (h : ∀ s ∈ p.raises, IsUsable s) : '*' ∉ p.remark.toList := by
  rw [remark, String.toList_append, String.toList_append, String.toList_intercalate, List.mem_append,
    List.mem_append, not_or, not_or]
  refine ⟨⟨by decide, fun hstar => ?_⟩, by decide⟩
  rcases mem_intercalate hstar with hstar | ⟨cs, hcs, hstar⟩
  · exact absurd hstar (by decide)
  · obtain ⟨s, hs, rfl⟩ := List.mem_map.1 hcs
    exact (h s hs).valid.not_mem rfl hstar

theorem closeComment?_remark (h : ∀ s ∈ p.raises, IsUsable s) :
    closeComment? (p.remark ++ "*/;").toList = some (p.remark.toList, [';']) := by
  rw [String.toList_append]
  exact closeComment?_append (star_not_mem_remark h) [';']

end Prototype

namespace CUnit

variable {u : CUnit} {o : Options} {m : Module} {items : List Item}

/-- In the units of declarations and of stubs, the exceptions of all operations are listed. -/
theorem map_raises (hu : u = .declarations ∨ u = .stubHeader) (h : u.items o m = .ok items) :
    (Item.prototypes items).map (·.raises) = m.endpoints.map (·.raises) := by
  rcases hu with rfl | rfl
  · exact map_eq_map_of_mapM (fun _ _ => Endpoint.raises_of_serverPrototype) (prototypes_declarations h)
  · exact map_eq_map_of_mapM (fun _ _ => Endpoint.raises_of_stubPrototype) (prototypes_stubHeader h)

/-- In any unit, the exceptions that a prototype lists are those of an operation. -/
theorem exists_raises (h : u.items o m = .ok items) {p : Prototype} (hp : p ∈ Item.prototypes items)
    (hraises : p.raises ≠ []) : ∃ e ∈ m.endpoints, p.raises = e.raises := by
  cases origin_of_mem h hp with
  | server he hproto => exact ⟨_, he, Endpoint.raises_of_serverPrototype hproto⟩
  | stub he hproto => exact ⟨_, he, Endpoint.raises_of_stubPrototype hproto⟩
  | codec | dispatcher | handler => exact absurd rfl hraises

end CUnit

/-- **Escaped names are free identifiers and stay in comments.**  Whatever the text, escaping makes an
identifier of C that is not reserved; it leaves a text as it is exactly if it is such an identifier
already, so escaping again changes nothing.  The same holds for qualified names.  The prototypes of server
functions and of stubs list the escaped names of all exceptions of their operations, and wherever a
prototype lists exceptions, these are the escaped names of those of an operation, in a comment at its end.
Read as C, that comment goes on to the end of the list: only the semicolon stands behind it. -/
theorem escaped_names_stay_in_comments :
    MakesUsable escape ∧ MakesUsable escapeQualified ∧
      ∀ (u : CUnit) (o : Options) (m : Module) (items : List Item), u.items o m = .ok items →
        (u = .declarations ∨ u = .stubHeader → (Item.prototypes items).map (·.raises) =
          m.endpoints.map fun e => e.operation.raises.map escapeQualified) ∧
        ∀ p ∈ Item.prototypes items, p.raises ≠ [] →
          (∃ e ∈ m.endpoints, p.raises = e.operation.raises.map escapeQualified) ∧
          p.text = (if p.isExtern then "extern " else "") ++ p.signature.text ++ " /*" ++
            p.remark ++ "*/;" ∧
          closeComment? (p.remark ++ "*/;").toList = some (p.remark.toList, [';']) := by
  refine ⟨makesUsable_escape, makesUsable_escapeQualified, fun u o m items h =>
    ⟨fun hu => CUnit.map_raises hu h, fun p hp hraises => ?_⟩⟩
  obtain ⟨e, he, hnames⟩ := CUnit.exists_raises h hp hraises
  have husable : ∀ s ∈ p.raises, IsUsable s := by
    intro s hs
    rw [hnames] at hs
    obtain ⟨name, -, rfl⟩ := List.mem_map.1 hs
    exact makesUsable_escapeQualified.usable name
  exact ⟨⟨e, he, hnames⟩, Prototype.text_of_raises hraises, Prototype.closeComment?_remark husable⟩

/-- A module whose operation has an exception with the end of a comment in its name, one with a path and
one with a reserved word for a name. -/
def furnaceModule : Module :=
  let ignite : Operation := ⟨"ignite", .void, [], ["Jam*/ now", "Plant::Overheated", "default"]⟩
  ⟨"Furnace", [], [⟨"Control", ⟨["Furnace", "Control"]⟩, [ignite]⟩]⟩

theorem escaped_names_stay_in_comments_furnace :
    ∃ items p, CUnit.declarations.items {} furnaceModule = .ok items ∧ p ∈ Item.prototypes items ∧
      p.raises = ["Jam___now", "Plant_Overheated", "default_"] ∧
      p.text = "void ignite(void) /*" ++ p.remark ++ "*/;" ∧
      closeComment? (p.remark ++ "*/;").toList =
        some (" raises (Jam___now, Plant_Overheated, default_) ".toList, [';']) := by
  obtain ⟨-, -, hcomments⟩ := escaped_names_stay_in_comments
  have hitems : CUnit.declarations.items {} furnaceModule = .ok _ := rfl
  obtain ⟨-, htext, hclose⟩ := (hcomments .declarations {} furnaceModule _ hitems).2
    ⟨false, ⟨false, "void", "ignite", []⟩, ["Jam___now", "Plant_Overheated", "default_"]⟩
    (by decide) (by decide)
  exact ⟨_, _, hitems, by decide, rfl, htext, hclose⟩

end WireStub
