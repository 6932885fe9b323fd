import MiniApp.Diagnostic

/-!
# Places that diagnostics name

A diagnostic has a place of its own. Some diagnostics recall another one: where a name was declared
first, where a constant was declared, or where a property was declared first. The last is found in
the message only. A diagnostic points into a text if all these are places of the text.

## Main definitions

* `Position.Among`: the line and the column of a place of a kind
* `Trouble.recalls`, `Trouble.RecallsAmong`: troubles that recall an earlier declaration
* `Diagnostic.PointsInto`: diagnostics that name places of a kind only
-/

namespace MiniApp

/-- A line and a column that are both there, and are those of a place of a kind. -/
def Position.Among (P : Position → Prop) (line column : Option Nat) : Prop :=
  ∃ pos, P pos ∧ line = some pos.line ∧ column = some pos.column

/-- The troubles that recall an earlier declaration. -/
def Trouble.recalls : Trouble → Bool
  | .duplicateDeclaration .. | .constReassignment .. | .duplicateProperty _ => true
  | _ => false

/-- The declaration that a trouble recalls, if it recalls one, stands at a place of a kind. For a
property it is the message that tells the place. -/
def Trouble.RecallsAmong (P : Position → Prop) (message : String) : Trouble → Prop
  | .duplicateDeclaration _ line column | .constReassignment _ line column =>
    Position.Among P line column
  | .duplicateProperty keyword => ∃ name pos, keyword = some name ∧ P pos ∧
      message = "'" ++ name ++ "' is already declared at " ++ toString pos.line ++ ":" ++
        toString pos.column
  | _ => True

/-- A diagnostic that names places of a kind only, and has a place of its own. -/
structure Diagnostic.PointsInto (P : Position → Prop) (d : Diagnostic) : Prop where
  place : Position.Among P d.line d.column
  recalled : d.trouble.RecallsAmong P d.message

variable {P Q : Position → Prop} {pos : Position} {trouble : Trouble} {message : String}

theorem Position.Among.mono {line column : Option Nat} (h : Among P line column)
    (hPQ : ∀ pos, P pos → Q pos) : Among Q line column := by
  obtain ⟨pos, hpos, hline, hcolumn⟩ := h
  exact ⟨pos, hPQ pos hpos, hline, hcolumn⟩

namespace Trouble

theorem recallsAmong_of_recalls (h : trouble.recalls = false) :
    trouble.RecallsAmong P message := by
  cases trouble with
  | duplicateDeclaration _ _ _ | constReassignment _ _ _ | duplicateProperty _ => cases h
  | _ => trivial

theorem RecallsAmong.mono (h : trouble.RecallsAmong P message) (hPQ : ∀ pos, P pos → Q pos) :
    trouble.RecallsAmong Q message := by
  cases trouble with
  | duplicateDeclaration _ line column | constReassignment _ line column =>
    exact Position.Among.mono h hPQ
  | duplicateProperty keyword =>
    obtain ⟨name, pos, hkeyword, hpos, hmessage⟩ := h
    exact ⟨name, pos, hkeyword, hPQ pos hpos, hmessage⟩
  | _ => trivial

end Trouble

namespace Diagnostic.PointsInto

theorem located (hpos : P pos) (h : trouble.RecallsAmong P message) :
    (Diagnostic.located pos trouble message).PointsInto P :=
  ⟨⟨pos, hpos, rfl, rfl⟩, h⟩

/-- A trouble that recalls nothing is at its place and at no other. -/
theorem plain (hpos : P pos) (h : trouble.recalls = false) :
    (Diagnostic.located pos trouble message).PointsInto P :=
  located hpos (Trouble.recallsAmong_of_recalls h)

theorem mono {d : Diagnostic} (h : d.PointsInto P) (hPQ : ∀ pos, P pos → Q pos) :
    d.PointsInto Q :=
  ⟨h.place.mono hPQ, h.recalled.mono hPQ⟩

theorem inFile {d : Diagnostic} (h : d.PointsInto P) (path : String) :
    (d.inFile path).PointsInto P :=
  ⟨h.place, h.recalled⟩

theorem inFileIfUnnamed {d : Diagnostic} (h : d.PointsInto P) (path : String) :
    (d.inFileIfUnnamed path).PointsInto P := by
  rw [Diagnostic.inFileIfUnnamed]
  split
  · exact h.inFile path
  · exact h

end Diagnostic.PointsInto

end MiniApp
