import TypedSheets.Cell.Print
import TypedSheets.Cell.Read
import TypedSheets.Cell.Shape
import TypedSheets.Property.Lens

/-!
# The property tree of a record type

* `Members.nodes` — the nodes of the members of a record that is part of a row
* `RecordType.properties` — the tree of a record type
-/

namespace TypedSheets

mutual

/-- The node of a member that is part of a row; a member without a column has none. -/
def MemberType.nodes {ρ : Type} (d : RecordDecl) (info : MemberInfo) :
    (t : MemberType) → Lens ρ t.El → List (PropertyNode ρ)
  | .cell t, l =>
    [.leaf (d.field (MemberType.decl info (.cell t))) (fun row => t.print .pascal (l.get row))
      (fun row v => (t.read .pascal v).map (l.set row))]
  | .rows form head ms via, l =>
    [.vertical (d.field (MemberType.decl info (.rows form head ms via))) (Lens.elements form l)
      (ms.nodes (head.decl ms) Lens.whole)]
  | .converted c, l =>
    [.leaf (d.field (MemberType.decl info (.converted c))) (fun row => c.print (l.get row))
      (fun row v => (c.read v).map (l.set row))]
  | .ignored _, _ => []

/-- The nodes of members that are part of a row. -/
def Members.nodes {ρ : Type} (d : RecordDecl) : (ms : Members) → Lens ρ ms.El →
    List (PropertyNode ρ)
  | .nil, _ => []
  | .cons info t rest, l => t.nodes d info (Lens.first l) ++ rest.nodes d (Lens.second l)

end

/-- The property tree of a record type. -/
def RecordType.properties (r : RecordType) : PropertyNode r.Row :=
  .root r.name (r.members.nodes r.decl Lens.whole)

end TypedSheets
