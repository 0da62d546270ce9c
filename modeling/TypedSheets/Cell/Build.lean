import TypedSheets.Cell.Type

/-!
# Building record types

* `Members.ofList` — members from a list
* `dataMember`, `idMember`, `rowsMember`, `convertedMember`, `ignoredMember` — single members
* `RecordType.plain`, `RecordType.table` — record types that say nothing more
-/

namespace TypedSheets

/-- The members of a list. -/
def Members.ofList : List (MemberInfo × MemberType) → Members
  | [] => .nil
  | (info, t) :: rest => .cons info t (ofList rest)

/-- A member without options. -/
def dataMember (name : String) (t : CellType) : MemberInfo × MemberType :=
  (⟨name, false, false⟩, .cell t)

/-- The member that is the id. -/
def idMember (name : String) (t : CellType) : MemberInfo × MemberType :=
  (⟨name, true, false⟩, .cell t)

/-- A vertical member. -/
def rowsMember (name : String) (form : RowsForm) (r : RecordType) : MemberInfo × MemberType :=
  (⟨name, false, false⟩, .rows form r.head r.members none)

/-- A member with a converter. -/
def convertedMember (name : String) (c : Converter) : MemberInfo × MemberType :=
  (⟨name, false, false⟩, .converted c)

/-- A member that no column shows. -/
def ignoredMember (name : String) (d : DataType) : MemberInfo × MemberType :=
  (⟨name, false, false⟩, .ignored d)

/-- A record type that backs no table. -/
def RecordType.plain (name : String) (members : List (MemberInfo × MemberType)) : RecordType :=
  ⟨⟨name, none, false, false, []⟩, Members.ofList members⟩

/-- A record type that backs tables. -/
def RecordType.table (name : String) (members : List (MemberInfo × MemberType)) : RecordType :=
  ⟨⟨name, none, false, true, []⟩, Members.ofList members⟩

namespace CellType

/-- The cell type of integers of a kind. -/
abbrev int (k : IntKind) : CellType := .scalar (.int k)

/-- The cell type of texts. -/
abbrev text : CellType := .scalar .text

/-- The cell type of truth values. -/
abbrev bool : CellType := .scalar .bool

/-- The cell type of numbers of 32 bits. -/
abbrev single : CellType := .scalar .single

/-- The cell type of numbers of 64 bits. -/
abbrev double : CellType := .scalar .double

/-- The cell type of lists. -/
abbrev list (t : CellType) : CellType := .sequence .list t

end CellType

end TypedSheets
