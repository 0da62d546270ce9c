import TypedSheets.Naming
import TypedSheets.Schema.Shape

/-!
# Record declarations

What a record says about itself before anything is checked.

* `ConverterDecl`, `MemberDecl`, `RecordDecl`
-/

namespace TypedSheets

/-- A converter as declared: its path and its two types. -/
structure ConverterDecl where
  path : String
  input : TypeShape
  output : TypeShape
  deriving DecidableEq

/-- A member as declared. -/
structure MemberDecl where
  name : String
  type : TypeShape
  /-- The member carries the data marker; others are kept out of sheets. -/
  isData : Bool
  isId : Bool
  isMutable : Bool
  isVertical : Bool
  converter : Option ConverterDecl
  deriving DecidableEq

/-- A data member without any option. -/
def MemberDecl.data (name : String) (type : TypeShape) : MemberDecl :=
  ⟨name, type, true, false, false, false, none⟩

/-- A member without the data marker. -/
def MemberDecl.ignored (name : String) (type : TypeShape) : MemberDecl :=
  { MemberDecl.data name type with isData := false }

/-- A record as declared, with its members in order. -/
structure RecordDecl where
  name : String
  members : List MemberDecl
  /-- Why generated members cannot be attached to the type, if they cannot. -/
  closedReason : Option String
  isTable : Bool
  naming : Option Naming
  isMutable : Bool
  userImpls : List String
  deriving DecidableEq

/-- A record of that name that says nothing yet. -/
def RecordDecl.named (name : String) : RecordDecl :=
  ⟨name, [], none, false, none, false, []⟩

/-- The members that carry the data marker. -/
def RecordDecl.dataMembers (d : RecordDecl) : List MemberDecl :=
  d.members.filter MemberDecl.isData

end TypedSheets
