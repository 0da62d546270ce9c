import TypedSheets.Schema.Declaration
import TypedSheets.Schema.Kind
import TypedSheets.Schema.Meaning

/-!
# Field descriptors and record schemas

The canonical description of a record: one descriptor per data member, with a tree of descriptors
for the keys and elements of its collections.

* `FieldDescriptor` — a member; `mayHoldReferences` is false only for primitives all the way down
* `FieldDescriptor.describe` — the descriptor of a type
* `RecordSchema` — a record
-/

namespace TypedSheets

/-- A converter with its types as texts. -/
structure ConverterSpec where
  path : String
  input : String
  output : String
  deriving DecidableEq

/-- The description of one data member. -/
inductive FieldDescriptor where
  | mk (declaredName propertyName declaredType : String) (semantic : SemanticType)
      (kind : CollectionKind) (wireName : String) (isMutable isId isVertical : Bool)
      (memberKind : MemberKind) (converter : Option ConverterSpec)
      (key element : Option FieldDescriptor)

namespace FieldDescriptor

/-- The name of the member as declared. -/
def declaredName : FieldDescriptor → String
  | mk n _ _ _ _ _ _ _ _ _ _ _ _ => n

/-- The logical name of the member. -/
def propertyName : FieldDescriptor → String
  | mk _ n _ _ _ _ _ _ _ _ _ _ _ => n

/-- The declared type, as text. -/
def declaredType : FieldDescriptor → String
  | mk _ _ t _ _ _ _ _ _ _ _ _ _ => t

/-- What the values mean; for collections, what the elements mean. -/
def semantic : FieldDescriptor → SemanticType
  | mk _ _ _ s _ _ _ _ _ _ _ _ _ => s

/-- How the values are collected. -/
def kind : FieldDescriptor → CollectionKind
  | mk _ _ _ _ k _ _ _ _ _ _ _ _ => k

/-- The name of the column under the record's own naming. -/
def wireName : FieldDescriptor → String
  | mk _ _ _ _ _ w _ _ _ _ _ _ _ => w

/-- Whether the member may be replaced. -/
def isMutable : FieldDescriptor → Bool
  | mk _ _ _ _ _ _ m _ _ _ _ _ _ => m

/-- Whether the member is the id of the record. -/
def isId : FieldDescriptor → Bool
  | mk _ _ _ _ _ _ _ i _ _ _ _ _ => i

/-- Whether the member is a list of rows that continues below the record. -/
def isVertical : FieldDescriptor → Bool
  | mk _ _ _ _ _ _ _ _ v _ _ _ _ => v

/-- Field or property. -/
def memberKind : FieldDescriptor → MemberKind
  | mk _ _ _ _ _ _ _ _ _ k _ _ _ => k

/-- The converter of the member. -/
def converter : FieldDescriptor → Option ConverterSpec
  | mk _ _ _ _ _ _ _ _ _ _ c _ _ => c

/-- The descriptor of the keys of a map. -/
def key : FieldDescriptor → Option FieldDescriptor
  | mk _ _ _ _ _ _ _ _ _ _ _ k _ => k

/-- The descriptor of the elements of a collection. -/
def element : FieldDescriptor → Option FieldDescriptor
  | mk _ _ _ _ _ _ _ _ _ _ _ _ e => e

/-- The descriptor with another meaning. -/
def withSemantic (s : SemanticType) : FieldDescriptor → FieldDescriptor
  | mk n p t _ k w m i v mk' c key element => mk n p t s k w m i v mk' c key element

mutual

/-- False only for members that hold primitives all the way down. -/
def mayHoldReferences : FieldDescriptor → Bool
  | mk _ _ _ s _ _ _ _ _ _ _ key element =>
    !s.isPrimitive || anyHoldsReferences key || anyHoldsReferences element

/-- Whether there is a descriptor and it may hold references. -/
def anyHoldsReferences : Option FieldDescriptor → Bool
  | none => false
  | some d => d.mayHoldReferences

end

/-- The name of the column under a naming. -/
def wireNameFor (d : FieldDescriptor) (n : Naming) : String := n.wireName d.declaredName

/-- The descriptor of a type, with the descriptors of its keys and elements. A collection means
what its elements mean. -/
def describe (name : String) (naming : Naming) (s : TypeShape) : FieldDescriptor :=
  let kind := CollectionKind.of s
  let key :=
    match _h : (kind.elementShapes s).1 with
    | some k => some (describe name naming k)
    | none => none
  let element :=
    match _h : (kind.elementShapes s).2 with
    | some e => some (describe name naming e)
    | none => none
  let semantic :=
    match element with
    | some e => e.semantic
    | none => SemanticType.of s
  .mk name (TypedSheets.propertyName name) s.text semantic kind (naming.wireName name)
    false false false (MemberKind.of name) none key element
termination_by sizeOf s
decreasing_by
  · exact CollectionKind.sizeOf_lt_of_elementShapes (Or.inl _h)
  · exact CollectionKind.sizeOf_lt_of_elementShapes (Or.inr _h)

end FieldDescriptor

/-- A vertical member: the record type of its rows and the name of its property. -/
structure VerticalRelation where
  targetType : String
  property : String
  deriving DecidableEq

/-- The description of a record. -/
structure RecordSchema where
  name : String
  fields : List FieldDescriptor
  /-- The record's own naming; without one it takes that of the container. -/
  naming : Option Naming
  isMutable : Bool
  isTable : Bool
  /-- The declared name of the id member. -/
  idField : Option String
  vertical : List VerticalRelation
  closedReason : Option String
  userImpls : List String
  /-- The declared members without the data marker. -/
  ignored : List String

namespace RecordSchema

/-- The member of that declared name. -/
def field? (s : RecordSchema) (declared : String) : Option FieldDescriptor :=
  s.fields.find? (fun f => f.declaredName == declared)

/-- The naming in force where another is inherited. -/
def effectiveNaming (s : RecordSchema) (inherited : Naming) : Naming := s.naming.getD inherited

/-- The member of that column where a naming is inherited. -/
def fieldByWireName? (s : RecordSchema) (wire : String) (inherited : Naming) :
    Option FieldDescriptor :=
  s.fields.find? (fun f => f.wireNameFor (s.effectiveNaming inherited) == wire)

/-- The id member. -/
def id? (s : RecordSchema) : Option FieldDescriptor := s.idField.bind s.field?

/-- Whether a member of that name is written by hand. -/
def isUserImplemented (s : RecordSchema) (member : String) : Bool := s.userImpls.contains member

end RecordSchema

end TypedSheets
