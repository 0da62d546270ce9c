import TypedSheets.Schema.Error
import TypedSheets.Schema.Field

/-!
# Generated members

What a record gains from its schema: a getter for each member, a setter for each one that may be
replaced, and for table records the way to the id. Members that the record writes by hand are left
out.

* `Marshaling` — how an accessor moves a value
* `Accessor`, `IdExtractor`, `GeneratedMembers`
* `RecordSchema.generate`
-/

namespace TypedSheets

/-- How an accessor moves a value in and out of the record. -/
inductive Marshaling where
  /-- The getter gives a copy. -/
  | copy
  /-- The getter lends the value, the setter takes one. -/
  | borrow
  /-- The getter lends the value, the setter collects items. -/
  | copyIn
  /-- The getter gives a shared view, the setter takes one. -/
  | share
  deriving DecidableEq, Repr

/-- The name of a way of moving values. -/
def Marshaling.name : Marshaling → String
  | .copy => "Copy"
  | .borrow => "Borrow"
  | .copyIn => "CopyIn"
  | .share => "Share"

/-- The accessor of a member. -/
structure Accessor where
  field : String
  property : String
  getter : String
  setter : Option String
  marshaling : Marshaling
  type : String
  /-- What a collecting setter takes. -/
  item : Option String
  deriving DecidableEq

/-- The way to the id of a table record. -/
structure IdExtractor where
  field : String
  idType : String
  deriving DecidableEq

/-- The members that a record gains. -/
structure GeneratedMembers where
  record : String
  accessors : List Accessor
  idExtractor : Option IdExtractor
  /-- Members left out because the record writes them by hand. -/
  skipped : List String
  deriving DecidableEq

/-- The name of the method that gives the id. -/
def getIdName : String := "get_id"

namespace FieldDescriptor

/-- How the accessor of a member moves its value. -/
def marshaling (f : FieldDescriptor) : Marshaling :=
  if f.converter.isSome then .borrow
  else
    match f.kind with
    | .scalar => if f.semantic.isCopy then .copy else .borrow
    | .array | .readOnlySpanView | .spanView => .borrow
    | .list | .dictionary | .set | .queue | .stack | .memoryView => .copyIn
    | .readOnlyMemoryView | .readOnlyList | .readOnlyDictionary => .share

/-- What a collecting setter of the member takes. -/
def itemType? (f : FieldDescriptor) : Option String :=
  match f.element, f.key with
  | none, _ => none
  | some element, some key =>
    some ("(" ++ key.declaredType ++ ", " ++ element.declaredType ++ ")")
  | some element, none => some element.declaredType

end FieldDescriptor

namespace RecordSchema

/-- The accessor of a member and the hand-written ones left out for it. A hand-written getter
leaves out the whole accessor. -/
def accessor (s : RecordSchema) (f : FieldDescriptor) : Option Accessor × List String :=
  let getter := getterName f.declaredName
  if s.isUserImplemented getter then (none, [getter])
  else
    let setterName := setterName f.declaredName
    let isMutable := f.isMutable || s.isMutable
    let byHand := s.isUserImplemented setterName
    let m := f.marshaling
    (some
      { field := f.declaredName
        property := f.propertyName
        getter := getter
        setter := if isMutable && !byHand then some setterName else none
        marshaling := m
        type := f.declaredType
        item := if m = .copyIn then f.itemType? else none },
      if isMutable && byHand then [setterName] else [])

/-- The way to the id, and the name left out if it is written by hand. -/
def idExtractor (s : RecordSchema) : Except SchemaError (Option IdExtractor × List String) :=
  if !s.isTable then .ok (none, [])
  else if s.isUserImplemented getIdName then .ok (none, [getIdName])
  else
    match s.id? with
    | some id => .ok (some ⟨id.declaredName, id.declaredType⟩, [])
    | none => .error (.missingIdMember s.name)

/-- The members that a record of this schema gains. -/
def generate (s : RecordSchema) : Except SchemaError GeneratedMembers :=
  match s.closedReason with
  | some reason => .error (.notOpenForExtension s.name reason)
  | none =>
    let made := s.fields.map s.accessor
    match s.idExtractor with
    | .error fault => .error fault
    | .ok (idExtractor, skipped) =>
      .ok
        { record := s.name
          accessors := made.filterMap Prod.fst
          idExtractor := idExtractor
          skipped := made.flatMap Prod.snd ++ skipped }

end RecordSchema

end TypedSheets
