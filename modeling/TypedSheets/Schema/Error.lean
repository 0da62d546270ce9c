/-!
# Why a declaration gives no record

* `SchemaError` — the causes
* `SchemaError.name`, `SchemaError.message` — the names of their kinds, and their wording
* `SchemaError.record`, `SchemaError.member?` — where they lie
-/

namespace TypedSheets

/-- Why a declaration gives no schema or no generated members. -/
inductive SchemaError where
  /-- Two members have one property name. -/
  | ambiguousAccessor (record property first second : String)
  /-- A converter does not fit its member, or does not read a primitive. -/
  | invalidConverter (record member converter expected found : String)
  /-- Generated members cannot be attached to the type. -/
  | notOpenForExtension (record reason : String)
  /-- A table record has no id. -/
  | missingIdMember (record : String)
  /-- Two members are marked as id. -/
  | multipleIdMembers (record first second : String)
  /-- A vertical member is no sequence of records. -/
  | invalidVerticalList (record member found : String)
  deriving DecidableEq

namespace SchemaError

/-- The name of the kind of an error. -/
def name : SchemaError → String
  | .ambiguousAccessor .. => "AmbiguousAccessor"
  | .invalidConverter .. => "InvalidConverter"
  | .notOpenForExtension .. => "NotOpenForExtension"
  | .missingIdMember .. => "MissingIdMember"
  | .multipleIdMembers .. => "MultipleIdMembers"
  | .invalidVerticalList .. => "InvalidVerticalList"

/-- The wording of an error. -/
def message : SchemaError → String
  | .ambiguousAccessor record property first second =>
    "record `" ++ record ++ "`: members `" ++ first ++ "` and `" ++ second ++
      "` both claim the accessor `" ++ property ++ "`"
  | .invalidConverter record member converter expected found =>
    "record `" ++ record ++ "`: converter `" ++ converter ++ "` on member `" ++ member ++
      "` expects " ++ expected ++ ", found " ++ found
  | .notOpenForExtension record reason =>
    "record `" ++ record ++ "` is not open for extension: " ++ reason
  | .missingIdMember record =>
    "table record `" ++ record ++ "` has no id member, mark one field with #[data(id)]"
  | .multipleIdMembers record first second =>
    "record `" ++ record ++ "`: members `" ++ first ++ "` and `" ++ second ++
      "` are both marked as id"
  | .invalidVerticalList record member found =>
    "record `" ++ record ++ "`: vertical member `" ++ member ++
      "` must be an array, list or boxed slice of records, found " ++ found

/-- The record an error is about. -/
def record : SchemaError → String
  | .ambiguousAccessor r _ _ _ => r
  | .invalidConverter r _ _ _ _ => r
  | .notOpenForExtension r _ => r
  | .missingIdMember r => r
  | .multipleIdMembers r _ _ => r
  | .invalidVerticalList r _ _ => r

/-- The member an error points at. -/
def member? : SchemaError → Option String
  | .ambiguousAccessor _ _ _ second => some second
  | .invalidConverter _ member _ _ _ => some member
  | .multipleIdMembers _ _ second => some second
  | .invalidVerticalList _ member _ => some member
  | .notOpenForExtension _ _ => none
  | .missingIdMember _ => none

end SchemaError

end TypedSheets
