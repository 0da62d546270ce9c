import TypedSheets.Cell.Build
import TypedSheets.Stack
import TypedSheets.Table.Type

/-!
# Gear, loadouts, counters and flags

* `Game.counter`, `Game.flag` — plain tables
* `Game.gear` — a table whose id and label are written by hand
* `Game.loadout` — a record that may be changed, with its getters
-/

namespace TypedSheets.Game

/-- Counters; their rows may be replaced. -/
def counter : TableType where
  record :=
    ⟨⟨"Counter", none, true, true, []⟩,
      .ofList [idMember "id" (.int .u32), dataMember "value" (.int .i64)]⟩
  id := .int .u32
  getId := fun row => row.1

/-- Flags. -/
def flag : TableType where
  record := .table "Flag" [idMember "on" .bool, dataMember "note" (.option .text)]
  id := .bool
  getId := fun row => row.1

/-- The record type of gear. -/
def gearRecord : RecordType :=
  ⟨⟨"Gear", some .kebab, true, true, ["get_id", "label"]⟩,
    .ofList
      [idMember "_serial_no" (.int .u64), dataMember "m_label" .text, dataMember "maxHP" .double,
        dataMember "type" (.option (.int .u8)), dataMember "owner" (.sheetRef "Hero")]⟩

/-- The serial number of a piece of gear. -/
def gearSerial (row : gearRecord.Row) : IntKind.El .u64 := row.1

/-- The name of a piece of gear. -/
def gearName (row : gearRecord.Row) : String := row.2.1

/-- The id of a piece of gear: its name and serial number. -/
def gearId (row : gearRecord.Row) : String :=
  gearName row ++ "-" ++ Number.intText (gearSerial row).val

/-- The strength of a piece of gear. -/
def gearStrength (row : gearRecord.Row) : Number.Double := row.2.2.1

/-- The owner of a piece of gear. -/
def gearOwner (row : gearRecord.Row) : SheetRef := row.2.2.2.2.1

/-- The label of a piece of gear. -/
def gearLabel (row : gearRecord.Row) : String := "<" ++ gearName row ++ ">"

/-- Gear. -/
def gear : TableType where
  record := gearRecord
  id := .text
  getId := gearId

/-- Loadouts. -/
def loadout : RecordType :=
  ⟨⟨"Loadout", some .snake, true, false, []⟩,
    .ofList
      [dataMember "slots" (.array (.int .u8) 3), dataMember "tags" (.set .sorted .text),
        dataMember "weights" (.map .hashed false .text .single),
        dataMember "perks" (.set .hashed (.int .u32)),
        dataMember "queue" (.sequence .queue (.int .u32)),
        dataMember "undo" (.sequence .stack (.int .u32)), dataMember "nickname" (.option .text),
        dataMember "shared" (.sequence .sharedSlice .single),
        ignoredMember "cache" (.list (.scalar (.int .u8)))]⟩

/-- The three slots of a loadout. -/
def loadoutSlots (row : loadout.Row) : ListOf (IntKind.El .u8) 3 := row.1

/-- The tags of a loadout, sorted. -/
def loadoutTags (row : loadout.Row) : List String := row.2.1

/-- The weights of a loadout, sorted by name. -/
def loadoutWeights (row : loadout.Row) : Entries String Number.Single := row.2.2.1

/-- The perks of a loadout, sorted. -/
def loadoutPerks (row : loadout.Row) : List (IntKind.El .u32) := row.2.2.2.1

/-- The queue of a loadout. -/
def loadoutQueue (row : loadout.Row) : List (IntKind.El .u32) := row.2.2.2.2.1

/-- What a loadout would take back, the latest on top. -/
def loadoutUndo (row : loadout.Row) : Stack (IntKind.El .u32) := row.2.2.2.2.2.1

/-- The nickname of a loadout. -/
def loadoutNickname (row : loadout.Row) : Option String := row.2.2.2.2.2.2.1

/-- What the loadout shares. -/
def loadoutShared (row : loadout.Row) : List Number.Single := row.2.2.2.2.2.2.2.1

end TypedSheets.Game
