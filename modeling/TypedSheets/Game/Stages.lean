import TypedSheets.Cell.Build
import TypedSheets.Table.Type

/-!
# Stages and arenas

* `Game.spawn`, `Game.wave`, `Game.stage`, `Game.arena` — the record types
-/

namespace TypedSheets.Game

/-- Some heroes of one kind. -/
def spawn : RecordType :=
  .plain "Spawn" [dataMember "hero" (.sheetRef "Hero"), dataMember "count" (.int .u8)]

/-- Heroes that come together. -/
def wave : RecordType :=
  .plain "Wave"
    [rowsMember "spawns" .list spawn, dataMember "tags" (.list .text),
      dataMember "boss" (.option spawn.cell)]

/-- Stages. -/
def stage : TableType where
  record := .table "Stage"
    [idMember "id" .text, rowsMember "waves" .list wave, dataMember "last_boss" spawn.cell]
  id := .text
  getId := fun row => row.1

/-- Arenas; their columns are named in camel case. -/
def arena : TableType where
  record :=
    ⟨⟨"Arena", some .camel, false, true, []⟩,
      .ofList
        [idMember "id" (.int .i64), rowsMember "_corner_spawns" (.array 2) spawn,
          rowsMember "m_spawnPool" .boxedSlice wave,
          dataMember "extra_waves" (.map .sorted false (.int .u32) wave.cell)]⟩
  id := .int .i64
  getId := fun row => row.1

end TypedSheets.Game
