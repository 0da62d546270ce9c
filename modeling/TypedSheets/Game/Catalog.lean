import TypedSheets.Catalog
import TypedSheets.Cell.Build
import TypedSheets.Game.Gear
import TypedSheets.Game.Heroes
import TypedSheets.Game.Stages

/-!
# The catalog of a game

* `Game.wide` — one member of each scalar type
* `Game.views` — one member of each collection
* `Game.catalog` — the record types of the game
-/

namespace TypedSheets.Game

/-- One member of each scalar type. -/
def wide : TableType where
  record := .table "Wide"
    [idMember "id" (.int .i128), dataMember "a_i8" (.int .i8), dataMember "b_i16" (.int .i16),
      dataMember "c_i32" (.int .i32), dataMember "d_i64" (.int .i64), dataMember "e_u8" (.int .u8),
      dataMember "f_u16" (.int .u16), dataMember "g_u32" (.int .u32),
      dataMember "h_u64" (.int .u64), dataMember "k_u128" (.int .u128),
      dataMember "l_f32" .single, dataMember "m_f64" .double, dataMember "n_bool" .bool]
  id := .int .i128
  getId := fun row => row.1

/-- One member of each collection. -/
def views : TableType where
  record := .table "Views"
    [idMember "id" (.int .u16), dataMember "boxed" (.sequence .boxedSlice (.int .u16)),
      dataMember "shared" (.sequence .sharedSlice .single),
      dataMember "names" (.sequence .sharedList .text),
      dataMember "levels" (.map .sorted true .text (.int .u32)),
      dataMember "queue" (.sequence .queue (.int .u8)),
      dataMember "undo" (.sequence .stack (.int .i16)), dataMember "tags" (.set .sorted .text),
      dataMember "by_level" (.map .sorted false (.int .u32) .text),
      dataMember "nested" (.list (.list (.int .u8))),
      dataMember "grid" (.array (.array (.int .u8) 2) 2),
      dataMember "maybe" (.list (.option (.int .u8)))]
  id := .int .u16
  getId := fun row => row.1

/-- The record types of the game. -/
def catalog : Catalog where
  parts := [multiplier, reward, spawn, wave, loadout]
  tables := [hero, item, note, quest, stage, arena, counter, gear, flag, wide, views, bounty]
  names_nodup := by decide

end TypedSheets.Game
