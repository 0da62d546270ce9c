import TypedSheets.Cell.Build
import TypedSheets.Table.Type
import TypedSheets.Text.Case

/-!
# Heroes, their items and quests

* `Game.multiplier`, `Game.item`, `Game.hero`, `Game.note` — the record types of heroes and items
* `Game.rarityConverter` — the rarity of an item, spelled as a word
* `Game.reward`, `Game.quest`, `Game.bounty` — the record types of quests and bounties
-/

namespace TypedSheets.Game

/-- How rare an item is: common, rare or epic. -/
def rarity : DataType := .choice "Rarity" 2

/-- Reads the word for a rarity; a blank one is common. -/
def readRarity (word : String) : Except CellError (Fin 3) :=
  let w := Text.lower (Text.trim word)
  if w == "" || w == "common" then .ok 0
  else if w == "rare" then .ok 1
  else if w == "epic" then .ok 2
  else .error (.parse word "rarity")

/-- The word for a rarity. -/
def rarityWord : Fin 3 → String
  | 0 => "common"
  | 1 => "rare"
  | 2 => "epic"

/-- The rule between a rarity and its word. -/
def rarityConverter : Converter where
  name := "RarityConverter"
  input := .scalar .text
  output := rarity
  convert := readRarity
  revert := rarityWord

/-- What a hero gains at a level. -/
def multiplier : RecordType :=
  .plain "Multiplier" [dataMember "level" (.int .u32), dataMember "hp" .single]

/-- Items. -/
def item : TableType where
  record := .table "Item"
    [idMember "id" .text, dataMember "name" .text, dataMember "price" (.int .u32),
      convertedMember "rarity" rarityConverter, dataMember "icon" .assetRef]
  id := .text
  getId := fun row => row.1

/-- Heroes. -/
def hero : TableType where
  record := .table "Hero"
    [idMember "id" (.int .u32), dataMember "name" .text, dataMember "weapon" (.sheetRef "Item"),
      dataMember "portrait" .assetRef, rowsMember "multipliers" .list multiplier]
  id := .int .u32
  getId := fun row => row.1

/-- Notes. -/
def note : TableType where
  record := .table "Note" [idMember "id" .text, dataMember "name" .text]
  id := .text
  getId := fun row => row.1

/-- Gold and an item. -/
def reward : RecordType :=
  .plain "Reward" [dataMember "gold" (.int .u32), dataMember "item" (.sheetRef "Item")]

/-- Quests. -/
def quest : TableType where
  record := .table "Quest"
    [idMember "id" (.int .u32), dataMember "title" .text, rowsMember "rewards" .list reward,
      dataMember "prerequisites" (.list (.sheetRef "Quest")), dataMember "bonus" reward.cell,
      dataMember "backup" (.option (.sheetRef "Item")), dataMember "icons" (.list .assetRef),
      dataMember "shop" (.map .sorted false .text (.sheetRef "Item")),
      ignoredMember "cache" (.list (.scalar (.int .u8)))]
  id := .int .u32
  getId := fun row => row.1

/-- Bounties: the prices of items. -/
def bounty : TableType where
  record := .table "Bounty"
    [idMember "id" (.int .u32),
      dataMember "prices" (.map .hashed false (.sheetRef "Item") (.int .u32)),
      dataMember "poster" .assetRef]
  id := .int .u32
  getId := fun row => row.1

end TypedSheets.Game
