import QuestScript.Schema.Basic
/-!
The built-in vocabulary, which is also what the bundled schema documents hold.
-/

namespace QuestScript.Schema

/-- Name, signature and description of every built-in action. -/
def builtinActions : List (String × String × String) :=
  [("AddNpcText", "AddNpcText(npcQuestId, \"message\");",
    "Adds a line of dialogue to the quest NPC's text box."),
   ("AddNpcInput", "AddNpcInput(npcQuestId, inputId, \"message\");",
    "Adds a selectable reply link to the quest NPC's dialog."),
   ("AddNpcChat", "AddNpcChat(npcQuestId, \"message\");",
    "Makes the quest NPC say a message in public chat."),
   ("AddNpcPM", "AddNpcPM(npcQuestId, \"message\");",
    "Sends a private message from the quest NPC."),
   ("Roll", "Roll(amount);", "Rolls a random number between 1 and amount."),
   ("GiveItem", "GiveItem(itemId, amount);", "Gives the player an amount of an item."),
   ("RemoveItem", "RemoveItem(itemId, amount);", "Removes an amount of an item from the player."),
   ("GiveExp", "GiveExp(amount);", "Gives the player experience."),
   ("ShowHint", "ShowHint(\"message\");", "Shows a hint in the player's status bar."),
   ("PlaySound", "PlaySound(soundId);", "Plays a sound effect for the player."),
   ("SetCoord", "SetCoord(mapId, x, y);", "Warps the player to a map and coordinate."),
   ("Quake", "Quake(magnitude);", "Shakes the player's current map."),
   ("QuakeWorld", "QuakeWorld(magnitude);", "Shakes every map."),
   ("SetClass", "SetClass(classId);", "Changes the player's class."),
   ("SetRace", "SetRace(raceId);", "Changes the player's race."),
   ("SetHome", "SetHome(\"home\");", "Changes the player's home town."),
   ("SetTitle", "SetTitle(\"title\");", "Changes the player's title."),
   ("GiveKarma", "GiveKarma(amount);", "Gives the player karma."),
   ("RemoveKarma", "RemoveKarma(amount);", "Removes karma from the player."),
   ("StartQuest", "StartQuest(questId, \"quest state\");",
    "Starts another quest at a given state."),
   ("SetQuestState", "SetQuestState(questId, \"quest state\");",
    "Moves another quest to a given state."),
   ("ResetQuest", "ResetQuest(questId);", "Resets another quest."),
   ("GiveStat", "GiveStat(\"stat\", amount);", "Raises one of the player's stats."),
   ("RemoveStat", "RemoveStat(\"stat\", amount);", "Lowers one of the player's stats."),
   ("ResetDaily", "ResetDaily();", "Clears the daily completion flag of this quest."),
   ("Reset", "Reset();", "Resets this quest to its first state."),
   ("End", "End();", "Ends this quest."),
   ("SetState", "SetState(\"state\");", "Moves this quest to another state."),
   ("Goto", "Goto(\"state\");", "Jumps to another state immediately.")]

/-- Name, signature and description of every built-in rule. -/
def builtinRules : List (String × String × String) :=
  [("TalkedToNpc", "TalkedToNpc(npcQuestId)", "The player talked to the quest NPC."),
   ("InputNpc", "InputNpc(inputId)", "The player picked a reply link."),
   ("Rolled", "Rolled(roll)", "The last Roll produced this value."),
   ("KilledNpcs", "KilledNpcs(npcId, amount)", "The player killed an amount of an NPC."),
   ("KilledPlayers", "KilledPlayers(amount)", "The player killed an amount of players."),
   ("GotItems", "GotItems(itemId, amount)", "The player holds at least an amount of an item."),
   ("LostItems", "LostItems(itemId, amount)", "The player holds less than an amount of an item."),
   ("UsedItem", "UsedItem(itemId, amount)", "The player used an item an amount of times."),
   ("EnterCoord", "EnterCoord(mapId, x, y)", "The player stepped on a coordinate."),
   ("LeaveCoord", "LeaveCoord(mapId, x, y)", "The player left a coordinate."),
   ("EnterMap", "EnterMap(mapId)", "The player entered a map."),
   ("LeaveMap", "LeaveMap(mapId)", "The player left a map."),
   ("IsClass", "IsClass(classId)", "The player has this class."),
   ("IsRace", "IsRace(raceId)", "The player has this race."),
   ("IsGender", "IsGender(genderId)", "The player has this gender."),
   ("CitizenOf", "CitizenOf(\"homeName\")", "The player is a citizen of this town."),
   ("GotSpell", "GotSpell(spellId)", "The player knows a spell."),
   ("LostSpell", "LostSpell(spellId)", "The player does not know a spell."),
   ("UsedSpell", "UsedSpell(spellId, amount)", "The player cast a spell an amount of times."),
   ("IsWearing", "IsWearing(itemId)", "The player has an item equipped."),
   ("StatGreater", "StatGreater(\"statName\", value)", "A stat is greater than a value."),
   ("StatLess", "StatLess(\"statName\", value)", "A stat is less than a value."),
   ("StatIs", "StatIs(\"statName\", value)", "A stat equals a value."),
   ("StatNot", "StatNot(\"statName\", value)", "A stat differs from a value."),
   ("StatBetween", "StatBetween(\"statName\", low_value, high_value)",
    "A stat lies within a range."),
   ("StatRpn", "StatRpn(\"Reverse Polish Notion Formula\")",
    "A reverse polish formula evaluates to true."),
   ("DoneDaily", "DoneDaily(value)", "The quest was completed this many times today."),
   ("Always", "Always()", "Always true; use as the last, unconditional rule.")]

/-- The entries of a list of names, signatures and descriptions. -/
def entriesOf (calls : List (String × String × String)) : Table String Entry :=
  Table.ofList (calls.map fun (name, signature, description) =>
    (name, Entry.ofSignature name signature description))

def builtin : Schema := ⟨entriesOf builtinActions, entriesOf builtinRules⟩

/-- The schema with each category that has no entry taken from the built-in vocabulary. -/
def withDefaults (schema : Schema) : Schema := schema.orElse builtin

end QuestScript.Schema
