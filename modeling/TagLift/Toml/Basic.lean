import TagLift.Text.Basic

/-!
# Values of a TOML document
-/

namespace TagLift

/-- A value of a document. Numbers and dates keep their text. -/
inductive TomlValue where
  | string (text : Text)
  | boolean (value : Bool)
  | number (text : Text)
  | datetime (text : Text)
  | array (items : List TomlValue)
  | table (entries : List (Text × TomlValue))
deriving Repr

/-- How a table came to be. -/
inductive TableForm where
  /-- It was needed on the way to another table. -/
  | implied
  /-- It has a header. -/
  | headed
  /-- It is spelled by dotted keys. -/
  | dotted
deriving DecidableEq, Repr

/-- What a key of an unfinished document holds. -/
inductive TomlItem where
  | value (value : TomlValue)
  | table (form : TableForm) (entries : List (Text × TomlItem))
  /-- A list of tables, each with a header. -/
  | tables (items : List (List (Text × TomlItem)))
deriving Repr

/-- The keys of an unfinished table. -/
abbrev TomlItems := List (Text × TomlItem)

namespace TomlItem

mutual

/-- The value of an item. -/
def toValue : TomlItem → TomlValue
  | .value v => v
  | .table _ entries => .table (toEntries entries)
  | .tables items => .array (toTables items)

def toEntries : List (Text × TomlItem) → List (Text × TomlValue)
  | [] => []
  | (key, item) :: rest => (key, item.toValue) :: toEntries rest

def toTables : List (List (Text × TomlItem)) → List TomlValue
  | [] => []
  | entries :: rest => .table (toEntries entries) :: toTables rest

end

end TomlItem

namespace TomlItems

def get? (items : TomlItems) (key : Text) : Option TomlItem :=
  (items.find? (·.1 == key)).map Prod.snd

def set (items : TomlItems) (key : Text) (item : TomlItem) : TomlItems :=
  if items.any (·.1 == key) then
    items.map fun (old, before) => if old = key then (old, item) else (old, before)
  else items ++ [(key, item)]

/-- Change the table, or the last of the tables, that an item is. -/
def within (change : TomlItems → Option TomlItems) : TomlItem → Option TomlItem
  | .table form entries => (change entries).map (.table form)
  | .tables items => do
      let last ← items.getLast?
      return .tables (items.dropLast ++ [← change last])
  | .value _ => none

/-- Change the table that headers lead to; missing tables on the way are implied. -/
def under (change : TomlItems → Option TomlItems) : List Text → TomlItems → Option TomlItems
  | [], items => change items
  | key :: path, items => do
      let item := (items.get? key).getD (.table .implied [])
      return items.set key (← within (under change path) item)

/-- Open the table of a header. -/
def openTable (key : Text) (items : TomlItems) : Option TomlItems :=
  match items.get? key with
  | none => some (items.set key (.table .headed []))
  | some (.table .implied entries) => some (items.set key (.table .headed entries))
  | some _ => none

/-- Open one more of the tables of a header. -/
def openNextTable (key : Text) (items : TomlItems) : Option TomlItems :=
  match items.get? key with
  | none => some (items.set key (.tables [[]]))
  | some (.tables tables) => some (items.set key (.tables (tables ++ [[]])))
  | some _ => none

/-- Give a dotted key a value. Its table may not have a header, and the key may not be taken. -/
def insert (value : TomlValue) : List Text → TomlItems → Option TomlItems
  | [], _ => none
  | [key], items =>
      if (items.get? key).isSome then none else some (items.set key (.value value))
  | key :: path, items =>
      match items.get? key with
      | none => do return items.set key (.table .dotted (← insert value path []))
      | some (.table form entries) =>
          if form = .headed ∨ (path.length = 1 ∧ form ≠ .dotted) then none
          else do return items.set key (.table form (← insert value path entries))
      | some item =>
          if path.length = 1 then none
          else do return items.set key (← within (insert value path) item)

end TomlItems

end TagLift
