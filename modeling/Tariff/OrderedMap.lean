/-!
# Ordered maps

A map from texts that remembers the order in which its keys were first given. Giving a key again
changes its value and leaves it in its place.
-/

namespace Tariff

/-- Entries in the order of their keys' first appearance. -/
abbrev OrderedMap (α : Type u) := List (String × α)

namespace OrderedMap

variable {α : Type u}

/-- The value of a key. -/
def find? (m : OrderedMap α) (key : String) : Option α :=
  m.lookup key

/-- Whether the key has a value. -/
def contains (m : OrderedMap α) (key : String) : Bool :=
  m.any (·.1 == key)

/-- The map with the value of one key changed, in its place if it has one and at the end if not. -/
def insert (m : OrderedMap α) (key : String) (value : α) : OrderedMap α :=
  match m with
  | [] => [(key, value)]
  | e :: rest => if e.1 = key then (key, value) :: rest else e :: insert rest key value

/-- The map after all entries of a second one, in their order. -/
def insertAll (m : OrderedMap α) (entries : List (String × α)) : OrderedMap α :=
  entries.foldl (fun m e => insert m e.1 e.2) m

/-- The map of a list of entries; of a repeated key the last value counts. -/
def ofList (entries : List (String × α)) : OrderedMap α :=
  insertAll [] entries

/-- The keys in order. -/
def keys (m : OrderedMap α) : List String :=
  m.map (·.1)

end OrderedMap

end Tariff
