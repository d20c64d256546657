namespace ComponentLang

/-- A map from keys to values, as the list of its entries. Of entries with one
key the first one counts. -/
structure KeyedMap (κ ν : Type) where
  entries : List (κ × ν) := []
  deriving DecidableEq, Repr

namespace KeyedMap

variable {κ ν : Type} [BEq κ]

def get? (map : KeyedMap κ ν) (key : κ) : Option ν :=
  map.entries.lookup key

def contains (map : KeyedMap κ ν) (key : κ) : Bool :=
  (map.get? key).isSome

def insert (map : KeyedMap κ ν) (key : κ) (value : ν) : KeyedMap κ ν where
  entries := (key, value) :: map.entries

theorem get?_insert (map : KeyedMap κ ν) (key other : κ) (value : ν) :
    (map.insert key value).get? other =
      if other == key then some value else map.get? other := by
  rw [get?, insert, List.lookup_cons]
  cases other == key <;> rfl

end KeyedMap

end ComponentLang
