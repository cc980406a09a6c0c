/-
# Lists of keyed entries

Maps are lists of entries, a key and what it stands for.  A map that is kept in key order is built
by `ofEntries`, where the later of two entries with one key wins; a map that is kept in the order of
first occurrence is built by `put`, which replaces a value in place.
-/
namespace TypedAttributes.Keyed

universe u v

variable {α : Type u} {β : Type v}

/-- The keys of a list of entries, in its order. -/
def keys (entries : List (String × α)) : List String := entries.map Prod.fst

/-- Every key is less than the keys after it, by code points. -/
def Ascending (entries : List (String × α)) : Prop := (keys entries).Pairwise (· < ·)

instance (entries : List (String × α)) : Decidable (Ascending entries) :=
  inferInstanceAs (Decidable (List.Pairwise _ _))

/-- No key occurs twice. -/
def Distinct (entries : List (String × α)) : Prop := (keys entries).Pairwise (· ≠ ·)

instance (entries : List (String × α)) : Decidable (Distinct entries) :=
  inferInstanceAs (Decidable (List.Pairwise _ _))

/-- Adds an entry to an ascending list at the place of its key, replacing an entry with that key. -/
def insert (key : String) (value : α) : List (String × α) → List (String × α)
  | [] => [(key, value)]
  | (k, v) :: rest =>
    if key < k then (key, value) :: (k, v) :: rest
    else if key = k then (key, value) :: rest
    else (k, v) :: insert key value rest

/-- The ascending list of the given entries; of entries with one key the last counts. -/
def ofEntries (entries : List (String × α)) : List (String × α) :=
  entries.foldl (fun built entry => insert entry.1 entry.2 built) []

/-- Sets the value of a key: in place if the key occurs, else at the end. -/
def put (key : String) (value : α) : List (String × α) → List (String × α)
  | [] => [(key, value)]
  | (k, v) :: rest => if k = key then (k, value) :: rest else (k, v) :: put key value rest

/-- Replaces every value by the result of a computation that may fail; the first failure in order
counts. -/
def traverse {ε : Type u} (f : α → Except ε β) : List (String × α) → Except ε (List (String × β))
  | [] => .ok []
  | (key, value) :: rest => do
    let value ← f value
    let rest ← traverse f rest
    return (key, value) :: rest

end TypedAttributes.Keyed
