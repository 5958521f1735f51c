/-!
# Keyed lists

Lists of pairs in rising order of their keys, with every key at most once. They stand for finite
maps, and two of them that hold the same pairs are equal.
-/

namespace Switchboard.Keyed

variable {α : Type}

/-- Sets the value of a key. -/
def insert (key : String) (value : α) : List (String × α) → List (String × α)
  | [] => [(key, value)]
  | (k, v) :: rest =>
    if key < k then (key, value) :: (k, v) :: rest
    else if key = k then (key, value) :: rest
    else (k, v) :: insert key value rest

/-- Sets the values of keys one after the other. -/
def insertAll (pairs : List (String × α)) (l : List (String × α)) : List (String × α) :=
  pairs.foldl (fun acc p => insert p.1 p.2 acc) l

end Switchboard.Keyed
