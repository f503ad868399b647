/-!
# Sets of series ids

A set of ids is a list in descending order without repetition. Ids are handed out in ascending
order, so the newest id goes to the front at once, and two sets are combined in one pass over
both. Membership in the results is what the names of the operations say.
-/

namespace TimeSeries

/-- The id of a series. -/
abbrev SeriesId := Nat

/-- A set of ids, in descending order. -/
abbrev IdSet := List SeriesId

namespace IdSet

/-- Adds an id that is not below any other; it may be there already. -/
def insertNewest (id : SeriesId) : IdSet → IdSet
  | [] => [id]
  | top :: rest => if top = id then top :: rest else id :: top :: rest

/-- Looks for `x` in a set and goes on with what is below it. -/
def interHead (x : SeriesId) (below : IdSet → IdSet) : IdSet → IdSet
  | [] => []
  | y :: ys =>
    if x < y then interHead x below ys
    else if y < x then below (y :: ys)
    else x :: below ys

/-- The ids in both sets. -/
def inter : IdSet → IdSet → IdSet
  | [], _ => []
  | x :: xs, ys => interHead x (inter xs) ys

/-- Keeps `x` unless it is in a set, and goes on with what is below it. -/
def diffHead (x : SeriesId) (below : IdSet → IdSet) : IdSet → IdSet
  | [] => x :: below []
  | y :: ys =>
    if x < y then diffHead x below ys
    else if y < x then x :: below (y :: ys)
    else below ys

/-- The ids in the first set and not in the second. -/
def diff : IdSet → IdSet → IdSet
  | [], _ => []
  | x :: xs, ys => diffHead x (diff xs) ys

/-- Puts `x` among the ids of a set, and goes on with what is below it. -/
def unionHead (x : SeriesId) (below : IdSet → IdSet) : IdSet → IdSet
  | [] => x :: below []
  | y :: ys =>
    if x < y then y :: unionHead x below ys
    else if y < x then x :: below (y :: ys)
    else x :: below ys

/-- The ids in either set. -/
def union : IdSet → IdSet → IdSet
  | [], ys => ys
  | x :: xs, ys => unionHead x (union xs) ys

/-- The number of ids in each group of 65536 consecutive ones. -/
def groupSizes (ids : IdSet) : List Nat := (ids.foldl count []).map Prod.snd
where
  count (sizes : List (Nat × Nat)) (id : SeriesId) : List (Nat × Nat) :=
    match sizes with
    | [] => [(id / 65536, 1)]
    | (group, n) :: rest =>
      if id / 65536 = group then (group, n + 1) :: rest else (id / 65536, 1) :: (group, n) :: rest

/-- The number of bytes of a set as a compressed bitmap: a header, and for each group two bytes an
id up to 4096 of them and a bit for every possible id beyond. -/
def bitmapBytes (ids : IdSet) : Nat :=
  (groupSizes ids).foldl (fun bytes n => bytes + 8 + if n ≤ 4096 then 2 * n else 8192) 8

end IdSet

end TimeSeries
