/-! # Sorting by runs

A list is sorted by taking the longest run at its start, which is turned round if it
descends, and inserting each further item into it by bisection. Where `before` is a
strict weak order this is the stable sort; where it is none, the outcome is still
settled by the comparisons that are made.
-/

namespace BlockAngular.Run

variable {α : Type}

/-- The items that go on from `last`, each with `goesOn` behind the one before, and the
    rest. -/
def extend (goesOn : α → α → Bool) (last : α) : List α → List α × List α
  | [] => ([], [])
  | a :: rest =>
    if goesOn last a then
      let (run, after) := extend goesOn a rest
      (a :: run, after)
    else ([], a :: rest)

/-- The longest run at the start, ascending, and the rest. A run ascends if no item
    stands before the last one, and descends if every item does. -/
def first (before : α → α → Bool) : List α → List α × List α
  | [] => ([], [])
  | [a] => ([a], [])
  | a :: b :: rest =>
    if before b a then
      let (run, after) := extend (fun x y => before y x) b rest
      ((a :: b :: run).reverse, after)
    else
      let (run, after) := extend (fun x y => !before y x) b rest
      (a :: b :: run, after)

/-- The place between `low` and `high` at which an item is inserted: behind everything
    that it does not stand before. `fuel` bounds the number of halvings. -/
def place (before : α → α → Bool) (run : Array α) (a : α) (fuel low high : Nat) : Nat :=
  match fuel with
  | 0 => low
  | fuel + 1 =>
    if high ≤ low then low
    else
      let middle := low + (high - low) / 2
      match run[middle]? with
      | none => low
      | some b =>
        if before a b then place before run a fuel low middle
        else place before run a fuel (middle + 1) high

/-- Insert an item into a run. -/
def insert (before : α → α → Bool) (run : List α) (a : α) : List α :=
  let n := place before run.toArray a run.length 0 run.length
  run.take n ++ a :: run.drop n

/-- Sort by runs. -/
def sort (before : α → α → Bool) (items : List α) : List α :=
  let (run, rest) := first before items
  rest.foldl (insert before) run

end BlockAngular.Run
