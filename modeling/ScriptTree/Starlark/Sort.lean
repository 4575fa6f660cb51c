import ScriptTree.Starlark.Value

/-!
A stable sort in place. Short runs are sorted by insertion, and neighbouring runs are merged
by rotations. A comparison may fail; the sort goes on, and the last failure is what it ends
with, so that the order of the comparisons matters.
-/

namespace ScriptTree.Starlark.Sort

/-- Items under way, and the message of the last comparison that failed. -/
structure State (α : Type) where
  items : Array α
  error : Option ByteString := none

abbrev Work (α : Type) := StateM (State α)

def isLess (less : α → α → Result Bool) (i j : Nat) : Work α Bool := do
  let s ← get
  match s.items[i]?, s.items[j]? with
  | some x, some y =>
    match less x y with
    | .ok b => return b
    | .error e =>
      modify fun s => { s with error := some e }
      return false
  | _, _ => return false

def swap (i j : Nat) : Work α Unit :=
  modify fun s => { s with items := s.items.swapIfInBounds i j }

/-- Exchanges the items from `start` to `middle` with those from there to `stop`. -/
def rotate (start middle stop : Nat) : Work α Unit :=
  modify fun s =>
    { s with items := s.items.extract 0 start ++ s.items.extract middle stop ++
        s.items.extract start middle ++ s.items.extract stop s.items.size }

/-- Moves an item down to its place, but not below `low`. -/
def sink (less : α → α → Result Bool) (low : Nat) : Nat → Work α Unit
  | 0 => pure ()
  | j + 1 => do
    if low < j + 1 then
      if ← isLess less (j + 1) j then
        swap (j + 1) j
        sink less low j

def insertionSort (less : α → α → Result Bool) (start stop : Nat) : Work α Unit :=
  (List.range' (start + 1) (stop - (start + 1))).forM (sink less start)

/-- The first place between two at which a test fails; before it, the test holds. -/
def search (test : Nat → Work α Bool) : Nat → Nat → Nat → Work α Nat
  | 0, i, _ => pure i
  | fuel + 1, i, j => do
    if i < j then
      let h := (i + j) / 2
      if ← test h then search test fuel (h + 1) j else search test fuel i h
    else return i

/-- Merges two neighbouring runs that are sorted; `fuel` is the length of both. -/
def merge (less : α → α → Result Bool) : Nat → Nat → Nat → Nat → Work α Unit
  | 0, _, _, _ => pure ()
  | fuel + 1, start, middle, stop => do
    if middle - start = 1 then
      let i ← search (fun h => isLess less h start) (stop - middle) middle stop
      (List.range' start (i - 1 - start)).forM fun k => swap k (k + 1)
    else if stop - middle = 1 then
      let i ← search (fun h => do return !(← isLess less middle h)) (middle - start) start middle
      (List.range' i (middle - i)).reverse.forM fun k => swap (k + 1) k
    else
      let half := (start + stop) / 2
      let n := half + middle
      let (low, high) := if half < middle then (n - stop, half) else (start, middle)
      let cut ← search (fun c => do return !(← isLess less (n - 1 - c) c)) (high - low) low high
      let other := n - cut
      if cut < middle && middle < other then rotate cut middle other
      if start < cut && cut < half then merge less fuel start cut half
      if half < other && other < stop then merge less fuel half other stop

def runLength : Nat := 20

/-- Merges runs of a given length in pairs, and then the longer ones. -/
def mergeRuns (less : α → α → Result Bool) (n : Nat) : Nat → Nat → Work α Unit
  | 0, _ => pure ()
  | fuel + 1, length => do
    if length < n then
      (List.range ((n + 2 * length - 1) / (2 * length))).forM fun i => do
        let start := i * (2 * length)
        let middle := start + length
        if middle < n then merge less (2 * length) start middle (min (start + 2 * length) n)
      mergeRuns less n fuel (2 * length)

/-- Sorts items; those of which neither comes first keep their order. -/
def stable (less : α → α → Result Bool) (items : Array α) : Result (Array α) :=
  let n := items.size
  let s := (do
    (List.range (n / runLength + 1)).forM fun i =>
      insertionSort less (i * runLength) (min ((i + 1) * runLength) n)
    mergeRuns less n n runLength : Work α Unit).run { items } |>.2
  match s.error with
  | some e => .error e
  | none => .ok s.items

end ScriptTree.Starlark.Sort
