import ScriptTree.Text.Bytes
import ScriptTree.Text.CharClass
import ScriptTree.Text.Grapheme
import ScriptTree.Text.Terminal

/-!
Columns that a text takes, on a terminal and in a cell of a table. On a terminal grapheme clusters
count as a whole, and control sequences take no column. In a cell characters count one by one, and
sequences that choose colours or make links count for nothing.
-/

namespace ScriptTree.Text

/-! Characters that East Asian typography makes twice as wide as others. -/

def wideBoundaries : List Nat := [
  0x1100, 0x1160, 0x231a, 0x231c, 0x2329, 0x232b, 0x23e9, 0x23ed, 0x23f0, 0x23f1, 0x23f3, 0x23f4,
  0x25fd, 0x25ff, 0x2614, 0x2616, 0x2648, 0x2654, 0x267f, 0x2680, 0x2693, 0x2694, 0x26a1, 0x26a2,
  0x26aa, 0x26ac, 0x26bd, 0x26bf, 0x26c4, 0x26c6, 0x26ce, 0x26cf, 0x26d4, 0x26d5, 0x26ea, 0x26eb,
  0x26f2, 0x26f4, 0x26f5, 0x26f6, 0x26fa, 0x26fb, 0x26fd, 0x26fe, 0x2705, 0x2706, 0x270a, 0x270c,
  0x2728, 0x2729, 0x274c, 0x274d, 0x274e, 0x274f, 0x2753, 0x2756, 0x2757, 0x2758, 0x2795, 0x2798,
  0x27b0, 0x27b1, 0x27bf, 0x27c0, 0x2b1b, 0x2b1d, 0x2b50, 0x2b51, 0x2b55, 0x2b56, 0x2e80, 0x2e9a,
  0x2e9b, 0x2ef4, 0x2f00, 0x2fd6, 0x2ff0, 0x2ffc, 0x3000, 0x303f, 0x3041, 0x3097, 0x3099, 0x3100,
  0x3105, 0x3130, 0x3131, 0x318f, 0x3190, 0x31e4, 0x31f0, 0x321f, 0x3220, 0x3248, 0x3250, 0x4dc0,
  0x4e00, 0xa48d, 0xa490, 0xa4c7, 0xa960, 0xa97d, 0xac00, 0xd7a4, 0xf900, 0xfb00, 0xfe10, 0xfe1a,
  0xfe30, 0xfe53, 0xfe54, 0xfe67, 0xfe68, 0xfe6c, 0xff01, 0xff61, 0xffe0, 0xffe7, 0x16fe0,
  0x16fe5, 0x16ff0, 0x16ff2, 0x17000, 0x187f8, 0x18800, 0x18cd6, 0x18d00, 0x18d09, 0x1aff0,
  0x1aff4, 0x1aff5, 0x1affc, 0x1affd, 0x1afff, 0x1b000, 0x1b123, 0x1b132, 0x1b133, 0x1b150,
  0x1b153, 0x1b155, 0x1b156, 0x1b164, 0x1b168, 0x1b170, 0x1b2fc, 0x1f004, 0x1f005, 0x1f0cf,
  0x1f0d0, 0x1f18e, 0x1f18f, 0x1f191, 0x1f19b, 0x1f200, 0x1f203, 0x1f210, 0x1f23c, 0x1f240,
  0x1f249, 0x1f250, 0x1f252, 0x1f260, 0x1f266, 0x1f300, 0x1f321, 0x1f32d, 0x1f336, 0x1f337,
  0x1f37d, 0x1f37e, 0x1f394, 0x1f3a0, 0x1f3cb, 0x1f3cf, 0x1f3d4, 0x1f3e0, 0x1f3f1, 0x1f3f4,
  0x1f3f5, 0x1f3f8, 0x1f43f, 0x1f440, 0x1f441, 0x1f442, 0x1f4fd, 0x1f4ff, 0x1f53e, 0x1f54b,
  0x1f54f, 0x1f550, 0x1f568, 0x1f57a, 0x1f57b, 0x1f595, 0x1f597, 0x1f5a4, 0x1f5a5, 0x1f5fb,
  0x1f650, 0x1f680, 0x1f6c6, 0x1f6cc, 0x1f6cd, 0x1f6d0, 0x1f6d3, 0x1f6d5, 0x1f6d8, 0x1f6dc,
  0x1f6e0, 0x1f6eb, 0x1f6ed, 0x1f6f4, 0x1f6fd, 0x1f7e0, 0x1f7ec, 0x1f7f0, 0x1f7f1, 0x1f90c,
  0x1f93b, 0x1f93c, 0x1f946, 0x1f947, 0x1fa00, 0x1fa70, 0x1fa7d, 0x1fa80, 0x1fa89, 0x1fa90,
  0x1fabe, 0x1fabf, 0x1fac6, 0x1face, 0x1fadc, 0x1fae0, 0x1fae9, 0x1faf0, 0x1faf9, 0x20000,
  0x2fffe, 0x30000, 0x3fffe]

def isWide (c : Char) : Bool := isBetween wideBoundaries c

/-! Terminals. -/

def colourful : List Nat := [
  0x231a, 0x231c, 0x23e9, 0x23ed, 0x23f0, 0x23f1, 0x23f3, 0x23f4, 0x25fd, 0x25ff, 0x2614, 0x2616,
  0x2648, 0x2654, 0x267f, 0x2680, 0x2693, 0x2694, 0x26a1, 0x26a2, 0x26aa, 0x26ac, 0x26bd, 0x26bf,
  0x26c4, 0x26c6, 0x26ce, 0x26cf, 0x26d4, 0x26d5, 0x26ea, 0x26eb, 0x26f2, 0x26f4, 0x26f5, 0x26f6,
  0x26fa, 0x26fb, 0x26fd, 0x26fe, 0x2705, 0x2706, 0x270a, 0x270c, 0x2728, 0x2729, 0x274c, 0x274d,
  0x274e, 0x274f, 0x2753, 0x2756, 0x2757, 0x2758, 0x2795, 0x2798, 0x27b0, 0x27b1, 0x27bf, 0x27c0,
  0x2b1b, 0x2b1d, 0x2b50, 0x2b51, 0x2b55, 0x2b56, 0x1f004, 0x1f005, 0x1f0cf, 0x1f0d0, 0x1f18e,
  0x1f18f, 0x1f191, 0x1f19b, 0x1f1e6, 0x1f200, 0x1f201, 0x1f202, 0x1f21a, 0x1f21b, 0x1f22f,
  0x1f230, 0x1f232, 0x1f237, 0x1f238, 0x1f23b, 0x1f250, 0x1f252, 0x1f300, 0x1f321, 0x1f32d,
  0x1f336, 0x1f337, 0x1f37d, 0x1f37e, 0x1f394, 0x1f3a0, 0x1f3cb, 0x1f3cf, 0x1f3d4, 0x1f3e0,
  0x1f3f1, 0x1f3f4, 0x1f3f5, 0x1f3f8, 0x1f43f, 0x1f440, 0x1f441, 0x1f442, 0x1f4fd, 0x1f4ff,
  0x1f53e, 0x1f54b, 0x1f54f, 0x1f550, 0x1f568, 0x1f57a, 0x1f57b, 0x1f595, 0x1f597, 0x1f5a4,
  0x1f5a5, 0x1f5fb, 0x1f650, 0x1f680, 0x1f6c6, 0x1f6cc, 0x1f6cd, 0x1f6d0, 0x1f6d3, 0x1f6d5,
  0x1f6d8, 0x1f6dc, 0x1f6e0, 0x1f6eb, 0x1f6ed, 0x1f6f4, 0x1f6fd, 0x1f7e0, 0x1f7ec, 0x1f7f0,
  0x1f7f1, 0x1f90c, 0x1f93b, 0x1f93c, 0x1f946, 0x1f947, 0x1fa00, 0x1fa70, 0x1fa7d, 0x1fa80,
  0x1fa89, 0x1fa90, 0x1fabe, 0x1fabf, 0x1fac6, 0x1face, 0x1fadc, 0x1fae0, 0x1fae9, 0x1faf0,
  0x1faf9]

def charWidth (c : Char) (b : Break) : Nat :=
  match b with
  | .control | .carriageReturn | .lineFeed | .extend | .joiner => 0
  | .regional => 2
  | .pictograph => if isBetween colourful c then 2 else 1
  | _ =>
    if c.toNat = 0x2e3a then 3
    else if c.toNat = 0x2e3b then 4
    else if isWide c then 2
    else 1

namespace Cluster

structure Open where
  state : State
  first : Break
  width : Nat

def ofChar (c : Char) : Open :=
  let b := Break.ofChar c
  ⟨start b, b, charWidth c b⟩

/-- The cluster with the next character, unless that starts a new one. Selectors choose the
form of a pictograph. -/
def extend? (o : Open) (c : Char) : Option Open :=
  let b := Break.ofChar c
  let (state, isBoundary) := step o.state b
  if isBoundary then none
  else
    let width :=
      if o.first = .pictograph then
        (if c.toNat = 0xfe0e then 1 else if c.toNat = 0xfe0f then 2 else o.width)
      else if o.first = .regional || o.first = .leading then o.width
      else o.width + charWidth c b
    some ⟨state, o.first, width⟩

end Cluster

structure Shown where
  columns : Nat := 0
  state : Terminal.State := .ground
  cluster : Option Cluster.Open := none

namespace Shown

/-- Shows a character outside of clusters. Characters of several bytes start a cluster,
except where a string of a sequence takes their bytes. -/
def begin_ (s : Shown) (c : Char) : Shown :=
  match String.utf8EncodeChar c with
  | [] => s
  | byte :: rest =>
    let state := Terminal.next s.state byte
    if state = .character then ⟨s.columns, .ground, some (Cluster.ofChar c)⟩
    else
      { s with
        columns := s.columns + if Terminal.shows s.state byte then 1 else 0
        state := rest.foldl Terminal.next state }

def next (s : Shown) (c : Char) : Shown :=
  match s.cluster with
  | none => s.begin_ c
  | some o =>
    match Cluster.extend? o c with
    | some o => { s with cluster := some o }
    | none => (Shown.mk (s.columns + o.width) s.state none).begin_ c

end Shown

def width (text : String) : Nat :=
  let shown := text.toList.foldl Shown.next {}
  shown.columns + (shown.cluster.map (·.width)).getD 0

def padTo (n : Nat) (s : String) : String := s ++ String.ofList (List.replicate (n - width s) ' ')

/-! Cells. -/

def combiningMarks : List Nat := [
  0x300, 0x370, 0x483, 0x48a, 0x7eb, 0x7f4, 0xc00, 0xc01, 0xc04, 0xc05, 0xcf3, 0xcf4, 0xd00,
  0xd02, 0x135d, 0x1360, 0x1a7f, 0x1a80, 0x1ab0, 0x1acf, 0x1b6b, 0x1b74, 0x1dc0, 0x1e00, 0x20d0,
  0x20f1, 0x2cef, 0x2cf2, 0x2de0, 0x2e00, 0x3099, 0x309b, 0xa66f, 0xa673, 0xa674, 0xa67e, 0xa69e,
  0xa6a0, 0xa6f0, 0xa6f2, 0xa8e0, 0xa8f2, 0xfe20, 0xfe30, 0x101fd, 0x101fe, 0x10376, 0x1037b,
  0x10eab, 0x10ead, 0x10f46, 0x10f51, 0x10f82, 0x10f86, 0x11300, 0x11302, 0x1133b, 0x1133d,
  0x11366, 0x1136d, 0x11370, 0x11375, 0x16af0, 0x16af5, 0x1cf00, 0x1cf2e, 0x1cf30, 0x1cf47,
  0x1d165, 0x1d16a, 0x1d16d, 0x1d173, 0x1d17b, 0x1d183, 0x1d185, 0x1d18c, 0x1d1aa, 0x1d1ae,
  0x1d242, 0x1d245, 0x1e000, 0x1e007, 0x1e008, 0x1e019, 0x1e01b, 0x1e022, 0x1e023, 0x1e025,
  0x1e026, 0x1e02b, 0x1e08f, 0x1e090, 0x1e8d0, 0x1e8d7]

def hiddenBoundaries : List Nat := [
  0x70f, 0x710, 0x180b, 0x180f, 0x200b, 0x2010, 0x2028, 0x202f, 0x206a, 0x2070, 0xfeff, 0xff00,
  0xfff9, 0xfffc, 0xfffe, 0x10000]

def cellCharWidth (c : Char) : Nat :=
  let n := c.toNat
  if n < 0x20 || (0x7f ≤ n && n ≤ 0x9f) || n = 0xad then 0
  else if n < 0x300 then 1
  else if isBetween hiddenBoundaries c || isBetween combiningMarks c then 0
  else if isWide c then 2
  else 1

inductive CellState where
  | plain
  /-- After an escape, before the mark that tells the kind of the sequence. -/
  | escaped
  | colour
  | link
deriving DecidableEq, Inhabited

namespace CellState

def next (s : CellState) (c : Char) : CellState :=
  match s with
  | plain => if c.toNat = 27 then escaped else plain
  | escaped => if c = '[' then colour else if c = ']' then link else escaped
  | colour => if c = 'm' then plain else colour
  | link => if c = '\\' then plain else link

end CellState

structure CellShown where
  state : CellState := .plain
  columns : Nat := 0
  widest : Nat := 0

namespace CellShown

/-- Line breaks inside of sequences do not count. -/
def next (s : CellShown) (c : Char) : CellShown :=
  let state := s.state.next c
  if s.state = .plain && state = .plain then
    if c = '\n' then ⟨state, 0, max s.widest s.columns⟩
    else { s with columns := s.columns + cellCharWidth c }
  else { s with state := state }

end CellShown

def cellWidth (text : String) : Nat :=
  let shown := text.toList.foldl CellShown.next {}
  max shown.widest shown.columns

end ScriptTree.Text
