import RollingBall.Color
import RollingBall.Color.Generator
import RollingBall.Curve

/-!
# Graphs

The player's curves of a level, each with an id and a color that it keeps while it is there. A new
graph takes the id freed last, or the least one never used, so ids stay small.

## Main definitions

* `GraphId.color`: the color that goes with an id.
* `GraphStore`: the graphs in the order they were added, with `add`, `remove`, `replace` and `get?`.
-/

namespace RollingBall

/-- The handle of a graph. -/
structure GraphId where
  value : UInt32
deriving DecidableEq, Repr

namespace GraphId

/-- Colors that are easy to tell apart. -/
def palette : List UInt32 :=
  [0x000000, 0x00FF00, 0x0000FF, 0xFF0000, 0x01FFFE, 0xFFA6FE, 0xFFDB66, 0x006401, 0x010067,
   0x95003A, 0x007DB5, 0xFF00F6, 0xFFEEE8, 0x774D00, 0x90FB92, 0x0076FF, 0xD5FF00, 0xFF937E,
   0x6A826C, 0xFF029D, 0xFE8900, 0x7A4782, 0x7E2DD2, 0x85A900, 0xFF0056, 0xA42400, 0x00AE7E,
   0x683D3B, 0xBDC6FF, 0x263400, 0xBDD393, 0x00B917, 0x9E008E, 0x001544, 0xC28C9F, 0xFF74A3,
   0x01D0FF, 0x004754, 0xE56FFE, 0x788231, 0x0E4CA1, 0x91D0CB, 0xBE9970, 0x968AE8, 0xBB8800,
   0x43002C, 0xDEFF74, 0x00FFC6, 0xFFE502, 0x620E00, 0x008F9C, 0x98FF52, 0x7544B1, 0xB500FF,
   0x00FF78, 0xFF6E41, 0x005F39, 0x6B6882, 0x5FAD4E, 0xA75740, 0xA5FFD2, 0xFFB167, 0x009BFF,
   0xE85EBE]

/-- A hue in degrees, drawn with a seed: the upper 52 bits of a double word as a part of the full
circle. -/
def hue {α : Type} [Scalar α] (seed : UInt64) : α :=
  let bits := (Generator.ofSeed seed).next64.1
  Scalar.ofNat (bits >>> 12).toNat / Scalar.ofNat (Nat.pow 2 52) * 360.0

/-- The color of the graph with this id: from the palette or, past its end, a saturated color of a
hue drawn with the id as seed. -/
def color (α : Type) [Scalar α] (id : GraphId) : Rgb :=
  match palette[id.value.toNat]? with
  | some rgb => Rgb.ofHex rgb
  | none => Rgb.ofHsv (hue id.value.toUInt64 : α) 1.0 0.85

end GraphId

/-- A curve entered by the player. -/
structure Graph (α : Type) where
  id : GraphId
  curve : Curve α
  color : Rgb

/-- The graphs of a level, in the order they were added. -/
structure GraphStore (α : Type) where
  graphs : List (Graph α)
  /-- The ids of removed graphs, last removed first. -/
  recycled : List UInt32
  /-- The least id never used. -/
  nextId : UInt32

namespace GraphStore

variable {α : Type}

/-- The store without graphs. -/
def empty : GraphStore α := ⟨[], [], 0⟩

/-- The id that the next graph takes, and the store without it. -/
def takeId (s : GraphStore α) : GraphId × GraphStore α :=
  match s.recycled with
  | id :: recycled => (⟨id⟩, { s with recycled := recycled })
  | [] => (⟨s.nextId⟩, { s with nextId := s.nextId + 1 })

/-- Adds a curve as the last graph. -/
def add [Scalar α] (s : GraphStore α) (curve : Curve α) : GraphId × GraphStore α :=
  let (id, s) := s.takeId
  (id, { s with graphs := s.graphs ++ [⟨id, curve, id.color α⟩] })

/-- The graph with this id. -/
def get? (s : GraphStore α) (id : GraphId) : Option (Graph α) :=
  s.graphs.find? fun graph => graph.id = id

/-- A graph has this id. -/
def contains (s : GraphStore α) (id : GraphId) : Bool :=
  s.graphs.any fun graph => graph.id = id

/-- Removes the graph with this id and frees the id; says whether there was one. -/
def remove (s : GraphStore α) (id : GraphId) : Bool × GraphStore α :=
  if s.contains id then
    (true, { s with
      graphs := s.graphs.eraseP fun graph => graph.id = id
      recycled := id.value :: s.recycled })
  else (false, s)

/-- Puts a curve in place of the first graph with an id, which keeps its id and color. -/
def putCurve (id : GraphId) (curve : Curve α) : List (Graph α) → List (Graph α)
  | [] => []
  | graph :: graphs =>
    if graph.id = id then { graph with curve := curve } :: graphs
    else graph :: putCurve id curve graphs

/-- Puts a curve in place of the graph with this id; says whether there was one. -/
def replace (s : GraphStore α) (id : GraphId) (curve : Curve α) : Bool × GraphStore α :=
  if s.contains id then (true, { s with graphs := putCurve id curve s.graphs }) else (false, s)

/-- The number of graphs. -/
def size (s : GraphStore α) : Nat := s.graphs.length

/-- There are no graphs. -/
def isEmpty (s : GraphStore α) : Bool := s.graphs.isEmpty

end GraphStore

end RollingBall
