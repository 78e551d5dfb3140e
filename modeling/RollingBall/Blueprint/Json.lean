import RollingBall.Blueprint
import RollingBall.Decimal.Shortest
import RollingBall.Json.Printer
import RollingBall.Json.Reader

/-!
# Blueprints as JSON

A blueprint is an object with named fields, or an array of all its fields in order. Its obstacles
and motion are tagged: an object whose member `kind` names the case, or an array that begins with
it. Unknown members are ignored; a known one must not be repeated. Obstacles and motion may be left
out.

A tagged value is looked at as a whole before its fields are, so everything in it has to stand for
something and must not be nested too deeply, also where it is ignored.

## Main definitions

* `Blueprint.ofJson?`, `Blueprint.toJson`: a blueprint and its value.
* `Blueprint.fromText?`, `Blueprint.catalogFromText?`, `Blueprint.toText`: a blueprint and its text.
-/

namespace RollingBall

namespace Json

variable {α : Type}

/-! ## Fields -/

/-- The deepest nesting of arrays and objects in a text that is looked at. -/
def maxDepth : Nat := 127

/-- A number as a scalar. -/
def toScalar? [Scalar α] : Json → Option α
  | number n => n.toScalar?
  | _ => none

/-- A natural number below `2 ^ 32`. -/
def toWord? : Json → Option UInt32
  | number n =>
    match n.toNat? with
    | some v => if v < UInt32.size then some (UInt32.ofNat v) else none
    | none => none
  | _ => none

/-- A string. -/
def toString? : Json → Option String
  | string t => t.decode?
  | _ => none

/-- An array of two numbers. -/
def toPoint? [Scalar α] : Json → Option (Point α)
  | array [x, y] => return ⟨← x.toScalar?, ← y.toScalar?⟩
  | _ => none

/-- An array, read item by item. -/
def toList? {ρ : Type} (item? : Json → Option ρ) : Json → Option (List ρ)
  | array items => items.mapM item?
  | _ => none

/-! ## Records -/

/-- The fields of a record as values; a field may be missing. -/
abbrev Fields : Type := List (Option Json)

/-- The values of the members with this name. -/
def valuesOf (name : String) (members : List (Text × Json)) : List Json :=
  (members.filter fun m => m.1.decode? = some name).map Prod.snd

/-- The value of the one member with this name, or none; refused if there are more. -/
def valueOf? (name : String) (members : List (Text × Json)) : Option (Option Json) :=
  match valuesOf name members with
  | [] => some none
  | [v] => some (some v)
  | _ => none

/-- The values of the named fields of a record, in order. -/
def fieldsOf? (names : List String) (members : List (Text × Json)) : Option Fields :=
  names.mapM fun name => valueOf? name members

/-- The fields of a record that is an object with meaningful names, or an array of exactly its
fields. -/
def record? (names : List String) : Json → Option Fields
  | object members =>
    if members.all fun m => m.1.decode?.isSome then fieldsOf? names members else none
  | array items => if items.length = names.length then some (items.map some) else none
  | _ => none

/-- The name of the member that holds the tag. -/
def tagName : String := "kind"

/-- The tag of a tagged value, and the value without it. -/
def tagged? : Json → Option (String × Json)
  | object members =>
    match valueOf? tagName members with
    | some (some tag) =>
      tag.toString?.map fun name =>
        (name, object (members.filter fun m => m.1.decode? ≠ some tagName))
    | _ => none
  | array (tag :: items) => tag.toString?.map fun name => (name, array items)
  | _ => none

end Json

namespace ObstacleLayout

variable {α : Type}

/-- The tag of a spike. -/
def spikeTag : String := "spike"

/-- The tag of a wheel. -/
def wheelTag : String := "spike_wheel"

/-- The names of the fields of a spike. -/
def spikeFields : List String := ["x", "y"]

/-- The names of the fields of a wheel. -/
def wheelFields : List String := ["x", "y", "arms", "arm_length", "speed"]

/-- The spike with these fields. -/
def ofSpikeFields? [Scalar α] : Json.Fields → Option (ObstacleLayout α)
  | [some x, some y] => return .spike (← x.toScalar?) (← y.toScalar?)
  | _ => none

/-- The wheel with these fields. -/
def ofWheelFields? [Scalar α] : Json.Fields → Option (ObstacleLayout α)
  | [some x, some y, some arms, some armLength, some speed] =>
    return .wheel (← x.toScalar?) (← y.toScalar?) (← arms.toWord?) (← armLength.toWord?)
      (← speed.toScalar?)
  | _ => none

/-- The obstacle a value describes, inside the given number of arrays and objects. -/
def ofJson? [Scalar α] (depth : Nat) (v : Json) : Option (ObstacleLayout α) := do
  if v.sound α (Json.maxDepth - depth) then
    let (tag, content) ← v.tagged?
    if tag = spikeTag then ofSpikeFields? (← content.record? spikeFields)
    else if tag = wheelTag then ofWheelFields? (← content.record? wheelFields)
    else none
  else none

end ObstacleLayout

namespace MotionLayout

variable {α : Type}

/-- The tag of a level whose obstacles move each for itself. -/
def stillTag : String := "static"

/-- The tag of a level whose obstacles bob. -/
def bobbingTag : String := "bobbing"

/-- The names of the fields of bobbing. -/
def bobbingFields : List String := ["amplitude", "frequency"]

/-- Bobbing with these fields. -/
def ofBobbingFields? [Scalar α] : Json.Fields → Option (MotionLayout α)
  | [some amplitude, some frequency] =>
    return .bobbing (← amplitude.toScalar?) (← frequency.toScalar?)
  | _ => none

/-- The motion a value describes, inside the given number of arrays and objects. -/
def ofJson? [Scalar α] (depth : Nat) (v : Json) : Option (MotionLayout α) := do
  if v.sound α (Json.maxDepth - depth) then
    let (tag, content) ← v.tagged?
    if tag = stillTag then (content.record? []).map fun _ => .still
    else if tag = bobbingTag then ofBobbingFields? (← content.record? bobbingFields)
    else none
  else none

end MotionLayout

namespace Blueprint

/-! ## Reading -/

section Reading

variable {α : Type} [Scalar α]

/-- The names of the fields of a blueprint. -/
def fields : List String :=
  ["id", "name", "start", "goal", "obstacles", "motion", "target_equations", "target_time"]

/-- The obstacles of a blueprint inside the given number of arrays and objects, none if they are
left out. -/
def obstaclesOf? (depth : Nat) : Option Json → Option (List (ObstacleLayout α))
  | none => some []
  | some v => v.toList? (ObstacleLayout.ofJson? (depth + 2))

/-- The motion of a blueprint inside the given number of arrays and objects. -/
def motionOf? (depth : Nat) : Option Json → Option (MotionLayout α)
  | none => some .still
  | some v => MotionLayout.ofJson? (depth + 1) v

/-- The blueprint a value describes, inside the given number of arrays and objects. -/
def ofJson? (depth : Nat) (v : Json) : Option (Blueprint α) :=
  match v.record? fields with
  | some [some id, some name, some start, some goal, obstacles, motion, some targetEquations,
      some targetTime] => do
    let id ← id.toWord?
    let name ← name.toString?
    let start ← start.toPoint?
    let goal ← goal.toPoint?
    let obstacles ← obstaclesOf? depth obstacles
    let motion ← motionOf? depth motion
    let targetEquations ← targetEquations.toWord?
    let targetTime ← targetTime.toScalar?
    pure { id, name, start, goal, obstacles, motion, targetEquations, targetTime }
  | _ => none

/-- The blueprint a text describes. -/
def fromText? (text : String) : Option (Blueprint α) :=
  (Json.parse? text.toList).bind (ofJson? 0)

/-- The blueprints a text lists. -/
def catalogFromText? (text : String) : Option (List (Blueprint α)) :=
  (Json.parse? text.toList).bind (Json.toList? (ofJson? 1))

end Reading

/-! ## Writing -/

/-- How numbers are written: positionally if the exponent of the first digit lies between these
bounds. -/
structure NumberFormat where
  least : Int
  greatest : Int

/-- Numbers from `0.00001` to below `1e+16` are written positionally. -/
def numberFormat : NumberFormat := ⟨-5, 15⟩

/-- Digits and the place of the point after them, counted from the first digit, as a number. A
number written positionally has a digit after the point. -/
def layOut (format : NumberFormat) (negative : Bool) (ds : List Char) (exponent : Int) :
    Json.Number :=
  if exponent < format.least ∨ format.greatest < exponent then
    { negative
      whole := ds.take 1
      fraction := ds.drop 1
      exponent := (if exponent < 0 then '-' else '+') :: Decimal.digits exponent.natAbs }
  else if exponent < 0 then
    { negative
      whole := ['0']
      fraction := List.replicate (exponent.natAbs - 1) '0' ++ ds
      exponent := [] }
  else
    let places := exponent.toNat + 1
    let fraction := ds.drop places
    { negative
      whole := ds.take places ++ List.replicate (places - ds.length) '0'
      fraction := if fraction.isEmpty then ['0'] else fraction
      exponent := [] }

/-- Digits without the zeros at their end, at least one. -/
def trimZeros (ds : List Char) : List Char :=
  match (ds.reverse.dropWhile (· == '0')).reverse with
  | [] => ['0']
  | ds => ds

/-- A finite double with the fewest digits that are read back as the same. -/
def shortest (x : Float) : Json.Number :=
  let parts := Binary64.decode x
  if parts.mantissa = 0 then layOut numberFormat parts.negative ['0'] 0
  else
    let decimal := Decimal.Shortest.ofBinary64 parts
    let ds := Decimal.digits decimal.digits
    layOut numberFormat parts.negative (trimZeros ds) (decimal.exponent + (ds.length - 1))

/-- A double as a value; one that is not finite has none. -/
def ofFloat (x : Float) : Json := if x.isFinite then .number (shortest x) else .null

/-- A natural number as a value. -/
def ofWord (n : UInt32) : Json := .number ⟨false, Decimal.digits n.toNat, [], []⟩

/-- A string as a value. -/
def ofString (s : String) : Json := .string (Json.Text.ofString s)

/-- A record as a value. -/
def ofRecord (names : List String) (values : List Json) : Json :=
  .object ((names.map Json.Text.ofString).zip values)

/-- A tagged record as a value, the tag first. -/
def ofTagged (tag : String) (names : List String) (values : List Json) : Json :=
  ofRecord (Json.tagName :: names) (ofString tag :: values)

/-- A point as a value. -/
def ofPoint (p : Point Float) : Json := .array [ofFloat p.x, ofFloat p.y]

/-- An obstacle as a value. -/
def ofObstacle : ObstacleLayout Float → Json
  | .spike x y =>
    ofTagged ObstacleLayout.spikeTag ObstacleLayout.spikeFields [ofFloat x, ofFloat y]
  | .wheel x y arms armLength speed =>
    ofTagged ObstacleLayout.wheelTag ObstacleLayout.wheelFields
      [ofFloat x, ofFloat y, ofWord arms, ofWord armLength, ofFloat speed]

/-- A motion as a value. -/
def ofMotion : MotionLayout Float → Json
  | .still => ofTagged MotionLayout.stillTag [] []
  | .bobbing amplitude frequency =>
    ofTagged MotionLayout.bobbingTag MotionLayout.bobbingFields
      [ofFloat amplitude, ofFloat frequency]

/-- The blueprint as a value. -/
def toJson (b : Blueprint Float) : Json :=
  ofRecord fields
    [ofWord b.id, ofString b.name, ofPoint b.start, ofPoint b.goal,
      .array (b.obstacles.map ofObstacle), ofMotion b.motion, ofWord b.targetEquations,
      ofFloat b.targetTime]

/-- The blueprint as a text. -/
def toText (b : Blueprint Float) : String := String.ofList b.toJson.render

end Blueprint

end RollingBall
