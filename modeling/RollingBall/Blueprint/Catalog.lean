import RollingBall.Blueprint

/-!
# The built-in levels

Five levels, in the order they are played. Their ids are their places in the catalog.
-/

namespace RollingBall.Blueprint

variable {α : Type} [Scalar α]

/-- An open slope. -/
def level1 : Blueprint α where
  id := 0
  name := "Level 1"
  start := ⟨-6.0, 0.0⟩
  goal := ⟨6.0, 4.0⟩
  obstacles := []
  motion := .still
  targetEquations := 1
  targetTime := 9.0

/-- Three columns of spikes that call for a wave. -/
def level2 : Blueprint α where
  id := 1
  name := "Level 2"
  start := ⟨-7.0, -3.0⟩
  goal := ⟨7.0, -3.0⟩
  obstacles := (List.range 8).flatMap fun n =>
    let i : α := Scalar.ofNat n
    [.spike (-4.0) (-i), .spike 0.0 i, .spike 4.0 (-i)]
  motion := .still
  targetEquations := 1
  targetTime := 12.6

/-- A column and two rows of spikes with a gap below the column. -/
def level3 : Blueprint α where
  id := 2
  name := "Level 3"
  start := ⟨-6.0, 3.0⟩
  goal := ⟨6.0, 3.0⟩
  obstacles :=
    (List.range 8).map (fun n => .spike 0.0 (Scalar.ofNat n)) ++
      (List.range 5).flatMap fun n =>
        let i : α := Scalar.ofNat n
        [.spike (-3.0 - i) 0.0, .spike (3.0 + i) 0.0]
  motion := .still
  targetEquations := 1
  targetTime := 9.4

/-- A tunnel of spikes that bobs and bends. -/
def level4 : Blueprint α where
  id := 3
  name := "Level 4"
  start := ⟨-6.0, 0.0⟩
  goal := ⟨6.0, 0.0⟩
  obstacles := (List.range 8).flatMap fun n =>
    let i : α := Scalar.ofNat n
    let wave := 3.0 * Scalar.cos ((i - 3.0) / 7.0 * Scalar.pi)
    [.spike (-i) 2.0, .spike (-i) (-2.0),
      .spike (i + 1.0) (2.0 + wave), .spike (i + 1.0) (-2.0 + wave)]
  motion := .bobbing 1.5 0.5
  targetEquations := 2
  targetTime := 8.3

/-- A wheel in the middle. -/
def level5 : Blueprint α where
  id := 4
  name := "Level 5"
  start := ⟨-6.0, 0.0⟩
  goal := ⟨6.0, 0.0⟩
  obstacles := [.wheel 0.0 0.0 5 5 (-0.8)]
  motion := .still
  targetEquations := 1
  targetTime := 7.9

/-- The built-in levels. -/
def builtin : List (Blueprint α) := [level1, level2, level3, level4, level5]

/-- The built-in level with this id. -/
def byId? (id : Nat) : Option (Blueprint α) := builtin.find? fun b => b.id.toNat = id

/-- The built-in level that follows. -/
def next? (b : Blueprint α) : Option (Blueprint α) := byId? (b.id.toNat + 1)

end RollingBall.Blueprint
