/-!
# A permuted congruential generator

The generator steps a 64-bit state by a linear recurrence, modulo `2 ^ 64`, and answers with 32 bits
of it: the state is folded onto itself and rotated by its own topmost bits. A seed is spread over
state and increment by a first run of the same recurrence.

## Main definitions

* `Generator.ofSeed`: the generator that a seed starts.
* `Generator.next32`, `Generator.next64`: the next word or double word, and the generator after it.
-/

namespace RollingBall

/-- The state of the generator and the odd increment of its recurrence. -/
structure Generator where
  state : UInt64
  increment : UInt64
deriving DecidableEq, Repr

namespace Generator

/-- The factor of the recurrence. -/
def multiplier : UInt64 := 6364136223846793005

/-- The 32 bits that a state answers with. -/
def output (state : UInt64) : UInt32 :=
  let word := (((state >>> 18) ^^^ state) >>> 27).toUInt32
  let turns := (state >>> 59).toUInt32
  (word >>> turns) ||| (word <<< ((32 - turns) % 32))

/-- The state after one step of the recurrence. -/
def step (g : Generator) : Generator := { g with state := g.state * multiplier + g.increment }

/-- The words that spread a seed. -/
def seedWord (seed : UInt64) : UInt64 × UInt64 :=
  let next := seed * multiplier + 11634580027462260723
  ((output next).toUInt64, next)

/-- The generator that a seed starts. -/
def ofSeed (seed : UInt64) : Generator :=
  let (w₀, s) := seedWord seed
  let (w₁, s) := seedWord s
  let (w₂, s) := seedWord s
  let (w₃, _) := seedWord s
  let increment := (w₂ ||| (w₃ <<< 32)) ||| 1
  step ⟨(w₀ ||| (w₁ <<< 32)) + increment, increment⟩

/-- The next word. -/
def next32 (g : Generator) : UInt32 × Generator := (output g.state, g.step)

/-- The next double word, its low half first. -/
def next64 (g : Generator) : UInt64 × Generator :=
  let (low, g) := g.next32
  let (high, g) := g.next32
  (low.toUInt64 ||| (high.toUInt64 <<< 32), g)

end Generator

end RollingBall
