import RollingBall.Proofs.Blueprints.Members

/-!
# The fields of a blueprint

Obstacles and motion are tagged values, and what is read of one depends on its tag and on the fields
that go with it (`ObstacleLayout.ofJson?_eq`, `MotionLayout.ofJson?_eq`). A blueprint is described
by the values of its fields and by nothing else (`Blueprint.ofJson?_object_iff`).

## Main definitions

* `Blueprint.fieldOf?`: what is read of a field.
* `Blueprint.Describes`: the fields of the members are those of the blueprint.
-/

namespace RollingBall

open Json

/-! ## Obstacles and motion -/

section Tagged

variable {α : Type} [Scalar α] {depth : Nat}

namespace ObstacleLayout

/-- The names of the fields that go with a tag. -/
def fieldsOf (tag : String) : Option (List String) :=
  if tag = spikeTag then some spikeFields else if tag = wheelTag then some wheelFields else none

/-- The obstacle with this tag and these fields. -/
def ofFields? (tag : String) (fields : Fields) : Option (ObstacleLayout α) :=
  if tag = spikeTag then ofSpikeFields? fields
  else if tag = wheelTag then ofWheelFields? fields else none

theorem ofJson?_eq (v : Json) : (ofJson? depth v : Option (ObstacleLayout α)) =
    if v.sound α (maxDepth - depth) then readTagged? fieldsOf ofFields? v else none := by
  unfold ofJson? readTagged?
  split
  · cases v.tagged? with
    | none => rfl
    | some tagged =>
      obtain ⟨tag, content⟩ := tagged
      unfold fieldsOf ofFields?
      by_cases hspike : tag = spikeTag
      · simp [hspike]
      · by_cases hwheel : tag = wheelTag
        · simp [hwheel, spikeTag, wheelTag]
        · simp [hspike, hwheel]
  · rfl

end ObstacleLayout

namespace MotionLayout

/-- The names of the fields that go with a tag. -/
def fieldsOf (tag : String) : Option (List String) :=
  if tag = stillTag then some [] else if tag = bobbingTag then some bobbingFields else none

/-- The motion with this tag and these fields. -/
def ofFields? (tag : String) (fields : Fields) : Option (MotionLayout α) :=
  if tag = stillTag then some .still
  else if tag = bobbingTag then ofBobbingFields? fields else none

theorem ofJson?_eq (v : Json) : (ofJson? depth v : Option (MotionLayout α)) =
    if v.sound α (maxDepth - depth) then readTagged? fieldsOf ofFields? v else none := by
  unfold ofJson? readTagged?
  split
  · cases v.tagged? with
    | none => rfl
    | some tagged =>
      obtain ⟨tag, content⟩ := tagged
      unfold fieldsOf ofFields?
      by_cases hstill : tag = stillTag
      · cases hrecord : content.record? [] with
        | none => simp [hstill, hrecord]
        | some fields => simp [hstill, hrecord]
      · by_cases hbobbing : tag = bobbingTag
        · simp [hbobbing, stillTag, bobbingTag]
        · simp [hstill, hbobbing]
  · rfl

theorem eq_still_of_tagged {v content : Json} (hv : v.tagged? = some (stillTag, content))
    {motion : MotionLayout α} (h : ofJson? depth v = some motion) : motion = .still := by
  rw [ofJson?_eq] at h
  split at h
  · unfold readTagged? at h
    rw [hv] at h
    simp only [Option.bind_eq_bind, Option.bind_some, Option.bind_eq_some_iff] at h
    obtain ⟨names, -, fields, -, h⟩ := h
    exact (Option.some.inj h).symm
  · contradiction

end MotionLayout

end Tagged

namespace Blueprint

/-! ## Fields -/

/-- What is read of the field with this name. -/
def fieldOf? {ρ : Type} (name : String) (read? : Option Json → Option ρ)
    (members : List (Text × Json)) : Option ρ :=
  (valueOf? name members).bind read?

/-- The reading of a field that may not be left out. -/
def required {ρ : Type} (read? : Json → Option ρ) (v : Option Json) : Option ρ := v.bind read?

theorem fieldOf?_required_iff {ρ : Type} {name : String} {read? : Json → Option ρ}
    {members : List (Text × Json)} {x : ρ} :
    fieldOf? name (required read?) members = some x ↔
      ∃ v, valueOf? name members = some (some v) ∧ read? v = some x := by
  unfold fieldOf? required
  constructor
  · intro h
    obtain ⟨v?, hv, hread⟩ := Option.bind_eq_some_iff.mp h
    obtain ⟨v, rfl, hread⟩ := Option.bind_eq_some_iff.mp hread
    exact ⟨v, hv, hread⟩
  · rintro ⟨v, hv, hread⟩
    rw [hv, Option.bind_some, Option.bind_some, hread]

section Lookup

variable {ρ : Type} {name : String} {read? : Option Json → Option ρ}
  {members members' : List (Text × Json)}

theorem fieldOf?_eq_of_forall₂
    (h : List.Forall₂ (fun m m' => m'.1 = m.1 ∧
      (m.1.decode? = some name → read? (some m'.2) = read? (some m.2))) members members') :
    fieldOf? name read? members' = fieldOf? name read? members := by
  have hvalues := valuesOf_forall₂ (R := fun v v' => read? (some v') = read? (some v)) h
  unfold fieldOf? valueOf?
  revert hvalues
  generalize valuesOf name members = values
  generalize valuesOf name members' = values'
  rintro (_ | ⟨hv, _ | ⟨hw, hrest⟩⟩)
  · rfl
  · exact hv
  · rfl

variable {m : Text × Json} {before after : List (Text × Json)}

/-- A field is read from the member that has its name, and without this member as if it had been
left out. -/
theorem fieldOf?_middle (hname : m.1.decode? = some name) {x : ρ}
    (hread : fieldOf? name read? (before ++ m :: after) = some x) :
    read? (some m.2) = some x ∧ fieldOf? name read? (before ++ after) = read? none := by
  unfold fieldOf? at hread ⊢
  rcases valueOf?_middle hname before after with hnone | ⟨hvalue, hrest⟩
  · rw [hnone] at hread
    contradiction
  · rw [hvalue, Option.bind_some] at hread
    rw [hrest, Option.bind_some]
    exact ⟨hread, rfl⟩

theorem fieldOf?_eq_none (hname : m.1.decode? = some name) (hread : read? (some m.2) = none)
    (before after : List (Text × Json)) :
    fieldOf? name read? (before ++ m :: after) = none := by
  rw [Option.eq_none_iff_forall_ne_some]
  intro x hx
  rw [(fieldOf?_middle hname hx).1] at hread
  contradiction

/-- A member with another name does not matter. -/
theorem fieldOf?_without (hname : m.1.decode? ≠ some name) (before after : List (Text × Json)) :
    fieldOf? name read? (before ++ after) = fieldOf? name read? (before ++ m :: after) := by
  unfold fieldOf?
  rw [valueOf?_without hname]

end Lookup

variable {α : Type} [Scalar α]

/-! ## Blueprints -/

/-- The members describe the blueprint, field by field. -/
structure Describes (depth : Nat) (members : List (Text × Json)) (b : Blueprint α) : Prop where
  named : ∀ m ∈ members, m.1.decode?.isSome
  id : fieldOf? "id" (required toWord?) members = some b.id
  name : fieldOf? "name" (required toString?) members = some b.name
  start : fieldOf? "start" (required toPoint?) members = some b.start
  goal : fieldOf? "goal" (required toPoint?) members = some b.goal
  obstacles : fieldOf? "obstacles" (obstaclesOf? depth) members = some b.obstacles
  motion : fieldOf? "motion" (motionOf? depth) members = some b.motion
  targetEquations : fieldOf? "target_equations" (required toWord?) members =
    some b.targetEquations
  targetTime : fieldOf? "target_time" (required toScalar?) members = some b.targetTime

theorem ofJson?_object_iff {depth : Nat} {members : List (Text × Json)} {b : Blueprint α} :
    ofJson? depth (object members) = some b ↔ Describes depth members b := by
  unfold ofJson?
  constructor
  · intro h
    split at h
    · rename_i id name start goal obstacles motion equations time hrecord
      obtain ⟨hnamed, hfields⟩ := record?_object_iff.mp hrecord
      simp only [fields, List.forall₂_cons, List.forall₂_nil_left_iff, and_true] at hfields
      obtain ⟨hid, hname, hstart, hgoal, hobstacles, hmotion, hequations, htime⟩ := hfields
      simp only [Option.bind_eq_bind, Option.bind_eq_some_iff, Option.pure_def] at h
      obtain ⟨id', hid', name', hname', start', hstart', goal', hgoal', obstacles', hobstacles',
        motion', hmotion', equations', hequations', time', htime', heq⟩ := h
      obtain rfl := Option.some.inj heq
      refine ⟨hnamed, ?_, ?_, ?_, ?_, ?_, ?_, ?_, ?_⟩
      all_goals simp [fieldOf?, required, *]
    · contradiction
  · intro h
    obtain ⟨id, hid, hid'⟩ := fieldOf?_required_iff.mp h.id
    obtain ⟨name, hname, hname'⟩ := fieldOf?_required_iff.mp h.name
    obtain ⟨start, hstart, hstart'⟩ := fieldOf?_required_iff.mp h.start
    obtain ⟨goal, hgoal, hgoal'⟩ := fieldOf?_required_iff.mp h.goal
    obtain ⟨obstacles, hobstacles, hobstacles'⟩ := Option.bind_eq_some_iff.mp h.obstacles
    obtain ⟨motion, hmotion, hmotion'⟩ := Option.bind_eq_some_iff.mp h.motion
    obtain ⟨equations, hequations, hequations'⟩ := fieldOf?_required_iff.mp h.targetEquations
    obtain ⟨time, htime, htime'⟩ := fieldOf?_required_iff.mp h.targetTime
    have hrecord : (object members).record? fields = some [some id, some name, some start,
        some goal, obstacles, motion, some equations, some time] :=
      record?_object_iff.mpr ⟨h.named, by
        simp [fields, hid, hname, hstart, hgoal, hobstacles, hmotion, hequations, htime]⟩
    rw [hrecord]
    simp [hid', hname', hstart', hgoal', hobstacles', hmotion', hequations', htime']

variable {depth : Nat} {members members' : List (Text × Json)} {b : Blueprint α}

/-- Other members describe the blueprint as well if its fields are read from them as before. -/
theorem Describes.of_fields (h : Describes depth members b)
    (hnamed : ∀ m ∈ members', m.1.decode?.isSome)
    (hplain : ∀ {ρ : Type} {name : String} {read? : Option Json → Option ρ}, name ∈ fields →
      name ≠ "obstacles" → name ≠ "motion" →
        fieldOf? name read? members' = fieldOf? name read? members)
    (hobstacles : fieldOf? "obstacles" (obstaclesOf? depth) members' = some b.obstacles)
    (hmotion : fieldOf? "motion" (motionOf? depth) members' = some b.motion) :
    Describes depth members' b where
  named := hnamed
  id := (hplain (by decide) (by decide) (by decide)).trans h.id
  name := (hplain (by decide) (by decide) (by decide)).trans h.name
  start := (hplain (by decide) (by decide) (by decide)).trans h.start
  goal := (hplain (by decide) (by decide) (by decide)).trans h.goal
  obstacles := hobstacles
  motion := hmotion
  targetEquations := (hplain (by decide) (by decide) (by decide)).trans h.targetEquations
  targetTime := (hplain (by decide) (by decide) (by decide)).trans h.targetTime

end Blueprint

end RollingBall
