import RollingBall.Proofs.Blueprints.Fields
import RollingBall.Proofs.Blueprints.RoundTrip
import RollingBall.Proofs.Json.Soundness

/-!
# Blueprints in another order

A blueprint is described by the values of its fields and by nothing else, and so are its obstacles
and its motion by the fields that go with their tags. So the members may be written in any order and
others may stand among them, a field that is written twice is refused, and obstacles and motion that
are none may be left out. With the grammar of JSON this says which texts describe the same blueprint
(`Blueprint.reads_by_names`).

What is mixed into an obstacle or the motion is looked at even if it is unknown, so it has to stand
for something. Half of a surrogate pair does not. A number in the range of doubles need not: it is
read by scaling its significand, and both are rounded (`Blueprint.refuses_lost_members`).

## Main definitions

* `Blueprint.Rearranged`, `Blueprint.Repeated`, `Blueprint.Shortened`: what is done to the members.
* `Blueprint.reads_by_names`
-/

namespace RollingBall

open Json

namespace Blueprint

/-! ## Changes -/

section Changes

variable (fits : Json → Prop)

/-- A tagged value is the same, or other members are mixed into it. -/
inductive TaggedMix (fieldsOf : String → Option (List String)) : Json → Json → Prop where
  | same (v : Json) : TaggedMix fieldsOf v v
  | mixed {members mixed : List (Text × Json)} {known : List String}
      (hknown : Knows fieldsOf members known) (h : Mixes fits known members mixed) :
      TaggedMix fieldsOf (object members) (object mixed)

/-- A member of a blueprint is the same, or other members are mixed into its obstacles or its
motion. -/
inductive MemberMix : Text × Json → Text × Json → Prop where
  | same (m : Text × Json) : MemberMix m m
  | obstacles {name : Text} {items items' : List Json} (hname : name.decode? = some "obstacles")
      (h : List.Forall₂ (TaggedMix fits ObstacleLayout.fieldsOf) items items') :
      MemberMix (name, array items) (name, array items')
  | motion {name : Text} {v v' : Json} (hname : name.decode? = some "motion")
      (h : TaggedMix fits MotionLayout.fieldsOf v v') : MemberMix (name, v) (name, v')

/-- The members are those of the blueprint in any order, with others among them, and the same goes
for its obstacles and its motion. -/
def Rearranged (members members' : List (Text × Json)) : Prop :=
  ∃ kept, List.Forall₂ (MemberMix fits) members kept ∧
    Mixes (fun _ => True) fields kept members'

end Changes

/-- A member of the blueprint, of an obstacle or of the motion is there twice. -/
inductive Repeated : List (Text × Json) → List (Text × Json) → Prop where
  | field {members members' : List (Text × Json)} (h : Repeats fields members members') :
      Repeated members members'
  | obstacle {before after obstacle obstacle' : List (Text × Json)} {name : Text}
      {items items' : List Json} {known : List String} (hname : name.decode? = some "obstacles")
      (hknown : Knows ObstacleLayout.fieldsOf obstacle known)
      (h : Repeats known obstacle obstacle') :
      Repeated (before ++ (name, array (items ++ object obstacle :: items')) :: after)
        (before ++ (name, array (items ++ object obstacle' :: items')) :: after)
  | motion {before after motion motion' : List (Text × Json)} {name : Text} {known : List String}
      (hname : name.decode? = some "motion") (hknown : Knows MotionLayout.fieldsOf motion known)
      (h : Repeats known motion motion') :
      Repeated (before ++ (name, object motion) :: after)
        (before ++ (name, object motion') :: after)

/-- Empty obstacles or a motion that is none are left out. -/
inductive Shortened : List (Text × Json) → List (Text × Json) → Prop where
  | obstacles {before after : List (Text × Json)} {name : Text}
      (hname : name.decode? = some "obstacles") :
      Shortened (before ++ (name, array []) :: after) (before ++ after)
  | motion {before after : List (Text × Json)} {name : Text} {v content : Json}
      (hname : name.decode? = some "motion")
      (hv : v.tagged? = some (MotionLayout.stillTag, content)) :
      Shortened (before ++ (name, v) :: after) (before ++ after)

/-! ## What changes and what does not -/

variable {α : Type} [Scalar α] {depth : Nat} {members members' : List (Text × Json)}
  {b : Blueprint α}

theorem ofJson?_eq_none_of_repeats (h : Repeats fields members members') :
    (ofJson? depth (object members') : Option (Blueprint α)) = none := by
  unfold ofJson?
  rw [h.record?_eq_none]

section Mixed

variable {fits : Json → Prop} {m m' : Text × Json}

theorem MemberMix.fst_eq (h : MemberMix fits m m') : m'.1 = m.1 := by
  cases h with
  | same => rfl
  | obstacles hname h => rfl
  | motion hname h => rfl

theorem MemberMix.snd_eq (h : MemberMix fits m m') {name : String}
    (hname : m.1.decode? = some name) (hobstacles : name ≠ "obstacles")
    (hmotion : name ≠ "motion") : m'.2 = m.2 := by
  cases h with
  | same => rfl
  | obstacles hname' h => exact absurd (Option.some.inj (hname.symm.trans hname')) hobstacles
  | motion hname' h => exact absurd (Option.some.inj (hname.symm.trans hname')) hmotion

theorem named_of_memberMix (h : List.Forall₂ (MemberMix fits) members members')
    (hnamed : ∀ m ∈ members, m.1.decode?.isSome) : ∀ m ∈ members', m.1.decode?.isSome := by
  induction h with
  | nil => exact hnamed
  | cons hm _ ih =>
    obtain ⟨hfirst, hrest⟩ := List.forall_mem_cons.mp hnamed
    refine List.forall_mem_cons.mpr ⟨?_, ih hrest⟩
    rwa [hm.fst_eq]

end Mixed

section Mixing

variable {inner : Nat} (hdepth : inner < maxDepth - (depth + 2))

include hdepth

theorem TaggedMix.obstacle_eq {v v' : Json}
    (h : TaggedMix (fun v => v.sound α inner = true) ObstacleLayout.fieldsOf v v') :
    ObstacleLayout.ofJson? (depth + 2) v' =
      (ObstacleLayout.ofJson? (depth + 2) v : Option (ObstacleLayout α)) := by
  obtain _ | ⟨hknown, h⟩ := h
  · rfl
  · rw [ObstacleLayout.ofJson?_eq, ObstacleLayout.ofJson?_eq, h.sound_eq hdepth,
      h.readTagged?_eq hknown]

theorem TaggedMix.motion_eq {v v' : Json}
    (h : TaggedMix (fun v => v.sound α inner = true) MotionLayout.fieldsOf v v') :
    MotionLayout.ofJson? (depth + 1) v' =
      (MotionLayout.ofJson? (depth + 1) v : Option (MotionLayout α)) := by
  obtain _ | ⟨hknown, h⟩ := h
  · rfl
  · rw [MotionLayout.ofJson?_eq, MotionLayout.ofJson?_eq, h.sound_eq (by omega),
      h.readTagged?_eq hknown]

theorem MemberMix.obstacles_eq {m m' : Text × Json}
    (h : MemberMix (fun v => v.sound α inner = true) m m')
    (hname : m.1.decode? = some "obstacles") :
    obstaclesOf? depth (some m'.2) =
      (obstaclesOf? depth (some m.2) : Option (List (ObstacleLayout α))) := by
  cases h with
  | same => rfl
  | obstacles _ h =>
    exact mapM_eq_of_forall₂ (h.flip.imp fun v' v hv => hv.obstacle_eq hdepth)
  | motion hname' h => exact absurd (hname.symm.trans hname') (by decide)

theorem MemberMix.motion_eq {m m' : Text × Json}
    (h : MemberMix (fun v => v.sound α inner = true) m m') (hname : m.1.decode? = some "motion") :
    motionOf? depth (some m'.2) = (motionOf? depth (some m.2) : Option (MotionLayout α)) := by
  cases h with
  | same => rfl
  | obstacles hname' h => exact absurd (hname.symm.trans hname') (by decide)
  | motion _ h => exact h.motion_eq hdepth

/-- The blueprint is described as before by members in any order, with others among them. -/
theorem Rearranged.describes
    (h : Rearranged (fun v => v.sound α inner = true) members members')
    (hb : Describes depth members b) : Describes depth members' b := by
  obtain ⟨kept, hkept, hmixes⟩ := h
  have hmixed : ∀ {ρ : Type} {name : String} {read? : Option Json → Option ρ}, name ∈ fields →
      fieldOf? name read? members' = fieldOf? name read? kept := fun hname => by
    unfold fieldOf?
    rw [hmixes.valueOf?_eq hname]
  refine hb.of_fields (hmixes.named_iff.mpr (named_of_memberMix hkept hb.named)) ?_ ?_ ?_
  · intro ρ name read? hname hobstacles hmotion
    rw [hmixed hname]
    refine fieldOf?_eq_of_forall₂ (hkept.imp fun m m' hm => ⟨hm.fst_eq, fun hname => ?_⟩)
    rw [hm.snd_eq hname hobstacles hmotion]
  · rw [hmixed (by decide), ← hb.obstacles]
    exact fieldOf?_eq_of_forall₂ (hkept.imp fun m m' hm => ⟨hm.fst_eq, hm.obstacles_eq hdepth⟩)
  · rw [hmixed (by decide), ← hb.motion]
    exact fieldOf?_eq_of_forall₂ (hkept.imp fun m m' hm => ⟨hm.fst_eq, hm.motion_eq hdepth⟩)

end Mixing

/-- The blueprint is described as before if what stands for nothing is left out. -/
theorem Shortened.describes (h : Shortened members members') (hb : Describes depth members b) :
    Describes depth members' b := by
  have hnamed : ∀ {before after : List (Text × Json)} {m : Text × Json},
      (∀ m' ∈ before ++ m :: after, m'.1.decode?.isSome) →
      ∀ m' ∈ before ++ after, m'.1.decode?.isSome :=
    fun hall m' hm' => hall m' (((List.sublist_cons_self _ _).append_left _).subset hm')
  have hother : ∀ {t : Text} {name other : String}, t.decode? = some name → other ≠ name →
      t.decode? ≠ some other := by
    intro t name other hname hne heq
    exact hne (Option.some.inj (heq.symm.trans hname))
  cases h with
  | @obstacles before after name hname =>
    obtain ⟨hread, hrest⟩ := fieldOf?_middle hname hb.obstacles
    refine hb.of_fields (hnamed hb.named)
      (fun _ hne _ => fieldOf?_without (hother hname hne) before after) ?_ ?_
    · rw [hrest, ← hread]
      rfl
    · exact (fieldOf?_without (hother hname (by decide)) before after).trans hb.motion
  | @motion before after name v content hname hv =>
    obtain ⟨hread, hrest⟩ := fieldOf?_middle hname hb.motion
    refine hb.of_fields (hnamed hb.named)
      (fun _ _ hne => fieldOf?_without (hother hname hne) before after) ?_ ?_
    · exact (fieldOf?_without (hother hname (by decide)) before after).trans hb.obstacles
    · rw [hrest, MotionLayout.eq_still_of_tagged hv hread]
      rfl

/-- A blueprint in which a member is there twice is refused. -/
theorem Repeated.ofJson?_eq_none (h : Repeated members members') :
    (ofJson? depth (object members') : Option (Blueprint α)) = none := by
  rw [Option.eq_none_iff_forall_ne_some]
  intro b hread
  cases h with
  | field h =>
    rw [ofJson?_eq_none_of_repeats h] at hread
    contradiction
  | @obstacle before after obstacle obstacle' name items items' known hname hknown h =>
    have hnone : (ObstacleLayout.ofJson? (depth + 2) (object obstacle') :
        Option (ObstacleLayout α)) = none := by
      rw [ObstacleLayout.ofJson?_eq, h.readTagged?_eq_none hknown, ite_self]
    have hread := (ofJson?_object_iff.mp hread).obstacles
    rw [fieldOf?_eq_none hname] at hread
    · contradiction
    · exact mapM_eq_none_of_mem (List.mem_append_right items (.head items')) hnone
  | @motion before after motion motion' name known hname hknown h =>
    have hnone : (MotionLayout.ofJson? (depth + 1) (object motion') :
        Option (MotionLayout α)) = none := by
      rw [MotionLayout.ofJson?_eq, h.readTagged?_eq_none hknown, ite_self]
    have hread := (ofJson?_object_iff.mp hread).motion
    rw [fieldOf?_eq_none hname hnone] at hread
    contradiction

/-! ## Texts -/

theorem fromText?_of_denotes {text : String} {v : Json} (h : Denotes text.toList v) :
    (fromText? text : Option (Blueprint α)) = ofJson? 0 v := by
  unfold fromText?
  rw [parse?_eq_some_iff.mpr h, Option.bind_some]

/-- **Names.** Let two texts stand for objects, and let the first one be read as a blueprint. If the
members of the second are those of the first in any order, also in the obstacles and the motion,
with unknown ones among them, it is read as the same blueprint. Unknown members of the blueprint may
have any value, and those of an obstacle or the motion a sound one with at most 64 arrays and
objects within one another. If the second text has in addition a member with a known name that is
there already, it is refused. If it has no obstacles where the first has an empty list of them, or
no motion where the first has the one of still obstacles, it is read as the same blueprint. -/
theorem reads_by_names {text text' : String} {members members' : List (Text × Json)}
    {b : Blueprint α} (htext : Denotes text.toList (object members))
    (htext' : Denotes text'.toList (object members')) (hb : fromText? text = some b) :
    (Rearranged (fun v => v.sound α 64 = true) members members' → fromText? text' = some b) ∧
    (Repeated members members' → fromText? text' = (none : Option (Blueprint α))) ∧
    (Shortened members members' → fromText? text' = some b) := by
  rw [fromText?_of_denotes htext, ofJson?_object_iff] at hb
  rw [fromText?_of_denotes htext']
  refine ⟨fun h => ?_, fun h => h.ofJson?_eq_none, fun h => ?_⟩
  · exact ofJson?_object_iff.mpr (h.describes (by decide) hb)
  · exact ofJson?_object_iff.mpr (h.describes hb)

/-! ### A blueprint in other words -/

/-- The members as a text. -/
def textOf (members : List (Text × Json)) : String := String.ofList (object members).render

/-- The members of a spike. -/
def thorn : List (Text × Json) :=
  membersOf (tagName :: ObstacleLayout.spikeFields)
    [ofString ObstacleLayout.spikeTag, ofFloat 1.5, ofFloat (-2.0)]

/-- The members of a blueprint with this obstacle. -/
def hedge (obstacle : List (Text × Json)) : List (Text × Json) :=
  membersOf fields [ofWord 19, ofString "Hedge", ofPoint ⟨-6.0, 0.0⟩, ofPoint ⟨6.0, 1.0⟩,
    array [object obstacle], ofMotion .still, ofWord 1, ofFloat 9.0]

/-- The blueprint that the members describe. -/
def hedgeBlueprint : Blueprint Float :=
  ⟨19, "Hedge", ⟨-6.0, 0.0⟩, ⟨6.0, 1.0⟩, [.spike 1.5 (-2.0)], .still, 1, 9.0⟩

theorem knows_thorn :
    Knows ObstacleLayout.fieldsOf thorn (tagName :: ObstacleLayout.spikeFields) :=
  ⟨_, _, _, tagged?_ofTagged ObstacleLayout.spikeTag (by decide), rfl, rfl⟩

theorem fromText?_hedge :
    fromText? (textOf (hedge thorn)) = some hedgeBlueprint := by
  have hfinite : ∀ x ∈ hedgeBlueprint.numbers, x.isFinite = true := by decide +kernel
  have hsmall : ∀ x ∈ hedgeBlueprint.numbers,
      (shortest x).significand.2.natAbs ≤ Number.greatestPower := by
    decide +kernel
  have hback : ∀ x ∈ hedgeBlueprint.numbers, ReadsBack x := by
    intro x hx
    unfold ReadsBack
    rw [Number.toScalar?_of_le (hsmall x hx)]
    revert x
    decide +kernel
  have htext := fromText?_toText hedgeBlueprint
  rw [ofJson?_toJson_of_restored fun x hx => ⟨hfinite x hx, hback x hx⟩] at htext
  exact htext

theorem grammatical_object_iff {members : List (Text × Json)} :
    (object members).Grammatical ↔ ∀ m ∈ members, m.1.Grammatical ∧ m.2.Grammatical := by
  constructor
  · rintro (_ | _ | _ | _ | _ | ⟨hnames, hvalues⟩) m hm
    exact ⟨hnames m hm, hvalues m hm⟩
  · exact fun h => .object (fun m hm => (h m hm).1) fun m hm => (h m hm).2

theorem grammatical_hedge {obstacle : List (Text × Json)} (h : (object obstacle).Grammatical) :
    (object (hedge obstacle)).Grammatical := by
  have hobstacles : (array [object obstacle]).Grammatical := .array (by simpa using h)
  have hname : (ofString "Hedge").Grammatical := .string (grammatical_ofString _)
  exact grammatical_ofRecord (by
    simp [hname, hobstacles, grammatical_ofWord, grammatical_ofPoint, grammatical_ofMotion,
      grammatical_ofFloat])

theorem grammatical_thorn : (object thorn).Grammatical := grammatical_ofObstacle (.spike 1.5 (-2.0))

theorem denotes_textOf {members : List (Text × Json)} (h : (object members).Grammatical) :
    Denotes (textOf members).toList (object members) := by
  unfold textOf
  rw [String.toList_ofList]
  exact h.denotes_render

theorem memberMix_hedge {fits : Json → Prop} {obstacle : List (Text × Json)}
    (h : Mixes fits (tagName :: ObstacleLayout.spikeFields) thorn obstacle) :
    List.Forall₂ (MemberMix fits) (hedge thorn) (hedge obstacle) := by
  have hobstacles : MemberMix fits (Text.ofString "obstacles", array [object thorn])
      (Text.ofString "obstacles", array [object obstacle]) :=
    .obstacles (decode?_ofString _) (.cons (.mixed knows_thorn h) .nil)
  exact .cons (.same _) (.cons (.same _) (.cons (.same _) (.cons (.same _) (.cons hobstacles
    (.cons (.same _) (.cons (.same _) (.cons (.same _) .nil)))))))

/-- An unknown member. -/
def note : Text × Json := (Text.ofString "note", array [null, ofString "x"])

theorem foreign_note {known : List String} (h : "note" ∉ known) : Foreign known note :=
  ⟨"note", decode?_ofString _, h⟩

theorem grammatical_note : note.1.Grammatical ∧ note.2.Grammatical := by
  have hvalue : (ofString "x").Grammatical := .string (grammatical_ofString _)
  exact ⟨grammatical_ofString _, .array (by simp [Json.Grammatical.null, hvalue])⟩

theorem grammatical_object_of_mem {members members' : List (Text × Json)}
    (h : (object members).Grammatical) (hmem : ∀ m ∈ members', m ∈ members ∨ m = note) :
    (object members').Grammatical := by
  rw [grammatical_object_iff] at h ⊢
  intro m hm
  rcases hmem m hm with hm | rfl
  · exact h m hm
  · exact grammatical_note

theorem reads_by_names_hedge :
    fromText? (textOf ((hedge (thorn.reverse ++ [note])).reverse ++ [note])) =
      some hedgeBlueprint ∧
    fromText? (textOf (hedge ((Text.ofString "y", ofFloat 3.0) :: thorn))) =
      (none : Option (Blueprint Float)) ∧
    fromText? (textOf ((hedge thorn).take 5 ++ (hedge thorn).drop 6)) = some hedgeBlueprint := by
  have hhedge := grammatical_hedge grammatical_thorn
  have htext := denotes_textOf hhedge
  refine ⟨?_, ?_, ?_⟩
  · have hobstacle : (object (thorn.reverse ++ [note])).Grammatical :=
      grammatical_object_of_mem grammatical_thorn (by simp)
    have hmembers : (object ((hedge (thorn.reverse ++ [note])).reverse ++ [note])).Grammatical :=
      grammatical_object_of_mem (grammatical_hedge hobstacle) (by simp)
    have hmixes : Mixes (fun v => v.sound Float 64 = true)
        (tagName :: ObstacleLayout.spikeFields) thorn (thorn.reverse ++ [note]) :=
      mixes_concat (foreign_note (by decide)) (by decide) (List.reverse_perm thorn)
    refine (reads_by_names htext (denotes_textOf hmembers) fromText?_hedge).1 ?_
    exact ⟨_, memberMix_hedge hmixes,
      mixes_concat (foreign_note (by decide)) trivial (List.reverse_perm _)⟩
  · have hmember : (Text.ofString "y", ofFloat (-2.0)) ∈ thorn := by
      simp [thorn, ObstacleLayout.spikeFields]
    have hobstacle : (object ((Text.ofString "y", ofFloat 3.0) :: thorn)).Grammatical :=
      grammatical_object_iff.mpr (List.forall_mem_cons.mpr
        ⟨⟨grammatical_ofString _, grammatical_ofFloat 3.0⟩,
          grammatical_object_iff.mp grammatical_thorn⟩)
    have hrepeats : Repeats (tagName :: ObstacleLayout.spikeFields) thorn
        ((Text.ofString "y", ofFloat 3.0) :: thorn) :=
      ⟨"y", by decide, _, hmember, _, decode?_ofString _, decode?_ofString _, .refl _⟩
    refine (reads_by_names htext (denotes_textOf (grammatical_hedge hobstacle))
      fromText?_hedge).2.1 ?_
    show Repeated ((hedge thorn).take 4 ++ (Text.ofString "obstacles",
        array ([] ++ object thorn :: [])) :: (hedge thorn).drop 5)
      ((hedge thorn).take 4 ++ (Text.ofString "obstacles",
        array ([] ++ object ((Text.ofString "y", ofFloat 3.0) :: thorn) :: [])) ::
          (hedge thorn).drop 5)
    exact .obstacle (decode?_ofString _) knows_thorn hrepeats
  · have hmembers : (object ((hedge thorn).take 5 ++ (hedge thorn).drop 6)).Grammatical :=
      grammatical_object_of_mem hhedge fun m hm => .inl ((List.mem_append.mp hm).elim
        List.mem_of_mem_take List.mem_of_mem_drop)
    refine (reads_by_names htext (denotes_textOf hmembers) fromText?_hedge).2.2 ?_
    show Shortened ((hedge thorn).take 5 ++ (Text.ofString "motion", ofMotion .still) ::
      (hedge thorn).drop 6) _
    exact .motion (decode?_ofString _) (tagged?_ofTagged MotionLayout.stillTag (by decide))

end Blueprint

/-! ### Members that stand for nothing -/

/-- The number as written, exactly. -/
def Json.Number.exact (n : Number) : ℚ :=
  (if n.negative then -1 else 1) * Decimal.ofDigits (n.whole ++ n.fraction) *
    10 ^ (n.exponentValue - n.fraction.length)

namespace Blueprint

/-- A number below the greatest double. Its significand and its power of ten are both rounded up,
and their product is not finite. -/
def vast : Number := ⟨false, Decimal.digits 17976931348623156225, [], Decimal.digits 289⟩

/-- Half of a surrogate pair. -/
def half : Text := [.surrogate 0xD800]

theorem grammatical_vast : vast.Grammatical where
  whole := Decimal.isWhole_digits 17976931348623156225
  fraction := by simp [vast]
  exponent := by
    have hexponent : Number.IsExponent ([] ++ Decimal.digits 289) :=
      .some (.inl rfl) Nat.toDigits_ne_nil fun d => Decimal.isDigit_of_mem_digits
    exact hexponent

theorem toScalar?_vast : (vast.toScalar? : Option Float) = none := by
  rw [Number.toScalar?_of_le (by decide +kernel)]
  decide +kernel

theorem abs_exact_vast : |(vast.exact : ℝ)| ≤ Double.greatest := by
  have hdigits : Decimal.ofDigits (vast.whole ++ vast.fraction) = 17976931348623156225 := by
    decide +kernel
  have hexponent : vast.exponentValue - vast.fraction.length = (289 : ℕ) := by decide +kernel
  have hexact : vast.exact = (17976931348623156225 * 10 ^ 289 : ℕ) := by
    unfold Number.exact
    rw [hdigits, hexponent, zpow_natCast, if_neg (by decide), one_mul, Nat.cast_mul, Nat.cast_pow,
      Nat.cast_ofNat (n := 10)]
  have hle : ∀ {a b n : ℕ}, a ≤ b * 2 ^ n → (a : ℝ) ≤ b * 2 ^ n := by
    intro a b n h
    exact_mod_cast h
  have hbits : ((2 ^ 53 - 1 : ℤ) : ℝ) = (9007199254740991 : ℕ) := by norm_num
  rw [hexact, Rat.cast_natCast, Nat.abs_cast, Double.greatest_eq, hbits,
    show (971 : ℤ) = (971 : ℕ) from rfl, zpow_natCast]
  exact hle (by decide +kernel)

/-- The members of a spike with an unknown one. -/
def thornWith (v : Json) : List (Text × Json) := thorn ++ [(Text.ofString "note", v)]

theorem ofJson?_thornWith {v : Json} (hv : v.sound Float (maxDepth - 3) = false) :
    (ObstacleLayout.ofJson? 2 (object (thornWith v)) : Option (ObstacleLayout Float)) = none := by
  rw [ObstacleLayout.ofJson?_eq, if_neg]
  intro hsound
  rw [sound, Bool.and_eq_true, soundMembers_iff] at hsound
  have hnote : v.sound Float (maxDepth - 3) = true :=
    (hsound.2 (Text.ofString "note", v) (by simp [thornWith])).2
  rw [hv] at hnote
  contradiction

/-- An unknown member of an obstacle is refused if it stands for nothing. -/
theorem fromText?_thornWith {v : Json} (hgrammatical : v.Grammatical)
    (hv : v.sound Float (maxDepth - 3) = false) :
    ∃ (text text' : String) (members members' : List (Text × Json)),
      Denotes text.toList (object members) ∧ Denotes text'.toList (object members') ∧
      Rearranged (· = v) members members' ∧
      fromText? text = some hedgeBlueprint ∧
      fromText? text' = (none : Option (Blueprint Float)) := by
  have hthorn : (object (thornWith v)).Grammatical := by
    rw [grammatical_object_iff, thornWith, List.forall_mem_append, List.forall_mem_singleton]
    exact ⟨grammatical_object_iff.mp grammatical_thorn, grammatical_ofString _, hgrammatical⟩
  have htext := denotes_textOf (grammatical_hedge hthorn)
  have hmixes : Mixes (· = v) (tagName :: ObstacleLayout.spikeFields) thorn (thornWith v) :=
    mixes_concat ⟨"note", decode?_ofString _, by decide⟩ rfl (.refl thorn)
  refine ⟨_, _, _, _, denotes_textOf (grammatical_hedge grammatical_thorn), htext,
    ⟨_, memberMix_hedge hmixes, [], by simp, by simp⟩, fromText?_hedge, ?_⟩
  rw [fromText?_of_denotes htext, Option.eq_none_iff_forall_ne_some]
  intro b hb
  have hobstacles := (ofJson?_object_iff.mp hb).obstacles
  have hnone : fieldOf? "obstacles" (obstaclesOf? 0) (hedge (thornWith v)) =
      (none : Option (List (ObstacleLayout Float))) :=
    fieldOf?_eq_none (m := (Text.ofString "obstacles", array [object (thornWith v)]))
      (decode?_ofString _) (mapM_eq_none_of_mem (.head []) (ofJson?_thornWith hv))
      ((hedge (thornWith v)).take 4) ((hedge (thornWith v)).drop 5)
  rw [hnone] at hobstacles
  contradiction

/-- A number in the range of doubles, and a string that names half of a surrogate pair, may be
refused as an unknown member of an obstacle. -/
theorem refuses_lost_members :
    |(vast.exact : ℝ)| ≤ Double.greatest ∧
      ∀ v ∈ [number vast, string half],
        ∃ (text text' : String) (members members' : List (Text × Json)),
          Denotes text.toList (object members) ∧ Denotes text'.toList (object members') ∧
          Rearranged (· = v) members members' ∧
          fromText? text = some hedgeBlueprint ∧
          fromText? text' = (none : Option (Blueprint Float)) := by
  have hvast : (number vast).sound Float (maxDepth - 3) = false := by
    rw [sound, toScalar?_vast]
    rfl
  have hhalf : half.Grammatical := by
    intro code hcode
    obtain rfl : code = 0xD800 := by simpa [half] using hcode
    decide
  simp only [List.forall_mem_cons]
  exact ⟨abs_exact_vast, fromText?_thornWith (.number grammatical_vast) hvast,
    fromText?_thornWith (.string hhalf) (by decide), by simp⟩

end Blueprint

end RollingBall
