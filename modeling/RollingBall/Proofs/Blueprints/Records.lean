import Mathlib.Data.List.Forall2
import RollingBall.Blueprint.Json

/-!
# Records are read back

A record is written as an object with a member for each field, a tagged one with its tag first.
Since the names of the fields are different, each name finds its own value again
(`Json.record?_ofRecord`), and what is left of a tagged record without its tag is the record
(`Json.tagged?_ofTagged`).
-/

namespace RollingBall

open Blueprint

namespace Json

/-! ## Strings -/

theorem chars?_ofChars (cs : List Char) : Text.chars? (Text.ofChars cs) = some cs := by
  induction cs with
  | nil => rfl
  | cons c cs ih =>
    show (Text.chars? (Text.ofChars cs)).map (c :: ·) = _
    rw [ih, Option.map_some]

/-- A string that is written without surrogates stands for itself. -/
@[simp] theorem decode?_ofString (s : String) : (Text.ofString s).decode? = some s := by
  unfold Text.ofString Text.decode?
  rw [chars?_ofChars, Option.map_some, String.ofList_toList]

@[simp] theorem toString?_ofString (s : String) : (ofString s).toString? = some s :=
  decode?_ofString s

/-! ## Members -/

/-- The members of a record as written. -/
def membersOf (names : List String) (values : List Json) : List (Text × Json) :=
  (names.map Text.ofString).zip values

@[simp] theorem membersOf_cons (name : String) (names : List String) (v : Json)
    (values : List Json) : membersOf (name :: names) (v :: values) =
      (Text.ofString name, v) :: membersOf names values := rfl

theorem ofRecord_eq (names : List String) (values : List Json) :
    ofRecord names values = object (membersOf names values) := rfl

/-- The name of a member is that of a field. -/
theorem exists_of_mem_membersOf {names : List String} {values : List Json} {m : Text × Json}
    (h : m ∈ membersOf names values) : ∃ name ∈ names, m.1 = Text.ofString name := by
  obtain ⟨name, hname, heq⟩ := List.mem_map.mp (List.of_mem_zip h).1
  exact ⟨name, hname, heq.symm⟩

theorem value_of_mem_membersOf {names : List String} {values : List Json} {m : Text × Json}
    (h : m ∈ membersOf names values) : m.2 ∈ values :=
  (List.of_mem_zip h).2

theorem valuesOf_of_not_mem {names : List String} {name : String} (h : name ∉ names)
    (values : List Json) : valuesOf name (membersOf names values) = [] := by
  have hnone : (membersOf names values).filter (fun m => m.1.decode? = some name) = [] := by
    rw [List.filter_eq_nil_iff]
    intro m hm hname
    obtain ⟨other, hother, heq⟩ := exists_of_mem_membersOf hm
    rw [heq, decode?_ofString, decide_eq_true_eq, Option.some.injEq] at hname
    exact h (hname ▸ hother)
  unfold valuesOf
  rw [hnone, List.map_nil]

/-- Each name finds its own value. -/
theorem valuesOf_of_mem {names : List String} (hnames : names.Nodup) {values : List Json}
    {name : String} {v : Json} (h : (name, v) ∈ names.zip values) :
    valuesOf name (membersOf names values) = [v] := by
  induction names generalizing values with
  | nil => exact absurd h (by simp)
  | cons other names ih =>
    cases values with
    | nil => exact absurd h (by simp)
    | cons w values =>
      obtain ⟨hother, hnames⟩ := List.nodup_cons.mp hnames
      rw [membersOf_cons]
      unfold valuesOf
      rcases List.mem_cons.mp h with heq | h
      · obtain ⟨rfl, rfl⟩ := Prod.mk.inj heq
        rw [List.filter_cons_of_pos (by simp), List.map_cons]
        exact congrArg (v :: ·) (valuesOf_of_not_mem hother values)
      · have hne : other ≠ name := by
          rintro rfl
          exact hother (List.of_mem_zip h).1
        rw [List.filter_cons_of_neg (by simpa using hne)]
        exact ih hnames h

/-! ## Records -/

/-- A list is read item by item. -/
theorem mapM_of_forall₂ {ρ σ : Type} {f : ρ → Option σ} {as : List ρ} {bs : List σ}
    (h : List.Forall₂ (fun a b => f a = some b) as bs) : as.mapM f = some bs := by
  induction h with
  | nil => rfl
  | cons hab _ ih => rw [List.mapM_cons, hab, ih]; rfl

theorem mapM_eq_none_of_mem {ρ σ : Type} {f : ρ → Option σ} {items : List ρ} {item : ρ}
    (hitem : item ∈ items) (h : f item = none) : items.mapM f = none := by
  induction items with
  | nil => exact absurd hitem (by simp)
  | cons first items ih =>
    rw [List.mapM_cons]
    rcases List.mem_cons.mp hitem with rfl | hitem
    · rw [h]
      rfl
    · simp [ih hitem]

section Records

variable {names : List String} {values : List Json}

theorem fieldsOf?_membersOf (hnames : names.Nodup) (hlength : names.length = values.length) :
    fieldsOf? names (membersOf names values) = some (values.map some) := by
  refine mapM_of_forall₂ ?_
  rw [List.forall₂_map_right_iff, List.forall₂_iff_zip]
  refine ⟨hlength, fun {name v} h => ?_⟩
  unfold valueOf?
  rw [valuesOf_of_mem hnames h]

/-- **Records.** A record is read back with all its fields. -/
theorem record?_ofRecord (hnames : names.Nodup) (hlength : names.length = values.length) :
    (ofRecord names values).record? names = some (values.map some) := by
  have hall : (membersOf names values).all (fun m => m.1.decode?.isSome) = true := by
    rw [List.all_eq_true]
    intro m hm
    obtain ⟨name, -, heq⟩ := exists_of_mem_membersOf hm
    rw [heq, decode?_ofString, Option.isSome_some]
  rw [ofRecord_eq]
  unfold record?
  dsimp only
  rw [if_pos hall, fieldsOf?_membersOf hnames hlength]

/-- **Tagged records.** The tag is read back and taken off. -/
theorem tagged?_ofTagged (tag : String) (hnames : tagName ∉ names) :
    (ofTagged tag names values).tagged? = some (tag, ofRecord names values) := by
  have htag : valueOf? tagName (membersOf (tagName :: names) (ofString tag :: values)) =
      some (some (ofString tag)) := by
    have hvalues : valuesOf tagName (membersOf (tagName :: names) (ofString tag :: values)) =
        [ofString tag] := by
      unfold valuesOf
      rw [membersOf_cons, List.filter_cons_of_pos (by simp), List.map_cons]
      exact congrArg (ofString tag :: ·) (valuesOf_of_not_mem hnames values)
    unfold valueOf?
    rw [hvalues]
  have hrest : (membersOf (tagName :: names) (ofString tag :: values)).filter
      (fun m => m.1.decode? ≠ some tagName) = membersOf names values := by
    rw [membersOf_cons, List.filter_cons_of_neg (by simp), List.filter_eq_self]
    intro m hm
    obtain ⟨name, hname, heq⟩ := exists_of_mem_membersOf hm
    rw [heq, decode?_ofString, decide_eq_true_eq]
    intro hsame
    exact hnames (Option.some.inj hsame ▸ hname)
  unfold ofTagged
  rw [ofRecord_eq]
  unfold tagged?
  dsimp only
  rw [htag]
  dsimp only
  rw [hrest, toString?_ofString]
  rfl

end Records

/-! ## Soundness -/

section Soundness

variable {α : Type} [Scalar α] {depth : Nat}

theorem soundMembers_iff {members : List (Text × Json)} :
    soundMembers α depth members = true ↔
      ∀ m ∈ members, m.1.decode?.isSome ∧ m.2.sound α depth := by
  induction members with
  | nil => simp [soundMembers]
  | cons m members ih =>
    rw [soundMembers, Bool.and_eq_true, Bool.and_eq_true, ih, List.forall_mem_cons]

theorem sound_ofString (s : String) : (ofString s).sound α depth := by
  show (Text.ofString s).decode?.isSome = true
  rw [decode?_ofString, Option.isSome_some]

/-- A record is sound if its values are and it is not nested too deeply. -/
theorem sound_ofRecord {names : List String} {values : List Json} (hdepth : 0 < depth)
    (h : ∀ v ∈ values, v.sound α (depth - 1)) : (ofRecord names values).sound α depth := by
  rw [ofRecord_eq, sound, Bool.and_eq_true, decide_eq_true_eq, soundMembers_iff]
  refine ⟨hdepth, fun m hm => ?_⟩
  obtain ⟨name, -, heq⟩ := exists_of_mem_membersOf hm
  rw [heq, decode?_ofString]
  exact ⟨rfl, h m.2 (value_of_mem_membersOf hm)⟩

theorem sound_ofTagged {names : List String} {values : List Json} (tag : String)
    (hdepth : 0 < depth) (h : ∀ v ∈ values, v.sound α (depth - 1)) :
    (ofTagged tag names values).sound α depth :=
  sound_ofRecord hdepth (List.forall_mem_cons.mpr ⟨sound_ofString tag, h⟩)

end Soundness

end Json

end RollingBall
