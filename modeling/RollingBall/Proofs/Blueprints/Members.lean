import Mathlib.Data.List.Perm.Basic
import RollingBall.Proofs.Blueprints.Records

/-!
# Members are found by their names

A record looks its fields up by name, and all that it asks of a name is the one value that the
members with this name have. So neither the order of the members matters nor what other members
there are (`Json.Mixes.record?_eq`), and a field that is there twice is refused
(`Json.Repeats.record?_eq_none`). The tag of a tagged value is one more name, and the members left
without it are mixed as before (`Json.Mixes.tagged?`).

## Main definitions

* `Json.Mixes`: the same members in any order, with others among them.
* `Json.Repeats`: the same members with a copy of one of them.
* `Json.readTagged?`: the part that obstacles and motion have in common.
-/

namespace RollingBall.Json

variable {fits : Json → Prop} {known names : List String} {name : String}
  {members members' : List (Text × Json)}

theorem mapM_eq_of_forall₂ {ρ ρ' σ : Type} {f : ρ → Option σ} {g : ρ' → Option σ} {as : List ρ}
    {bs : List ρ'} (h : List.Forall₂ (fun a b => f a = g b) as bs) : as.mapM f = bs.mapM g := by
  induction h with
  | nil => rfl
  | cons hab _ ih => rw [List.mapM_cons, List.mapM_cons, hab, ih]

theorem forall₂_of_mapM {ρ σ : Type} {f : ρ → Option σ} {as : List ρ} {bs : List σ}
    (h : as.mapM f = some bs) : List.Forall₂ (fun a b => f a = some b) as bs := by
  induction as generalizing bs with
  | nil =>
    obtain rfl : bs = [] := by simpa using h.symm
    exact .nil
  | cons a as ih =>
    rw [List.mapM_cons] at h
    simp only [Option.bind_eq_bind, Option.bind_eq_some_iff] at h
    obtain ⟨b, hb, bs', hbs, heq⟩ := h
    obtain rfl := Option.some.inj heq
    exact .cons hb (ih hbs)

/-! ## The values of a name -/

theorem mem_valuesOf {v : Json} :
    v ∈ valuesOf name members ↔ ∃ t, (t, v) ∈ members ∧ t.decode? = some name := by
  simp [valuesOf]

theorem valuesOf_append (members members' : List (Text × Json)) :
    valuesOf name (members ++ members') = valuesOf name members ++ valuesOf name members' := by
  simp [valuesOf]

theorem valuesOf_cons_of_ne {m : Text × Json} (h : m.1.decode? ≠ some name)
    (members : List (Text × Json)) : valuesOf name (m :: members) = valuesOf name members := by
  simp [valuesOf, h]

theorem valuesOf_cons_of_eq {m : Text × Json} (h : m.1.decode? = some name)
    (members : List (Text × Json)) :
    valuesOf name (m :: members) = m.2 :: valuesOf name members := by
  simp [valuesOf, h]

theorem valuesOf_perm (h : members'.Perm members) :
    (valuesOf name members').Perm (valuesOf name members) :=
  (h.filter _).map _

theorem valueOf?_eq_none_iff :
    valueOf? name members = none ↔ 2 ≤ (valuesOf name members).length := by
  unfold valueOf?
  split
  · simp [*]
  · simp [*]
  · rename_i hnil hone
    match h : valuesOf name members with
    | [] => exact absurd h hnil
    | [v] => exact absurd h (hone v)
    | _ :: _ :: _ => simp

/-- The value of a name does not depend on the order of the members. -/
theorem valueOf?_of_perm (h : (valuesOf name members').Perm (valuesOf name members)) :
    valueOf? name members' = valueOf? name members := by
  unfold valueOf?
  match hvalues : valuesOf name members with
  | [] =>
    rw [hvalues] at h
    rw [List.perm_nil.mp h]
  | [v] =>
    rw [hvalues] at h
    rw [List.perm_singleton.mp h]
  | v :: w :: vs =>
    have hlength := h.length_eq
    rw [hvalues] at hlength
    match hvalues' : valuesOf name members' with
    | [] => simp [hvalues'] at hlength
    | [_] => simp [hvalues'] at hlength
    | _ :: _ :: _ => rfl

/-- The value of a name, given that a member has it: refused, or the value of this member, and then
the name has no value without it. -/
theorem valueOf?_middle {m : Text × Json} (h : m.1.decode? = some name)
    (before after : List (Text × Json)) :
    valueOf? name (before ++ m :: after) = none ∨
      (valueOf? name (before ++ m :: after) = some (some m.2) ∧
        valueOf? name (before ++ after) = some none) := by
  have hvalues : valuesOf name (before ++ m :: after) =
      valuesOf name before ++ m.2 :: valuesOf name after := by
    rw [valuesOf_append, valuesOf_cons_of_eq h]
  by_cases hnil : valuesOf name before = [] ∧ valuesOf name after = []
  · refine .inr ⟨?_, ?_⟩
    · rw [hnil.1, hnil.2] at hvalues
      unfold valueOf?
      rw [hvalues]
      rfl
    · unfold valueOf?
      rw [valuesOf_append, hnil.1, hnil.2]
      rfl
  · refine .inl (valueOf?_eq_none_iff.mpr ?_)
    rw [hvalues, List.length_append, List.length_cons]
    rcases not_and_or.mp hnil with hne | hne
    · have := List.length_pos_of_ne_nil hne
      omega
    · have := List.length_pos_of_ne_nil hne
      omega

theorem valueOf?_without {m : Text × Json} (h : m.1.decode? ≠ some name)
    (before after : List (Text × Json)) :
    valueOf? name (before ++ m :: after) = valueOf? name (before ++ after) := by
  unfold valueOf?
  rw [valuesOf_append, valuesOf_cons_of_ne h, valuesOf_append]

/-- Members that correspond have corresponding values of a name. -/
theorem valuesOf_forall₂ {R : Json → Json → Prop}
    (h : List.Forall₂ (fun m m' => m'.1 = m.1 ∧ (m.1.decode? = some name → R m.2 m'.2)) members
      members') : List.Forall₂ R (valuesOf name members) (valuesOf name members') := by
  induction h with
  | nil => exact .nil
  | @cons m m' members members' hm _ ih =>
    by_cases hname : m.1.decode? = some name
    · rw [valuesOf_cons_of_eq hname, valuesOf_cons_of_eq (hm.1 ▸ hname)]
      exact .cons (hm.2 hname) ih
    · rw [valuesOf_cons_of_ne hname, valuesOf_cons_of_ne (hm.1 ▸ hname)]
      exact ih

theorem record?_object_iff {fields : Fields} : (object members).record? names = some fields ↔
    (∀ m ∈ members, m.1.decode?.isSome) ∧
      List.Forall₂ (fun name field => valueOf? name members = some field) names fields := by
  unfold record?
  dsimp only
  constructor
  · intro h
    split at h
    · rename_i hall
      exact ⟨List.all_eq_true.mp hall, forall₂_of_mapM h⟩
    · contradiction
  · rintro ⟨hall, hfields⟩
    rw [if_pos (List.all_eq_true.mpr hall)]
    exact mapM_of_forall₂ hfields

/-- The members other than the tag. -/
def untagged (members : List (Text × Json)) : List (Text × Json) :=
  members.filter fun m => m.1.decode? ≠ some tagName

theorem valuesOf_untagged (h : name ≠ tagName) (members : List (Text × Json)) :
    valuesOf name (untagged members) = valuesOf name members := by
  unfold valuesOf untagged
  rw [List.filter_filter]
  refine congrArg (List.map Prod.snd) (List.filter_congr fun m _ => ?_)
  by_cases hm : m.1.decode? = some name
  · simp [hm, h]
  · simp [hm]

theorem tagged?_eq_some_iff {tag : String} {content : Json} :
    (object members).tagged? = some (tag, content) ↔
      ∃ v, valueOf? tagName members = some (some v) ∧ v.toString? = some tag ∧
        content = object (untagged members) := by
  unfold tagged?
  dsimp only
  constructor
  · intro h
    split at h
    · rename_i v hv
      obtain ⟨name, hname, heq⟩ := Option.map_eq_some_iff.mp h
      obtain ⟨rfl, rfl⟩ := Prod.mk.inj heq
      exact ⟨v, hv, hname, rfl⟩
    · contradiction
  · rintro ⟨v, hv, htag, rfl⟩
    rw [hv]
    exact Option.map_eq_some_iff.mpr ⟨tag, htag, rfl⟩

/-! ## Other members among the known ones -/

/-- The member has a name, and one that is not known. -/
def Foreign (known : List String) (m : Text × Json) : Prop :=
  ∃ name, m.1.decode? = some name ∧ name ∉ known

/-- The members are these in any order, with others among them that have unknown names and fitting
values. -/
def Mixes (fits : Json → Prop) (known : List String) (members mixed : List (Text × Json)) : Prop :=
  ∃ extras, mixed.Perm (members ++ extras) ∧ ∀ m ∈ extras, Foreign known m ∧ fits m.2

theorem valuesOf_of_foreign (hname : name ∈ known) {extras : List (Text × Json)}
    (h : ∀ m ∈ extras, Foreign known m) : valuesOf name extras = [] := by
  have hnone : extras.filter (fun m => m.1.decode? = some name) = [] := by
    rw [List.filter_eq_nil_iff]
    intro m hm hsame
    obtain ⟨other, hother, hforeign⟩ := h m hm
    rw [hother, decide_eq_true_eq, Option.some.injEq] at hsame
    exact hforeign (hsame ▸ hname)
  unfold valuesOf
  rw [hnone, List.map_nil]

theorem mixes_concat {mixed : List (Text × Json)} {m : Text × Json} (hforeign : Foreign known m)
    (hfits : fits m.2) (h : mixed.Perm members) : Mixes fits known members (mixed ++ [m]) :=
  ⟨[m], h.append_right [m], by simpa using ⟨hforeign, hfits⟩⟩

namespace Mixes

variable {mixed : List (Text × Json)} (h : Mixes fits known members mixed)

include h

theorem valueOf?_eq (hname : name ∈ known) : valueOf? name mixed = valueOf? name members := by
  obtain ⟨extras, hperm, hextras⟩ := h
  refine valueOf?_of_perm ((valuesOf_perm hperm).trans ?_)
  rw [valuesOf_append, valuesOf_of_foreign hname fun m hm => (hextras m hm).1, List.append_nil]

theorem forall_iff {p : Text × Json → Prop} (hp : ∀ m, Foreign known m → fits m.2 → p m) :
    (∀ m ∈ mixed, p m) ↔ ∀ m ∈ members, p m := by
  obtain ⟨extras, hperm, hextras⟩ := h
  constructor
  · intro hall m hm
    exact hall m (hperm.mem_iff.mpr (List.mem_append_left extras hm))
  · intro hall m hm
    rcases List.mem_append.mp (hperm.mem_iff.mp hm) with hm | hm
    · exact hall m hm
    · exact hp m (hextras m hm).1 (hextras m hm).2

theorem named_iff :
    (∀ m ∈ mixed, m.1.decode?.isSome) ↔ ∀ m ∈ members, m.1.decode?.isSome :=
  h.forall_iff fun m ⟨name, hname, _⟩ _ => by rw [hname, Option.isSome_some]

protected theorem filter (p : Text × Json → Bool) :
    Mixes fits known (members.filter p) (mixed.filter p) := by
  obtain ⟨extras, hperm, hextras⟩ := h
  refine ⟨extras.filter p, ?_, fun m hm => hextras m (List.mem_of_mem_filter hm)⟩
  rw [← List.filter_append]
  exact hperm.filter p

/-- **Records.** A record of known fields is read as if the other members were not there. -/
theorem record?_eq (hnames : ∀ name ∈ names, name ∈ known) :
    (object mixed).record? names = (object members).record? names := by
  have hfields : fieldsOf? names mixed = fieldsOf? names members :=
    mapM_eq_of_forall₂ (List.forall₂_same.mpr fun name hname => h.valueOf?_eq (hnames name hname))
  have hnamed : (mixed.all fun m => m.1.decode?.isSome) =
      members.all fun m => m.1.decode?.isSome := by
    rw [Bool.eq_iff_iff, List.all_eq_true, List.all_eq_true]
    exact h.named_iff
  unfold record?
  dsimp only
  rw [hfields, hnamed]

/-- **Tagged values.** The tag is found, and the other members are mixed. -/
theorem tagged? (htag : tagName ∈ known) {tag : String} {content : Json}
    (hread : (object members).tagged? = some (tag, content)) :
    ∃ rest rest', content = object rest ∧ (object mixed).tagged? = some (tag, object rest') ∧
      Mixes fits known rest rest' := by
  obtain ⟨v, hv, hname, rfl⟩ := tagged?_eq_some_iff.mp hread
  rw [← h.valueOf?_eq htag] at hv
  exact ⟨_, _, rfl, tagged?_eq_some_iff.mpr ⟨v, hv, hname, rfl⟩, h.filter _⟩

end Mixes

/-! ## Members that are there twice -/

/-- The members are these in any order, and another one with the name of one of them, which is
known. -/
def Repeats (known : List String) (members repeated : List (Text × Json)) : Prop :=
  ∃ name ∈ known, ∃ m ∈ members, ∃ copy : Text × Json, m.1.decode? = some name ∧
    copy.1.decode? = some name ∧ repeated.Perm (copy :: members)

theorem valueOf?_of_repeated {m copy : Text × Json} {repeated : List (Text × Json)}
    (hm : m ∈ members) (hname : m.1.decode? = some name) (hcopy : copy.1.decode? = some name)
    (h : repeated.Perm (copy :: members)) : valueOf? name repeated = none := by
  have hvalue : m.2 ∈ valuesOf name members := mem_valuesOf.mpr ⟨m.1, hm, hname⟩
  rw [valueOf?_eq_none_iff, (valuesOf_perm h).length_eq, valuesOf_cons_of_eq hcopy]
  exact Nat.succ_le_succ (List.length_pos_of_mem hvalue)

theorem record?_eq_none_of_repeated (hname : name ∈ names) (h : valueOf? name members = none) :
    (object members).record? names = none := by
  have hfields : fieldsOf? names members = none := mapM_eq_none_of_mem hname h
  unfold record?
  dsimp only
  rw [hfields, ite_self]

/-- **Records.** A record with a field that is there twice is refused. -/
theorem Repeats.record?_eq_none {repeated : List (Text × Json)}
    (h : Repeats known members repeated) : (object repeated).record? known = none := by
  obtain ⟨name, hname, m, hm, copy, hm', hcopy, hperm⟩ := h
  exact record?_eq_none_of_repeated hname (valueOf?_of_repeated hm hm' hcopy hperm)

/-! ## Tagged values -/

section Tagged

variable {σ : Type} (fieldsOf : String → Option (List String))
  (make? : String → Fields → Option σ)

/-- A tagged value whose fields and whose reading depend on the tag. -/
def readTagged? (v : Json) : Option σ := do
  let (tag, content) ← v.tagged?
  make? tag (← content.record? (← fieldsOf tag))

/-- The names that the members of a tagged value may have, given its members: those of the tag and
of the fields that go with it. -/
def Knows (members : List (Text × Json)) (known : List String) : Prop :=
  ∃ tag content names, (object members).tagged? = some (tag, content) ∧
    fieldsOf tag = some names ∧ known = tagName :: names

variable {fieldsOf make?}

/-- Other members among those of a tagged value change nothing. -/
theorem Mixes.readTagged?_eq {mixed : List (Text × Json)} (hknown : Knows fieldsOf members known)
    (h : Mixes fits known members mixed) :
    readTagged? fieldsOf make? (object mixed) = readTagged? fieldsOf make? (object members) := by
  obtain ⟨tag, content, names, htag, hnames, rfl⟩ := hknown
  obtain ⟨rest, rest', rfl, htag', hrest⟩ := h.tagged? (.head names) htag
  have hrecord : (object rest').record? names = (object rest).record? names :=
    hrest.record?_eq fun name hname => .tail _ hname
  unfold readTagged?
  rw [htag, htag']
  simp [hnames, hrecord]

/-- A tagged value is refused if its tag or a field of it is there twice. -/
theorem Repeats.readTagged?_eq_none {repeated : List (Text × Json)}
    (hknown : Knows fieldsOf members known) (h : Repeats known members repeated) :
    readTagged? fieldsOf make? (object repeated) = none := by
  obtain ⟨tag, content, names, htag, hnames, rfl⟩ := hknown
  obtain ⟨name, hname, m, hm, copy, hm', hcopy, hperm⟩ := h
  have htwice := valueOf?_of_repeated hm hm' hcopy hperm
  obtain ⟨v, hv, htag, -⟩ := tagged?_eq_some_iff.mp htag
  unfold readTagged?
  by_cases hsame : name = tagName
  · have hnone : (object repeated).tagged? = none := by
      rw [Option.eq_none_iff_forall_ne_some]
      rintro ⟨tag', content'⟩ hread
      obtain ⟨v', hv', -⟩ := tagged?_eq_some_iff.mp hread
      rw [← hsame, htwice] at hv'
      contradiction
    rw [hnone]
    rfl
  · have hother : valueOf? tagName repeated = some (some v) := by
      rw [← hv]
      refine valueOf?_of_perm ((valuesOf_perm hperm).trans ?_)
      rw [valuesOf_cons_of_ne (by rw [hcopy]; simpa using hsame)]
    have hread := tagged?_eq_some_iff.mpr ⟨v, hother, htag, rfl⟩
    have htwice' : valueOf? name (untagged repeated) = none := by
      rw [valueOf?_eq_none_iff, valuesOf_untagged hsame]
      exact valueOf?_eq_none_iff.mp htwice
    have hrecord := record?_eq_none_of_repeated
      ((List.mem_cons.mp hname).resolve_left hsame) htwice'
    rw [hread]
    simp [hnames, hrecord]

end Tagged

/-! ## Nesting -/

section Nesting

variable {α : Type} [Scalar α] {depth : Nat}

mutual

/-- A value that is not nested too deeply for a depth is not for a greater one. -/
theorem sound_mono {depth depth' : Nat} (hle : depth ≤ depth') (v : Json)
    (h : v.sound α depth) : v.sound α depth' := by
  match v with
  | null => rfl
  | bool _ => rfl
  | number _ => exact h
  | string _ => exact h
  | array items =>
    rw [sound, Bool.and_eq_true, decide_eq_true_eq] at h ⊢
    exact ⟨Nat.lt_of_lt_of_le h.1 hle, soundItems_mono (Nat.sub_le_sub_right hle 1) items h.2⟩
  | object members =>
    rw [sound, Bool.and_eq_true, decide_eq_true_eq] at h ⊢
    exact ⟨Nat.lt_of_lt_of_le h.1 hle, soundMembers_mono (Nat.sub_le_sub_right hle 1) members h.2⟩

theorem soundItems_mono {depth depth' : Nat} (hle : depth ≤ depth') (items : List Json)
    (h : soundItems α depth items) : soundItems α depth' items := by
  match items with
  | [] => rfl
  | item :: items =>
    rw [soundItems, Bool.and_eq_true] at h ⊢
    exact ⟨sound_mono hle item h.1, soundItems_mono hle items h.2⟩

theorem soundMembers_mono {depth depth' : Nat} (hle : depth ≤ depth')
    (members : List (Text × Json)) (h : soundMembers α depth members) :
    soundMembers α depth' members := by
  match members with
  | [] => rfl
  | (name, value) :: members =>
    rw [soundMembers, Bool.and_eq_true, Bool.and_eq_true] at h ⊢
    exact ⟨⟨h.1.1, sound_mono hle value h.1.2⟩, soundMembers_mono hle members h.2⟩

end

/-- A value is as sound as before if sound members are mixed into it. -/
theorem Mixes.sound_eq {mixed : List (Text × Json)} {inner : Nat} (hinner : inner < depth)
    (h : Mixes (fun v => v.sound α inner = true) known members mixed) :
    (object mixed).sound α depth = (object members).sound α depth := by
  have hmembers : soundMembers α (depth - 1) mixed = soundMembers α (depth - 1) members := by
    rw [Bool.eq_iff_iff, soundMembers_iff, soundMembers_iff]
    refine h.forall_iff fun m ⟨name, hname, _⟩ hsound => ⟨by rw [hname, Option.isSome_some], ?_⟩
    exact sound_mono (Nat.le_sub_one_of_lt hinner) m.2 hsound
  rw [sound, sound, hmembers]

end Nesting

end RollingBall.Json
