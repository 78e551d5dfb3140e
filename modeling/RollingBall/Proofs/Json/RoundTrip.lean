import RollingBall.Json.Printer
import RollingBall.Proofs.Json.Spelling

/-!
# Values of JSON are read back

A value is written as a text that stands for it, so it is read as the same value
(`Json.parse?_render`). The values are those of the grammar: their numbers have digits where digits
belong, and what their strings name by a code are halves of surrogate pairs.

A bracket is written with each of its items on a line of its own. The new line in front of an item
and the one before the closing bracket are the blanks of the slots that the items stand in
(`Json.intercalate_places`), so arrays and objects share the proof.

## Main definitions

* `Json.Grammatical`: the values of the grammar.
-/

namespace RollingBall.Json

/-- All numbers and strings of the value are of the grammar. -/
inductive Grammatical : Json → Prop where
  | null : Grammatical null
  | bool (b : Bool) : Grammatical (bool b)
  | number {n : Number} (h : n.Grammatical) : Grammatical (number n)
  | string {t : Text} (h : t.Grammatical) : Grammatical (string t)
  | array {items : List Json} (h : ∀ item ∈ items, Grammatical item) : Grammatical (array items)
  | object {members : List (Text × Json)} (hnames : ∀ m ∈ members, m.1.Grammatical)
      (hvalues : ∀ m ∈ members, Grammatical m.2) : Grammatical (object members)

/-! ## Brackets -/

theorem blank_nil : Blank [] := by simp [Blank]

theorem blank_newline (indent : Nat) : Blank (newline indent) := by
  intro c hc
  rcases List.mem_cons.mp hc with rfl | hc
  · decide
  · rw [(List.mem_replicate.mp hc).2]
    decide

section Brackets

variable {ι ρ : Type} (place : {cs : List Char // Blank cs} → ρ → ι) (outer : Nat)

/-- The items with the blanks behind them: a new line after the last one. -/
def places : ρ → List ρ → List ι
  | item, [] => [place ⟨newline outer, blank_newline outer⟩ item]
  | item, next :: items => place ⟨[], blank_nil⟩ item :: places next items

theorem places_ne_nil (item : ρ) (items : List ρ) : places place outer item items ≠ [] := by
  cases items with
  | nil => simp [places]
  | cons next items => simp [places]

variable {place outer}

theorem exists_of_mem_places {item : ρ} {items : List ρ} {i : ι}
    (h : i ∈ places place outer item items) : ∃ after, ∃ v ∈ item :: items, i = place after v := by
  induction items generalizing item with
  | nil => exact ⟨_, item, .head [], List.mem_singleton.mp h⟩
  | cons next items ih =>
    rcases List.mem_cons.mp h with heq | h
    · exact ⟨_, item, .head _, heq⟩
    · obtain ⟨after, v, hv, heq⟩ := ih h
      exact ⟨after, v, .tail item hv, heq⟩

theorem map_places {val : ι → ρ} (hval : ∀ after v, val (place after v) = v) (item : ρ)
    (items : List ρ) : (places place outer item items).map val = item :: items := by
  induction items generalizing item with
  | nil => simp [places, hval]
  | cons next items ih => rw [places, List.map_cons, ih, hval]

variable (write : ρ → List Char) (indent : Nat)

/-- The items after the first, each after a comma on a line of its own. -/
def writeMore (items : List ρ) : List Char :=
  items.flatMap fun item => ',' :: newline indent ++ write item

variable {write indent}

theorem intercalate_places {whole : ι → List Char}
    (hwhole : ∀ after v, whole (place after v) = newline indent ++ (write v ++ after.1))
    (item : ρ) (items : List ρ) :
    [','].intercalate ((places place outer item items).map whole) =
      newline indent ++ write item ++ writeMore write indent items ++ newline outer := by
  induction items generalizing item with
  | nil => simp [places, writeMore, hwhole]
  | cons next items ih =>
    have hne : (places place outer next items).map whole ≠ [] := by simp [places_ne_nil]
    rw [places, List.map_cons, List.intercalate_cons_of_ne_nil hne, ih, hwhole]
    simp [writeMore]

end Brackets

/-! ## Values -/

theorem renderItems_eq (indent : Nat) (items : List Json) :
    renderItems indent items = writeMore (renderAt indent) indent items := by
  induction items with
  | nil => rfl
  | cons item items ih => simp [renderItems, ih, writeMore]

/-- A member as written. -/
def renderMember (indent : Nat) (m : Text × Json) : List Char :=
  m.1.render ++ [':', ' '] ++ renderAt indent m.2

theorem renderMembers_eq (indent : Nat) (members : List (Text × Json)) :
    renderMembers indent members = writeMore (renderMember indent) indent members := by
  induction members with
  | nil => rfl
  | cons m members ih => simp [renderMembers, ih, writeMore, renderMember]

/-- An item on a line of its own. -/
def itemSlot (indent : Nat) (after : {cs : List Char // Blank cs}) (v : Json) : Slot Json where
  before := newline indent
  text := renderAt indent v
  after := after.1
  value := v
  blank_before := blank_newline indent
  blank_after := after.2

/-- A member on a line of its own, with a blank after the colon. -/
def memberSlot (indent : Nat) (after : {cs : List Char // Blank cs}) (m : Text × Json) :
    MemberSlot :=
  (⟨newline indent, m.1.render, [], m.1, blank_newline indent, blank_nil⟩,
    ⟨[' '], renderAt indent m.2, after.1, m.2, by simp [Blank, Reader.isBlank], after.2⟩)

section Written

variable {indent : Nat}

theorem spells_array {items : List Json}
    (h : ∀ v ∈ items, Spells (renderAt (indent + 1) v) v) :
    Spells (renderAt indent (array items)) (array items) := by
  cases items with
  | nil => exact .emptyArray blank_nil
  | cons item items =>
    have hspells := Spells.array (places_ne_nil (itemSlot (indent + 1)) indent item items)
      fun i hi => by
        obtain ⟨after, v, hv, rfl⟩ := exists_of_mem_places hi
        exact h v hv
    have hvalues : (places (itemSlot (indent + 1)) indent item items).map Slot.value =
        item :: items := map_places (fun _ _ => rfl) item items
    have hwhole : ∀ after v, (itemSlot (indent + 1) after v).whole =
        newline (indent + 1) ++ (renderAt (indent + 1) v ++ after.1) := fun _ _ => rfl
    rw [hvalues, intercalate_places hwhole] at hspells
    rw [renderAt, renderItems_eq]
    simpa using hspells

theorem spells_object {members : List (Text × Json)} (hnames : ∀ m ∈ members, m.1.Grammatical)
    (hvalues : ∀ m ∈ members, Spells (renderAt (indent + 1) m.2) m.2) :
    Spells (renderAt indent (object members)) (object members) := by
  cases members with
  | nil => exact .emptyObject blank_nil
  | cons m members =>
    have hspells := Spells.object (places_ne_nil (memberSlot (indent + 1)) indent m members)
      (fun e he => by
        obtain ⟨after, v, hv, rfl⟩ := exists_of_mem_places he
        exact Text.spells_render (hnames v hv))
      fun e he => by
        obtain ⟨after, v, hv, rfl⟩ := exists_of_mem_places he
        exact hvalues v hv
    have hmembers : (places (memberSlot (indent + 1)) indent m members).map MemberSlot.member =
        m :: members := map_places (fun _ _ => rfl) m members
    have hwhole : ∀ after m, (memberSlot (indent + 1) after m).whole =
        newline (indent + 1) ++ (renderMember (indent + 1) m ++ after.1) := fun _ _ => by
      simp [MemberSlot.whole, Slot.whole, memberSlot, renderMember]
    rw [hmembers, intercalate_places hwhole] at hspells
    rw [renderAt, renderMembers_eq]
    simpa [renderMember] using hspells

end Written

/-- **Writing.** A value of the grammar is written as a text of it. -/
theorem Grammatical.spells {v : Json} (h : v.Grammatical) (indent : Nat) :
    Spells (renderAt indent v) v := by
  induction h generalizing indent with
  | null => exact .nullWord
  | bool b =>
    cases b with
    | true => exact .trueWord
    | false => exact .falseWord
  | number h => exact .number (Number.spells_render h)
  | string h => exact .string (Text.spells_render h)
  | array h ih => exact spells_array fun v hv => ih v hv _
  | object hnames hvalues ih => exact spells_object hnames fun m hm => ih m hm _

theorem Grammatical.denotes_render {v : Json} (h : v.Grammatical) : Denotes v.render v :=
  ⟨⟨[], v.render, [], v, blank_nil, blank_nil⟩, by simp [Slot.whole], rfl, h.spells 0⟩

/-- **Round trip.** What is written for a value of the grammar is read as the same value. -/
theorem parse?_render {v : Json} (h : v.Grammatical) : parse? v.render = some v :=
  parse?_of_denotes h.denotes_render

end RollingBall.Json
