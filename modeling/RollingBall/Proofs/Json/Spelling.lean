import RollingBall.Proofs.Json.Words

/-!
# The texts of JSON

What a text means as a value, said without a reader, and that it is read so. Blanks may stand
around every item and around the names and values of members; in a text they belong to the slot of
what they stand around. A member is two slots with a colon between them. What is in brackets is read
item by item, so arrays and objects share a proof (`Json.leaves_commas`).

## Main definitions

* `Json.Slot`: a part of a text with the blanks around it, and what it stands for.
* `Json.Spells`: the texts of a value.
* `Json.Denotes`: what a whole text stands for.
* `Json.parse?_of_denotes`
-/

namespace RollingBall.Json

open Grammar

/-! ## The grammar -/

/-- Nothing but blanks. -/
def Blank (cs : List Char) : Prop := ∀ c ∈ cs, Reader.isBlank c

/-- A part of a text with the blanks around it, and what it stands for. -/
structure Slot (ρ : Type) where
  before : List Char
  text : List Char
  after : List Char
  value : ρ
  blank_before : Blank before
  blank_after : Blank after

/-- The part with its blanks. -/
def Slot.whole {ρ : Type} (slot : Slot ρ) : List Char := slot.before ++ (slot.text ++ slot.after)

/-- A member: the slots of its name and its value. -/
abbrev MemberSlot : Type := Slot Text × Slot Json

/-- The member as it stands in a text. -/
def MemberSlot.whole (slot : MemberSlot) : List Char := slot.1.whole ++ ':' :: slot.2.whole

/-- The name and the value of the member. -/
def MemberSlot.member (slot : MemberSlot) : Text × Json := (slot.1.value, slot.2.value)

/-- The text is the value, without blanks around it. -/
inductive Spells : List Char → Json → Prop where
  | nullWord : Spells ['n', 'u', 'l', 'l'] null
  | trueWord : Spells ['t', 'r', 'u', 'e'] (bool true)
  | falseWord : Spells ['f', 'a', 'l', 's', 'e'] (bool false)
  | number {cs : List Char} {n : Number} (h : Number.Spells cs n) : Spells cs (number n)
  | string {cs : List Char} {t : Text} (h : Text.Spells cs t) : Spells cs (string t)
  | emptyArray {cs : List Char} (h : Blank cs) : Spells ('[' :: (cs ++ [']'])) (array [])
  | array {items : List (Slot Json)} (hne : items ≠ [])
      (hitems : ∀ i ∈ items, Spells i.text i.value) :
      Spells ('[' :: ([','].intercalate (items.map Slot.whole) ++ [']']))
        (array (items.map Slot.value))
  | emptyObject {cs : List Char} (h : Blank cs) : Spells ('{' :: (cs ++ ['}'])) (object [])
  | object {slots : List MemberSlot} (hne : slots ≠ [])
      (hnames : ∀ e ∈ slots, Text.Spells e.1.text e.1.value)
      (hvalues : ∀ e ∈ slots, Spells e.2.text e.2.value) :
      Spells ('{' :: ([','].intercalate (slots.map MemberSlot.whole) ++ ['}']))
        (object (slots.map MemberSlot.member))

/-- The text is the value, with blanks around it. -/
def Denotes (s : List Char) (v : Json) : Prop :=
  ∃ slot : Slot Json, slot.whole = s ∧ slot.value = v ∧ Spells slot.text v

/-! ## Parts of readers -/

namespace Reader

theorem skip_of_stops {s : List Char} (h : Stops isBlank s) : skip s = s := by
  have hnone : ([] ++ s).dropWhile isBlank = s := h.dropWhile (by simp)
  exact hnone

theorem skip_blank {cs : List Char} (h : Blank cs) (s : List Char) : skip (cs ++ s) = skip s :=
  List.dropWhile_append_of_pos h

variable {ρ : Type} {reader : Reader ρ} {s r : List Char} {v : ρ}

theorem Reads.skipping (h : reader.Reads (skip s) v r) : (skipping reader).Reads s v r := by
  obtain ⟨hshorter, hread⟩ := h
  refine ⟨Nat.lt_of_lt_of_le hshorter (length_skip_le s), ?_⟩
  unfold Reader.skipping
  rw [hread]

theorem Reads.map {σ : Type} (f : ρ → σ) (h : reader.Reads s v r) :
    (map f reader).Reads s (f v) r := by
  obtain ⟨hshorter, hread⟩ := h
  refine ⟨hshorter, ?_⟩
  unfold Reader.map
  rw [hread, Option.map_some]

theorem expect_head {c : Char} {s r : List Char} (h : s = c :: r) :
    ∃ hr, expect c s = some ⟨r, hr⟩ := by
  subst h
  exact ⟨length_lt_cons c r, if_pos rfl⟩

theorem expect_other {c d : Char} {s r : List Char} (h : s = d :: r) (hd : d ≠ c) :
    expect c s = none := by
  subst h
  exact if_neg hd

theorem Reads.member {name : Text} {r₁ r₂ : List Char}
    (hname : (Reader.skipping text).Reads s name r₁) (hcolon : skip r₁ = ':' :: r₂)
    (hvalue : (Reader.skipping reader).Reads r₂ v r) :
    (Reader.member reader).Reads s (name, v) r := by
  obtain ⟨hname', hname⟩ := hname
  obtain ⟨hcolon', hexpect⟩ := expect_head hcolon
  obtain ⟨hvalue', hvalue⟩ := hvalue
  have hlength := length_skip_le r₁
  refine ⟨by omega, ?_⟩
  unfold Reader.member
  rw [hname]
  dsimp only
  rw [hexpect]
  dsimp only
  rw [hvalue]

variable {r' : List Char} {close : Char}

theorem itemsUntil_last (h : reader.Reads s v r) (hskip : skip r = close :: r') :
    Leaves (itemsUntil close reader) s [v] r' := by
  obtain ⟨hshorter, hread⟩ := h
  have hlength := length_skip_le r
  rw [hskip, List.length_cons] at hlength
  refine ⟨by omega, ?_⟩
  rw [itemsUntil, hread]
  dsimp only
  split
  · rename_i c rest hrest heq _
    rw [hskip] at heq
    obtain ⟨rfl, rfl⟩ := List.cons.inj heq
    exact if_pos rfl
  · rename_i heq _
    rw [hskip] at heq
    exact absurd heq (by simp)

theorem itemsUntil_more {vs : List ρ} {r'' : List Char} (h : reader.Reads s v r)
    (hskip : skip r = ',' :: r') (hclose : close ≠ ',')
    (hmore : Leaves (itemsUntil close reader) r' vs r'') :
    Leaves (itemsUntil close reader) s (v :: vs) r'' := by
  obtain ⟨hshorter, hread⟩ := h
  obtain ⟨hmorelength, hmoreread⟩ := hmore
  have hlength := length_skip_le r
  rw [hskip, List.length_cons] at hlength
  refine ⟨by omega, ?_⟩
  rw [itemsUntil, hread]
  dsimp only
  split
  · rename_i c rest hrest heq _
    rw [hskip] at heq
    obtain ⟨rfl, rfl⟩ := List.cons.inj heq
    rw [if_neg hclose.symm, if_pos rfl, hmoreread]
  · rename_i heq _
    rw [hskip] at heq
    exact absurd heq (by simp)

theorem bracketed_empty (opening : Char) (h : skip s = close :: r) :
    (bracketed opening close reader).Reads (opening :: s) [] r := by
  have hlength := length_skip_le s
  rw [h, List.length_cons] at hlength
  refine ⟨by simp; omega, ?_⟩
  obtain ⟨_, hopening⟩ := expect_head (s := opening :: s) rfl
  obtain ⟨_, hclose⟩ := expect_head h
  unfold bracketed
  rw [hopening]
  dsimp only
  rw [hclose]

theorem bracketed_items {c : Char} {vs : List ρ} (opening : Char) (h : skip s = c :: r')
    (hc : c ≠ close) (hitems : Leaves (itemsUntil close reader) s vs r) :
    (bracketed opening close reader).Reads (opening :: s) vs r := by
  obtain ⟨hlength, hread⟩ := hitems
  refine ⟨Nat.lt_succ_of_le hlength, ?_⟩
  obtain ⟨_, hopening⟩ := expect_head (s := opening :: s) rfl
  unfold bracketed
  rw [hopening]
  dsimp only
  rw [expect_other h hc]
  dsimp only
  rw [hread]

end Reader

/-! ## Brackets -/

section Commas

variable {ι ρ : Type} {whole after : ι → List Char} {val : ι → ρ} {close : Char}
  {reader : Reader ρ}

/-- Items with commas between them are read one after another, each up to the blanks behind it. -/
theorem leaves_commas (hclose : close ≠ ',') (hblank : Reader.isBlank close = false)
    {items : List ι} (hne : items ≠ []) (hafter : ∀ i ∈ items, Blank (after i))
    (hreads : ∀ i ∈ items, ∀ c r, c = ',' ∨ c = close →
      reader.Reads (whole i ++ c :: r) (val i) (after i ++ c :: r)) (r : List Char) :
    Reader.Leaves (Reader.itemsUntil close reader)
      ([','].intercalate (items.map whole) ++ close :: r) (items.map val) r := by
  induction items with
  | nil => exact absurd rfl hne
  | cons i items ih =>
    have hskip : ∀ {c} (r : List Char), Reader.isBlank c = false →
        Reader.skip (after i ++ c :: r) = c :: r := fun {c} r hc => by
      rw [Reader.skip_blank (hafter i (.head items)), Reader.skip_of_stops (stops_cons.mpr hc)]
    cases items with
    | nil =>
      rw [List.map_singleton, List.intercalate_singleton]
      exact Reader.itemsUntil_last (hreads i (.head _) close r (.inr rfl)) (hskip r hblank)
    | cons j items =>
      have hmore := ih (by simp) (fun k hk => hafter k (.tail i hk)) fun k hk =>
        hreads k (.tail i hk)
      have hshape : [','].intercalate ((i :: j :: items).map whole) ++ close :: r =
          whole i ++ ',' :: ([','].intercalate ((j :: items).map whole) ++ close :: r) := by
        simp [List.intercalate_cons_cons]
      rw [hshape]
      exact Reader.itemsUntil_more (hreads i (.head _) ',' _ (.inl rfl)) (hskip _ (by decide))
        hclose hmore

/-- **Brackets.** Items with commas between them are read in brackets. -/
theorem reads_commas (opening : Char) (hclose : close ≠ ',')
    (hblank : Reader.isBlank close = false) {items : List ι} (hne : items ≠ [])
    (hafter : ∀ i ∈ items, Blank (after i))
    (hreads : ∀ i ∈ items, ∀ c r, c = ',' ∨ c = close →
      reader.Reads (whole i ++ c :: r) (val i) (after i ++ c :: r))
    (hbegins : ∀ i ∈ items, ∀ r, ∃ c tail, Reader.skip (whole i ++ r) = c :: tail ∧ c ≠ close)
    (r : List Char) :
    (Reader.bracketed opening close reader).Reads
      (opening :: ([','].intercalate (items.map whole) ++ close :: r)) (items.map val) r := by
  have hleaves := leaves_commas hclose hblank hne hafter hreads r
  obtain ⟨i, items, rfl⟩ := List.exists_cons_of_ne_nil hne
  obtain ⟨more, hshape⟩ : ∃ more, [','].intercalate ((i :: items).map whole) = whole i ++ more := by
    cases items with
    | nil => exact ⟨[], by simp⟩
    | cons j items => exact ⟨_, by rw [List.map_cons, List.map_cons,
        List.intercalate_cons_cons, List.append_assoc]⟩
  obtain ⟨c, tail, hskip, hc⟩ := hbegins i (.head items) (more ++ close :: r)
  rw [hshape, List.append_assoc] at hleaves ⊢
  exact Reader.bracketed_items opening hskip hc hleaves

end Commas

/-! ## Values -/

/-- A number begins neither as another value nor as what is around values. -/
theorem number_begins {c : Char} (h : c = '-' ∨ c.isDigit) :
    Reader.isBlank c = false ∧ c ≠ ']' ∧ c ≠ '[' ∧ c ≠ '{' ∧ c ≠ '"' ∧ c ≠ 't' ∧ c ≠ 'f' ∧
      c ≠ 'n' := by
  obtain rfl | hdigit := h
  · decide
  · have hne : ∀ d : Char, d.isDigit = false → c ≠ d := by
      rintro d hd rfl
      exact absurd hdigit (by simp [hd])
    refine ⟨?_, hne _ (by decide), hne _ (by decide), hne _ (by decide), hne _ (by decide),
      hne _ (by decide), hne _ (by decide), hne _ (by decide)⟩
    unfold Reader.isBlank
    simp [hne ' ' (by decide), hne '\t' (by decide), hne '\n' (by decide), hne '\r' (by decide)]

/-- No value begins with a blank or a closing bracket. -/
theorem Spells.begins {cs : List Char} {v : Json} (h : Spells cs v) :
    ∃ c tail, cs = c :: tail ∧ Reader.isBlank c = false ∧ c ≠ ']' := by
  cases h with
  | nullWord => exact ⟨'n', _, rfl, by decide, by decide⟩
  | trueWord => exact ⟨'t', _, rfl, by decide, by decide⟩
  | falseWord => exact ⟨'f', _, rfl, by decide, by decide⟩
  | number h =>
    obtain ⟨c, tail, hcs, hc⟩ := h.begins
    obtain ⟨hblank, hclose, -⟩ := number_begins hc
    exact ⟨c, tail, hcs, hblank, hclose⟩
  | string h =>
    obtain ⟨-⟩ := h
    exact ⟨'"', _, rfl, by decide, by decide⟩
  | emptyArray h => exact ⟨'[', _, rfl, by decide, by decide⟩
  | array hne hitems => exact ⟨'[', _, rfl, by decide, by decide⟩
  | emptyObject h => exact ⟨'{', _, rfl, by decide, by decide⟩
  | object hne hnames hvalues => exact ⟨'{', _, rfl, by decide, by decide⟩

theorem Spells.skip {cs : List Char} {v : Json} (h : Spells cs v) (r : List Char) :
    Reader.skip (cs ++ r) = cs ++ r := by
  obtain ⟨c, tail, rfl, hblank, -⟩ := h.begins
  exact Reader.skip_of_stops (stops_cons.mpr hblank)

/-- A number is what is read where nothing else can begin. -/
theorem value_number {c : Char} (h : c = '-' ∨ c.isDigit) (n : Nat) (s : List Char) :
    Reader.value (n + 1) (c :: s) = Reader.map number Reader.number (c :: s) := by
  obtain ⟨-, -, harray, hobject, hstring, htrue, hfalse, hnull⟩ := number_begins h
  rw [Reader.value]
  dsimp only [List.head?_cons]
  split
  · rename_i heq
    exact absurd (Option.some.inj heq) harray
  · rename_i heq
    exact absurd (Option.some.inj heq) hobject
  · rename_i heq
    exact absurd (Option.some.inj heq) hstring
  · rename_i heq
    exact absurd (Option.some.inj heq) htrue
  · rename_i heq
    exact absurd (Option.some.inj heq) hfalse
  · rename_i heq
    exact absurd (Option.some.inj heq) hnull
  · rfl


section Slots

variable {ρ : Type} {reader : Reader ρ} {r : List Char}

/-- A blank cannot be part of a number. -/
theorem stops_after {cs : List Char} (h : Blank cs) (hr : Stops isNumberPart r) :
    Stops isNumberPart (cs ++ r) := by
  cases cs with
  | nil => exact hr
  | cons c cs =>
    have hblank := h c (.head cs)
    refine stops_cons.mpr ?_
    simp only [Reader.isBlank, Bool.or_eq_true, beq_iff_eq] at hblank
    obtain ((rfl | rfl) | rfl) | rfl := hblank
    · decide
    · decide
    · decide
    · decide

/-- A slot is read up to the blanks behind it. -/
theorem Slot.reads {slot : Slot ρ}
    (hskip : Reader.skip (slot.text ++ (slot.after ++ r)) = slot.text ++ (slot.after ++ r))
    (hread : reader.Reads (slot.text ++ (slot.after ++ r)) slot.value (slot.after ++ r)) :
    (Reader.skipping reader).Reads (slot.whole ++ r) slot.value (slot.after ++ r) := by
  refine Reader.Reads.skipping ?_
  unfold Slot.whole
  rw [List.append_assoc, List.append_assoc, Reader.skip_blank slot.blank_before, hskip]
  exact hread

end Slots

/-- A member is read if its value is. -/
theorem MemberSlot.reads {slot : MemberSlot} {reader : Reader Json} {r : List Char}
    (hname : Text.Spells slot.1.text slot.1.value)
    (hvalue : (Reader.skipping reader).Reads (slot.2.whole ++ r) slot.2.value
      (slot.2.after ++ r)) :
    (Reader.member reader).Reads (slot.whole ++ r) slot.member (slot.2.after ++ r) := by
  have hshape : slot.whole ++ r = slot.1.whole ++ ':' :: (slot.2.whole ++ r) := by
    simp [MemberSlot.whole]
  have hquote : ∀ r, Reader.skip (slot.1.text ++ r) = slot.1.text ++ r := by
    intro r
    obtain ⟨tail, htext⟩ := hname.begins
    rw [htext]
    exact Reader.skip_of_stops (stops_cons.mpr (by decide))
  have htext := Slot.reads (hquote _) (hname.reads (slot.1.after ++ ':' :: (slot.2.whole ++ r)))
  have hcolon : Reader.skip (slot.1.after ++ ':' :: (slot.2.whole ++ r)) =
      ':' :: (slot.2.whole ++ r) := by
    rw [Reader.skip_blank slot.1.blank_after]
    exact Reader.skip_of_stops (stops_cons.mpr (by decide))
  rw [hshape]
  exact htext.member hcolon hvalue

section Nested

variable {n : Nat} {r : List Char}

theorem length_le_intercalate {css : List (List Char)} {cs : List Char} (h : cs ∈ css) :
    cs.length ≤ ([','].intercalate css).length := by
  induction css with
  | nil => exact absurd h (by simp)
  | cons ds css ih =>
    cases css with
    | nil =>
      obtain rfl := List.mem_singleton.mp h
      simp
    | cons es css =>
      rw [List.intercalate_cons_cons, List.length_append, List.length_append]
      rcases List.mem_cons.mp h with rfl | h
      · omega
      · have := ih h
        omega

theorem reads_array {items : List (Slot Json)} (hne : items ≠ [])
    (hitems : ∀ i ∈ items, Spells i.text i.value)
    (hreads : ∀ i ∈ items, ∀ r, Stops isNumberPart r →
      (Reader.value n).Reads (i.text ++ r) i.value r) (r : List Char) :
    (Reader.value (n + 1)).Reads
      ('[' :: ([','].intercalate (items.map Slot.whole) ++ ']' :: r))
      (array (items.map Slot.value)) r := by
  have hitem : ∀ i ∈ items, ∀ c r, c = ',' ∨ c = ']' →
      (Reader.skipping (Reader.value n)).Reads (i.whole ++ c :: r) i.value
        (i.after ++ c :: r) := by
    intro i hi c r hc
    have hnumber : isNumberPart c = false := by
      obtain rfl | rfl := hc
      · decide
      · decide
    exact Slot.reads ((hitems i hi).skip _)
      (hreads i hi _ (stops_after i.blank_after (stops_cons.mpr hnumber)))
  have hbegins : ∀ i ∈ items, ∀ r, ∃ c tail, Reader.skip (i.whole ++ r) = c :: tail ∧ c ≠ ']' := by
    intro i hi r
    obtain ⟨c, tail, hbegins, -, hc⟩ := (hitems i hi).begins
    refine ⟨c, tail ++ (i.after ++ r), ?_, hc⟩
    rw [Slot.whole, List.append_assoc, List.append_assoc, Reader.skip_blank i.blank_before,
      (hitems i hi).skip, hbegins]
    rfl
  exact (reads_commas '[' (by decide) (by decide) hne (fun i _ => i.blank_after) hitem
    hbegins r).map Json.array

theorem reads_object {slots : List MemberSlot} (hne : slots ≠ [])
    (hnames : ∀ e ∈ slots, Text.Spells e.1.text e.1.value)
    (hvalues : ∀ e ∈ slots, Spells e.2.text e.2.value)
    (hreads : ∀ e ∈ slots, ∀ r, Stops isNumberPart r →
      (Reader.value n).Reads (e.2.text ++ r) e.2.value r) (r : List Char) :
    (Reader.value (n + 1)).Reads
      ('{' :: ([','].intercalate (slots.map MemberSlot.whole) ++ '}' :: r))
      (object (slots.map MemberSlot.member)) r := by
  have hmember : ∀ e ∈ slots, ∀ c r, c = ',' ∨ c = '}' →
      (Reader.member (Reader.value n)).Reads (e.whole ++ c :: r) e.member
        (e.2.after ++ c :: r) := by
    intro e he c r hc
    have hnumber : isNumberPart c = false := by
      obtain rfl | rfl := hc
      · decide
      · decide
    exact MemberSlot.reads (hnames e he) (Slot.reads ((hvalues e he).skip _)
      (hreads e he _ (stops_after e.2.blank_after (stops_cons.mpr hnumber))))
  have hbegins : ∀ e ∈ slots, ∀ r, ∃ c tail,
      Reader.skip (e.whole ++ r) = c :: tail ∧ c ≠ '}' := by
    intro e he r
    obtain ⟨tail, htext⟩ := (hnames e he).begins
    refine ⟨'"', tail ++ (e.1.after ++ ':' :: (e.2.whole ++ r)), ?_, by decide⟩
    have hshape : e.whole ++ r =
        e.1.before ++ '"' :: (tail ++ (e.1.after ++ ':' :: (e.2.whole ++ r))) := by
      simp [MemberSlot.whole, Slot.whole, htext]
    rw [hshape, Reader.skip_blank e.1.blank_before]
    exact Reader.skip_of_stops (stops_cons.mpr (by decide))
  exact (reads_commas '{' (by decide) (by decide) hne (fun e _ => e.2.blank_after) hmember
    hbegins r).map Json.object

end Nested

/-- **Values.** A value is read from its text if nothing extends it. -/
theorem Spells.reads {cs : List Char} {v : Json} (h : Spells cs v) {n : Nat} (hn : cs.length ≤ n)
    (r : List Char) (hr : Stops isNumberPart r) : (Reader.value n).Reads (cs ++ r) v r := by
  induction n generalizing cs v r with
  | zero =>
    obtain ⟨c, tail, rfl, -⟩ := h.begins
    exact absurd hn (by simp)
  | succ n ih =>
    cases h with
    | nullWord => exact ⟨by simp; omega, rfl⟩
    | trueWord => exact ⟨by simp; omega, rfl⟩
    | falseWord => exact ⟨by simp; omega, rfl⟩
    | number h =>
      obtain ⟨c, tail, rfl, hc⟩ := h.begins
      obtain ⟨hshorter, hread⟩ := (h.reads hr).map Json.number
      exact ⟨hshorter, (value_number hc n (tail ++ r)).trans hread⟩
    | string h =>
      obtain ⟨tail, rfl⟩ := h.begins
      exact (h.reads r).map Json.string
    | @emptyArray cs h =>
      rw [List.cons_append, List.append_assoc]
      refine (Reader.bracketed_empty '[' ?_).map Json.array
      rw [Reader.skip_blank h]
      exact Reader.skip_of_stops (stops_cons.mpr (by decide))
    | @array items hne hitems =>
      rw [List.cons_append, List.append_assoc]
      refine reads_array hne hitems (fun i hi r hr => ih (hitems i hi) ?_ r hr) r
      have hfits := length_le_intercalate (List.mem_map_of_mem (f := Slot.whole) hi)
      simp [Slot.whole] at hfits hn
      omega
    | @emptyObject cs h =>
      rw [List.cons_append, List.append_assoc]
      refine (Reader.bracketed_empty '{' ?_).map Json.object
      rw [Reader.skip_blank h]
      exact Reader.skip_of_stops (stops_cons.mpr (by decide))
    | @object slots hne hnames hvalues =>
      rw [List.cons_append, List.append_assoc]
      refine reads_object hne hnames hvalues (fun e he r hr => ih (hvalues e he) ?_ r hr) r
      have hfits := length_le_intercalate (List.mem_map_of_mem (f := MemberSlot.whole) he)
      simp [MemberSlot.whole, Slot.whole] at hfits hn
      omega

/-- **Texts.** A text that stands for a value is read as this value. -/
theorem parse?_of_denotes {s : List Char} {v : Json} (h : Denotes s v) : parse? s = some v := by
  obtain ⟨slot, rfl, rfl, h⟩ := h
  have hlength : slot.text.length ≤ slot.whole.length := by
    simp [Slot.whole]
    omega
  have hstops : Stops isNumberPart (slot.after ++ []) := stops_after slot.blank_after (stops_nil _)
  have hskip : Reader.skip slot.whole = slot.text ++ slot.after := by
    unfold Slot.whole
    rw [Reader.skip_blank slot.blank_before, h.skip]
  have hend : Reader.skip slot.after = [] := by
    have hnil := Reader.skip_blank slot.blank_after []
    rwa [List.append_nil] at hnil
  rw [List.append_nil] at hstops
  have hread := h.reads hlength slot.after hstops
  rw [← hskip] at hread
  obtain ⟨_, hread⟩ := hread
  unfold parse?
  rw [hread]
  dsimp only
  rw [hend]
  rfl

end RollingBall.Json
