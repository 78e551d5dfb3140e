import RollingBall.Proofs.Reading.Grammar

/-!
# Names and numbers

Words are read by taking all the characters of a class, so a word that is not followed by another
character of its class is read whole (`Stops.takeWhile`, `Stops.dropWhile`). A name of the grammar
is what is taken (`name_iff`). The numeral cut off a text is a number of the grammar
(`number_of_scan`), and a number is cut off whole and has its value (`read?_of_number`) when no
digit and no point comes after it.
-/

namespace RollingBall.Grammar

variable {α : Type}

/-! ## Runs of characters -/

section Runs

variable {p : Char → Bool} {cs r : List Char}

theorem Stops.takeWhile (hr : Stops p r) (hcs : ∀ c ∈ cs, p c) : (cs ++ r).takeWhile p = cs := by
  rw [List.takeWhile_append_of_pos hcs]
  cases r with
  | nil => simp
  | cons c r => simp [stops_cons.mp hr]

theorem Stops.dropWhile (hr : Stops p r) (hcs : ∀ c ∈ cs, p c) : (cs ++ r).dropWhile p = r := by
  rw [List.dropWhile_append_of_pos hcs]
  cases r with
  | nil => simp
  | cons c r => simp [stops_cons.mp hr]

theorem stops_dropWhile (p : Char → Bool) (s : List Char) : Stops p (s.dropWhile p) := by
  intro c hc
  have hnot := List.head?_dropWhile_not p s
  rw [hc] at hnot
  simpa using hnot

theorem of_mem_takeWhile {c : Char} {s : List Char} (h : c ∈ s.takeWhile p) : p c :=
  List.all_eq_true.mp List.all_takeWhile c h

/-- A text is a run of characters of a class and then something else. -/
theorem exists_run (p : Char → Bool) (s : List Char) :
    ∃ cs r, s = cs ++ r ∧ (∀ c ∈ cs, p c) ∧ Stops p r :=
  ⟨s.takeWhile p, s.dropWhile p, List.takeWhile_append_dropWhile.symm,
    fun _ => of_mem_takeWhile, stops_dropWhile p s⟩

end Runs

/-! ## Names -/

theorem name_iff {s r : List Char} {name : String} :
    Name s name r ↔ ∃ c tail, s = c :: tail ∧ Text.isLetter c ∧
      name = String.ofList (c :: tail.takeWhile Parser.isNamePart) ∧
      r = tail.dropWhile Parser.isNamePart := by
  constructor
  · rintro ⟨hc, hcs, hr⟩
    refine ⟨_, _, rfl, hc, ?_, (hr.dropWhile hcs).symm⟩
    rw [hr.takeWhile hcs]
  · rintro ⟨c, tail, rfl, hc, rfl, rfl⟩
    have hcs : ∀ d ∈ tail.takeWhile Parser.isNamePart, Parser.isNamePart d :=
      fun _ => of_mem_takeWhile
    have h := Name.mk hc hcs (stops_dropWhile Parser.isNamePart tail)
    rwa [List.takeWhile_append_dropWhile] at h

theorem Name.begins {s r : List Char} {name : String} (h : Name s name r) :
    ∃ c tail, s = c :: tail ∧ Text.isLetter c := by
  obtain ⟨c, tail, hs, hc, -⟩ := name_iff.mp h
  exact ⟨c, tail, hs, hc⟩

/-! ## Numbers -/

/-- What a numeral is made of. -/
def isNumeralPart (c : Char) : Bool := c.isDigit || c == '.'

theorem digit_not_letter {c : Char} (h : c.isDigit) : Text.isLetter c = false := by
  have hcode : 48 ≤ c.toNat ∧ c.toNat ≤ 57 := by
    simpa [Char.isDigit, UInt32.le_iff_toNat_le] using h
  have hascii : c.toNat < 128 := by omega
  have halpha : c.isAlpha = false := by
    unfold Char.isAlpha Char.isUpper Char.isLower
    simp only [Bool.or_eq_false_iff, Bool.and_eq_false_iff, decide_eq_false_iff_not, ge_iff_le,
      UInt32.le_iff_toNat_le]
    simp
    omega
  rw [Text.isLetter, if_pos hascii, halpha]

/-- A number begins with a digit or the point, so neither with a letter nor with a sign. -/
theorem Number.begins [Scalar α] {s r : List Char} {a : α} (h : Number s a r) :
    ∃ c tail, s = c :: tail ∧ isNumeralPart c := by
  cases h with
  | @whole ds r hne hds =>
    obtain ⟨c, cs, rfl⟩ := List.exists_cons_of_ne_nil hne
    have hc := hds c List.mem_cons_self
    exact ⟨c, cs ++ r, rfl, by rw [isNumeralPart, hc, Bool.true_or]⟩
  | @point ds fs r hne hall =>
    cases ds with
    | nil => exact ⟨'.', fs ++ r, rfl, rfl⟩
    | cons c cs =>
      have hc := hall c List.mem_cons_self
      exact ⟨c, _, rfl, by rw [isNumeralPart, hc, Bool.true_or]⟩

section Numbers

variable {ds fs r : List Char}

theorem Stops.digit (h : Stops isNumeralPart r) : Stops Char.isDigit r :=
  h.mono (fun c hc => by simp [isNumeralPart, hc])

theorem not_isDigit_point : Char.isDigit '.' = false := by decide

theorem stops_point : Stops Char.isDigit ('.' :: r) := stops_cons.mpr not_isDigit_point

theorem scan_whole (hds : ∀ c ∈ ds, c.isDigit) (hr : Stops isNumeralPart r) :
    Numeral.scan (ds ++ r) = (ds, r) := by
  unfold Numeral.scan
  rw [hr.digit.takeWhile hds, hr.digit.dropWhile hds]
  split
  · exact absurd hr (by simp [isNumeralPart])
  · rfl

theorem scan_point (hds : ∀ c ∈ ds, c.isDigit) (hfs : ∀ c ∈ fs, c.isDigit)
    (hr : Stops Char.isDigit r) :
    Numeral.scan (ds ++ '.' :: (fs ++ r)) = (ds ++ '.' :: fs, r) := by
  unfold Numeral.scan
  rw [stops_point.takeWhile hds, stops_point.dropWhile hds]
  simp only [hr.takeWhile hfs, hr.dropWhile hfs]

variable [Scalar α]

theorem read?_whole (hds : ∀ c ∈ ds, c.isDigit) :
    Numeral.read? (α := α) ds =
      if ds.isEmpty then none
      else some (OfScientific.ofScientific (Decimal.ofDigits ds) true 0) := by
  have hnil : Stops Char.isDigit [] := stops_nil _
  have htake := hnil.takeWhile hds
  have hdrop := hnil.dropWhile hds
  rw [List.append_nil] at htake hdrop
  simp only [Numeral.read?, htake, hdrop]

theorem read?_point (hds : ∀ c ∈ ds, c.isDigit) (hfs : ∀ c ∈ fs, c.isDigit) :
    Numeral.read? (α := α) (ds ++ '.' :: fs) =
      if (ds ++ fs).isEmpty then none
      else some (OfScientific.ofScientific (Decimal.ofDigits (ds ++ fs)) true fs.length) := by
  have hall : fs.all Char.isDigit = true := List.all_eq_true.mpr hfs
  simp only [Numeral.read?, stops_point.takeWhile hds, stops_point.dropWhile hds, hall,
    Bool.true_and, Bool.not_eq_true']
  by_cases hempty : (ds ++ fs).isEmpty
  · simp [hempty]
  · simp [hempty]

/-- What is cut off a text, if a digit is in it, is a number and has its value. -/
theorem number_of_scan {s : List Char} (h : (Numeral.scan s).1.any Char.isDigit) :
    ∃ a : α, Numeral.read? (Numeral.scan s).1 = some a ∧ Number s a (Numeral.scan s).2 := by
  obtain ⟨ds, r, rfl, hds, hr⟩ := exists_run Char.isDigit s
  by_cases hpoint : Stops (· == '.') r
  · have hstops : Stops isNumeralPart r := fun c hc => by
      rw [isNumeralPart, hr c hc, Bool.false_or]
      exact hpoint c hc
    rw [scan_whole hds hstops] at h ⊢
    have hne : ds ≠ [] := by
      rintro rfl
      exact Bool.false_ne_true h
    exact ⟨_, by rw [read?_whole hds, if_neg (by simpa using hne)], .whole hne hds⟩
  · obtain ⟨tail, rfl⟩ : ∃ tail, r = '.' :: tail := by
      simpa [stops_char_iff] using hpoint
    obtain ⟨fs, r, rfl, hfs, hr'⟩ := exists_run Char.isDigit tail
    rw [scan_point hds hfs hr'] at h ⊢
    have hne : ds ++ fs ≠ [] := by
      intro hnil
      obtain ⟨rfl, rfl⟩ := List.append_eq_nil_iff.mp hnil
      exact Bool.false_ne_true h
    have hall : ∀ c ∈ ds ++ fs, c.isDigit := fun c hc =>
      (List.mem_append.mp hc).elim (hds c) (hfs c)
    exact ⟨_, by rw [read?_point hds hfs, if_neg (by simpa using hne)], .point hne hall⟩

/-- A number that no digit and no point follows is cut off whole. -/
theorem read?_of_number {s : List Char} {a : α} (h : Number s a r) (hr : Stops isNumeralPart r) :
    (Numeral.scan s).1.any Char.isDigit ∧ Numeral.read? (Numeral.scan s).1 = some a ∧
      (Numeral.scan s).2 = r := by
  cases h with
  | @whole ds _ hne hds =>
    rw [scan_whole hds hr]
    refine ⟨?_, by rw [read?_whole hds, if_neg (by simpa using hne)], rfl⟩
    obtain ⟨c, hc⟩ := List.exists_mem_of_ne_nil ds hne
    exact List.any_eq_true.mpr ⟨c, hc, hds c hc⟩
  | @point ds fs _ hne hall =>
    have hds : ∀ c ∈ ds, c.isDigit := fun c hc => hall c (List.mem_append_left _ hc)
    have hfs : ∀ c ∈ fs, c.isDigit := fun c hc => hall c (List.mem_append_right _ hc)
    rw [scan_point hds hfs hr.digit]
    refine ⟨?_, by rw [read?_point hds hfs, if_neg (by simpa using hne)], rfl⟩
    obtain ⟨c, hc⟩ := List.exists_mem_of_ne_nil (ds ++ fs) hne
    have hmem : c ∈ ds ++ '.' :: fs := by
      rcases List.mem_append.mp hc with hc | hc
      · exact List.mem_append_left _ hc
      · exact List.mem_append_right _ (List.mem_cons_of_mem _ hc)
    exact List.any_eq_true.mpr ⟨c, hmem, hall c hc⟩

end Numbers

end RollingBall.Grammar
