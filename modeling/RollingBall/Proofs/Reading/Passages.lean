import RollingBall.Proofs.Reading.Exactness

/-!
# Phrases within texts

A phrase does not depend on what comes after it, but for one thing: a name that is not called ends
where neither another character of it nor a parenthesis follows. So the part of a text that is read
as a formula is one by itself (`Grammar.exists_derives_of_yields`), and a formula is read whole off
every text that goes on with a character that could neither belong to a name nor to a formula
(`Grammar.Derives.yields`).

## Main definitions

* `Grammar.Passage`: a phrase that is also one if something else comes after it.
-/

namespace RollingBall.Grammar

variable {α ρ : Type}

/-- The character would go on with a name or make a call of it. -/
def extendsName (c : Char) : Bool := Parser.isNamePart c || c == '('

/-- A phrase takes a passage off `s` and leaves `r`, and the passage is such a phrase whatever comes
after it, unless that extends a name and `r` does not. -/
def Passage (Phrase : List Char → List Char → Prop) (s r : List Char) : Prop :=
  ∃ text, s = text ++ r ∧
    ∀ r', (Stops extendsName r → Stops extendsName r') → Phrase (text ++ r') r'

namespace Passage

variable {Phrase Phrase' : List Char → List Char → Prop} {s s' r : List Char} {c : Char}

theorem imp (h : Passage Phrase s r) (himp : ∀ s r, Phrase s r → Phrase' s r) :
    Passage Phrase' s r := by
  obtain ⟨text, hs, hphrase⟩ := h
  exact ⟨text, hs, fun r' hr => himp _ _ (hphrase r' hr)⟩

/-- One phrase after another is a passage if both are. -/
theorem append (h : Passage Phrase s s') (h' : Passage Phrase' s' r) :
    Passage (fun s r => ∃ s', Phrase s s' ∧ Phrase' s' r) s r := by
  obtain ⟨text, rfl, hphrase⟩ := h
  obtain ⟨text', rfl, hphrase'⟩ := h'
  refine ⟨text ++ text', (List.append_assoc ..).symm, fun r' hr => ?_⟩
  refine ⟨text' ++ r', ?_, hphrase' r' hr⟩
  rw [List.append_assoc]
  refine hphrase _ ?_
  -- What comes after the first phrase changes its beginning only if the second one is empty.
  cases text' with
  | nil => exact hr
  | cons c text' => simp only [List.cons_append, stops_cons, imp_self]

theorem cons (c : Char) (h : Passage Phrase s r) :
    Passage (fun s r => ∃ s', s = c :: s' ∧ Phrase s' r) (c :: s) r := by
  obtain ⟨text, rfl, hphrase⟩ := h
  exact ⟨c :: text, rfl, fun r' hr => ⟨text ++ r', rfl, hphrase r' hr⟩⟩

/-- A character that has to come next may be counted among the passage. -/
theorem concat (h : Passage Phrase s (c :: r)) : Passage (fun s r => Phrase s (c :: r)) s r := by
  obtain ⟨text, rfl, hphrase⟩ := h
  refine ⟨text ++ [c], List.append_cons .., fun r' _ => ?_⟩
  rw [← List.append_cons]
  exact hphrase _ (by simp only [stops_cons, imp_self])

end Passage

/-! ## Words -/

section Words

variable {s r : List Char} {name : String}

theorem Number.passage [Scalar α] {a : α} (h : Number s a r) :
    Passage (fun s r => Number s a r) s r := by
  cases h with
  | @whole ds _ hne hds => exact ⟨ds, rfl, fun r' _ => .whole hne hds⟩
  | @point ds fs _ hne hall =>
    refine ⟨ds ++ '.' :: fs, by simp, fun r' _ => ?_⟩
    rw [List.append_assoc, List.cons_append]
    exact .point hne hall

/-- A name that nothing extends is one wherever nothing extends it. -/
theorem Name.passage (h : Name s name r) (hr : Stops (· == '(') r) :
    Passage (fun s r => Name s name r ∧ Stops (· == '(') r) s r := by
  obtain @⟨c, cs, _, hc, hcs, hstops⟩ := h
  refine ⟨c :: cs, rfl, fun r' hr' => ?_⟩
  have hends : Stops extendsName r' := hr' fun d hd =>
    Bool.or_eq_false_iff.mpr ⟨hstops d hd, hr d hd⟩
  have hname : Stops Parser.isNamePart r' := hends.mono fun d hd => by
    rw [extendsName, hd, Bool.true_or]
  have hcall : Stops (· == '(') r' := hends.mono fun d hd => by
    rw [extendsName, hd, Bool.or_true]
  exact ⟨.mk hc hcs hname, hcall⟩

theorem Name.passage_call {s' : List Char} (h : Name s name ('(' :: s')) :
    Passage (fun s r => Name s name ('(' :: r)) s s' := by
  cases h with
  | @mk c cs _ hc hcs hstops =>
    refine ⟨c :: (cs ++ ['(']), by simp, fun r' _ => ?_⟩
    rw [List.cons_append, ← List.append_cons]
    exact .mk hc hcs (stops_cons.mpr (stops_cons.mp hstops))

end Words

/-! ## Phrases -/

variable [Scalar α] {B : Builder α ρ} {n : Nat} {s r : List Char} {e : ρ}

theorem Primary.ne_nil (h : Primary B n s e r) : s ≠ [] := by
  cases h with
  | parentheses h => exact List.cons_ne_nil _ _
  | number h =>
    obtain ⟨c, tail, rfl, -⟩ := h.begins
    exact List.cons_ne_nil _ _
  | symbol h | call h =>
    obtain ⟨c, tail, rfl, -⟩ := h.begins
    exact List.cons_ne_nil _ _

theorem Operand.ne_nil (h : Operand B n s e r) : s ≠ [] := by
  cases h with
  | positive h =>
    cases h with
    | base h | power h => exact h.ne_nil
  | negative h => exact List.cons_ne_nil _ _

mutual

theorem Expression.passage : ∀ {n : Nat} {s r : List Char} {e : ρ}, Expression B n s e r →
    Passage (fun s r => Expression B n s e r) s r
  | _, _, _, _, .chain hfirst hlinks =>
    (hfirst.passage.append hlinks.passage).imp fun _ _ ⟨_, hfirst, hlinks⟩ => .chain hfirst hlinks

theorem Links.passage : ∀ {n : Nat} {s r : List Char} {ls : List (BinaryOp × ρ)},
    Links B n s ls r → Passage (fun s r => Links B n s ls r) s r
  | _, _, _, _, .done => ⟨[], rfl, fun _ _ => .done⟩
  | _, _, _, _, .sign hsign hnext hlinks =>
    ((hnext.passage.append hlinks.passage).cons _).imp fun _ _ ⟨_, hs, _, hnext, hlinks⟩ =>
      hs ▸ .sign hsign hnext hlinks
  | _, _, _, _, .product hc hnext hlinks => by
    obtain ⟨text, hs, hphrase⟩ := hnext.passage.append hlinks.passage
    cases text with
    | nil =>
      obtain ⟨_, hempty, -⟩ := hphrase [] fun _ => stops_nil _
      exact absurd rfl hempty.ne_nil
    | cons c text =>
      obtain ⟨rfl, -⟩ := List.cons.inj hs
      refine ⟨_ :: text, hs, fun r' hr => ?_⟩
      obtain ⟨_, hnext, hlinks⟩ := hphrase r' hr
      exact .product hc hnext hlinks

theorem Operand.passage : ∀ {n : Nat} {s r : List Char} {e : ρ}, Operand B n s e r →
    Passage (fun s r => Operand B n s e r) s r
  | _, _, _, _, .positive h => h.passage.imp fun _ _ => .positive
  | _, _, _, _, .negative h => (h.passage.cons '-').imp fun _ _ ⟨_, hs, h⟩ => hs ▸ .negative h

theorem Power.passage : ∀ {n : Nat} {s r : List Char} {e : ρ}, Power B n s e r →
    Passage (fun s r => Power B n s e r) s r
  | _, _, _, _, .base h => h.passage.imp fun _ _ => .base
  | _, _, _, _, .power hbase hexponent =>
    (hbase.passage.concat.append hexponent.passage).imp fun _ _ ⟨_, hbase, hexponent⟩ =>
      .power hbase hexponent

theorem Primary.passage : ∀ {n : Nat} {s r : List Char} {e : ρ}, Primary B n s e r →
    Passage (fun s r => Primary B n s e r) s r
  | _, _, _, _, .parentheses h =>
    (h.passage.concat.cons '(').imp fun _ _ ⟨_, hs, h⟩ => hs ▸ .parentheses h
  | _, _, _, _, .number h => h.passage.imp fun _ _ => .number
  | _, _, _, _, .symbol hname hstops hsymbol =>
    (hname.passage hstops).imp fun _ _ ⟨hname, hstops⟩ => .symbol hname hstops hsymbol
  | _, _, _, _, .call hname hfn hargs hlen =>
    (hname.passage_call.append hargs.passage.concat).imp fun _ _ ⟨_, hname, hargs⟩ =>
      .call hname hfn hargs hlen

theorem Arguments.passage : ∀ {n : Nat} {s r : List Char} {es : List ρ}, Arguments B n s es r →
    Passage (fun s r => Arguments B n s es r) s r
  | _, _, _, _, .last h => h.passage.imp fun _ _ => .last
  | _, _, _, _, .more h hargs =>
    (h.passage.concat.append hargs.passage).imp fun _ _ ⟨_, h, hargs⟩ => .more h hargs

end

/-! ## Formulas within texts -/

/-- What is read as a formula is one by itself. -/
theorem exists_derives_of_yields
    (h : (Parser.expression B (Parser.operand B n)).Yields s e r) :
    ∃ text, s = text ++ r ∧ Derives B n text e := by
  obtain ⟨text, hs, hphrase⟩ := (expression_sound operand_sound h).passage
  have hderives := hphrase [] fun _ => stops_nil _
  rw [List.append_nil] at hderives
  exact ⟨text, hs, hderives⟩

/-- A formula is read whole if what comes after it cannot go on with it or with a name. -/
theorem Derives.yields {text : List Char} (h : Derives B n text e)
    (hr : Stops continuesFormula r) (hname : Stops extendsName r) :
    (Parser.expression B (Parser.operand B n)).Yields (text ++ r) e r := by
  obtain ⟨text, rfl, hphrase⟩ := Expression.passage h
  rw [List.append_nil]
  exact expression_complete (hphrase r fun _ => hname) hr

end RollingBall.Grammar
