import RollingBall.Proofs.Reading.Comparisons

/-!
# Texts cut short

What a reader takes off a text does not depend on how much comes after it: if what it leaves is cut
short, or cut off, it takes the same and leaves what remains (`Parser.Stable`). It could look only
at the beginning of what it leaves, for one or two characters, and nothing that stops it there is
undone by a cut. Each reader is stable if those that it calls are.

## Main definitions

* `Grammar.Cut`: something is taken off a text, wherever the rest is cut.
* `Parser.Stable`: a reader takes the same wherever the rest is cut.
-/

namespace RollingBall

variable {α ρ σ : Type}

namespace Grammar

/-- Something is taken off `s` and leaves `r`, and it is also taken if only the beginning of `r`
comes after it. -/
def Cut (Reading : List Char → List Char → Prop) (s r : List Char) : Prop :=
  ∃ text, s = text ++ r ∧ ∀ r', r' <+: r → Reading (text ++ r') r'

namespace Cut

variable {Reading Reading' : List Char → List Char → Prop} {s s' r : List Char}

theorem suffix (h : Cut Reading s r) : r <:+ s := by
  obtain ⟨text, rfl, -⟩ := h
  exact List.suffix_append text r

theorem imp (h : Cut Reading s r) (himp : ∀ s' r', r' <+: r → Reading s' r' → Reading' s' r') :
    Cut Reading' s r := by
  obtain ⟨text, hs, hreading⟩ := h
  exact ⟨text, hs, fun r' hr => himp _ _ hr (hreading r' hr)⟩

theorem append (h : Cut Reading s s') (h' : Cut Reading' s' r) :
    Cut (fun s r => ∃ s', Reading s s' ∧ Reading' s' r) s r := by
  obtain ⟨text, rfl, hreading⟩ := h
  obtain ⟨text', rfl, hreading'⟩ := h'
  refine ⟨text ++ text', (List.append_assoc ..).symm, fun r' hr => ?_⟩
  refine ⟨text' ++ r', ?_, hreading' r' hr⟩
  rw [List.append_assoc]
  exact hreading _ ((List.prefix_append_right_inj text').mpr hr)

theorem cons (c : Char) (h : Cut Reading s r) :
    Cut (fun s r => ∃ s', s = c :: s' ∧ Reading s' r) (c :: s) r := by
  obtain ⟨text, rfl, hreading⟩ := h
  exact ⟨c :: text, rfl, fun r' hr => ⟨text ++ r', rfl, hreading r' hr⟩⟩

/-- A character that has to come next may be counted among what is taken. -/
theorem concat {c : Char} (h : Cut Reading s (c :: r)) :
    Cut (fun s r => Reading s (c :: r)) s r := by
  obtain ⟨text, rfl, hreading⟩ := h
  refine ⟨text ++ [c], List.append_cons .., fun r' hr => ?_⟩
  rw [← List.append_cons]
  exact hreading _ (List.cons_prefix_cons.mpr ⟨rfl, hr⟩)

/-- Where nothing is taken, the cut text itself is left. -/
theorem none (h : ∀ r', r' <+: r → Reading r' r') : Cut Reading r r := ⟨[], rfl, h⟩

end Cut

/-! ## Words -/

theorem Stops.cut {p : Char → Bool} {r r' : List Char} (h : Stops p r) (hr : r' <+: r) :
    Stops p r' := by
  obtain ⟨t, rfl⟩ := hr
  intro c hc
  cases r' with
  | nil => contradiction
  | cons d r' => exact h c hc

theorem Name.cut {s r : List Char} {name : String} (h : Name s name r) :
    Cut (fun s r => Name s name r) s r := by
  cases h with
  | @mk c cs _ hc hcs hstops => exact ⟨c :: cs, rfl, fun r' hr => .mk hc hcs (hstops.cut hr)⟩

/-- The same numeral is cut off a text, wherever the rest is cut. -/
theorem cut_scan (s : List Char) :
    Cut (fun s' r' => Numeral.scan s' = ((Numeral.scan s).1, r')) s (Numeral.scan s).2 := by
  obtain ⟨ds, r, rfl, hds, hr⟩ := exists_run Char.isDigit s
  by_cases hpoint : Stops (· == '.') r
  · have hstops : Stops isNumeralPart r := fun c hc => by
      rw [isNumeralPart, hr c hc, Bool.false_or]
      exact hpoint c hc
    rw [scan_whole hds hstops]
    exact ⟨ds, rfl, fun r' hr' => scan_whole hds (hstops.cut hr')⟩
  · obtain ⟨tail, rfl⟩ : ∃ tail, r = '.' :: tail := by
      simpa [stops_char_iff] using hpoint
    obtain ⟨fs, r, rfl, hfs, hr'⟩ := exists_run Char.isDigit tail
    rw [scan_point hds hfs hr']
    refine ⟨ds ++ '.' :: fs, by simp, fun r'' hr'' => ?_⟩
    rw [List.append_assoc, List.cons_append]
    exact scan_point hds hfs (hr'.cut hr'')

end Grammar

namespace Parser

open Grammar

/-- What the reader takes off a text it also takes if only the beginning of the rest comes after
it. -/
structure Stable (p : Parser ρ) : Prop where
  cut {s r : List Char} {e : ρ} : p.Yields s e r → Cut (fun s r => p.Yields s e r) s r

/-! ## Chains -/

/-- Where the rest is cut, there is still no separator if there was none, and the same one if
something is left after it. -/
structure StableSeparator (separator? : (s : List Char) → Option (σ × Rest s)) : Prop where
  none {r r' : List Char} : separator? r = none → r' <+: r → separator? r' = none
  some {s : List Char} {separator : σ} {rest : Rest s} : separator? s = some (separator, rest) →
    Cut (fun s r => r ≠ [] → ∃ h, separator? s = some (separator, ⟨r, h⟩)) s rest.val

theorem stable_operator : StableSeparator operator? where
  none h hr := operator?_eq_none_iff.mpr ((operator?_eq_none_iff.mp h).cut hr)
  some {s op rest} h := by
    rcases operator?_eq_some_iff.mp h with ⟨c, hs, hsign⟩ | ⟨rfl, hs, c, tail, rfl, hc⟩
    · exact ⟨[c], hs, fun r' _ _ => ⟨_, operator?_sign hsign⟩⟩
    · rw [hs]
      refine .none fun r' hr hne => ?_
      obtain ⟨d, r', rfl⟩ := List.exists_cons_of_ne_nil hne
      obtain ⟨rfl, -⟩ := List.cons_prefix_cons.mp hr
      exact ⟨_, operator?_letter hc⟩

theorem relation?_text {relation : Relation} {s : List Char}
    (h : relation.Longest (relation.text ++ s)) :
    ∃ hle, relation? (relation.text ++ s) = some (relation, ⟨s, hle⟩) :=
  ⟨(List.suffix_append relation.text s).length_le, relation?_eq_some_iff.mpr ⟨rfl, h⟩⟩

theorem relation?_eq_none_iff {s : List Char} :
    relation? s = none ↔ ∀ relation : Relation, ¬ relation.text <+: s := by
  constructor
  · rintro h relation ⟨t, rfl⟩
    by_cases hlongest : relation.Longest (relation.text ++ t)
    · obtain ⟨hle, hfound⟩ := relation?_text hlongest
      rw [h] at hfound
      contradiction
    · -- Then the relation is cut short by an `=`, and the longer one is found.
      rw [Relation.longest_iff, not_or] at hlongest
      obtain ⟨tail, rfl⟩ : ∃ tail, t = '=' :: tail := by
        simpa [stops_char_iff] using hlongest.2
      cases relation <;> contradiction
  · intro h
    cases hs : relation? s with
    | none => rfl
    | some found =>
      obtain ⟨htext, -⟩ := relation?_eq_some_iff.mp hs
      exact absurd ⟨_, htext.symm⟩ (h found.1)

theorem stable_relation : StableSeparator relation? where
  none h hr := relation?_eq_none_iff.mpr fun relation hbegins =>
    relation?_eq_none_iff.mp h relation (hbegins.trans hr)
  some {s relation rest} h := by
    obtain ⟨hs, hlongest⟩ := relation?_eq_some_iff.mp h
    refine ⟨relation.text, hs, fun r' hr _ => relation?_text fun other hother => ?_⟩
    rw [hs] at hlongest
    exact hlongest other (hother.trans ((List.prefix_append_right_inj relation.text).mpr hr))

section Chains

variable {separator? : (s : List Char) → Option (σ × Rest s)} {p : Parser ρ}

theorem cut_links (hseparator : StableSeparator separator?) (hp : p.Stable) {s r : List Char}
    {ls : List (σ × ρ)} (h : Leaves (links separator? p s) ls r) :
    Cut (fun s r => Leaves (links separator? p s) ls r) s r := by
  -- Each link takes something off the text, so the induction is on the links.
  induction ls generalizing s with
  | nil =>
    rcases links_leaves_iff.mp h with ⟨hnone, -, rfl⟩ | ⟨_, _, _, _, _, -, -, -, hcons⟩
    · exact .none fun r' hr => links_leaves_iff.mpr (.inl ⟨hseparator.none hnone hr, rfl, rfl⟩)
    · contradiction
  | cons link ls ih =>
    rcases links_leaves_iff.mp h with
      ⟨-, hnil, -⟩ | ⟨separator, rest, next, s', more, hfound, hnext, hmore, hcons⟩
    · contradiction
    · obtain ⟨rfl, rfl⟩ := List.cons.inj hcons
      refine ((hseparator.some hfound).append ((hp.cut hnext).append (ih hmore))).imp ?_
      rintro s' r' - ⟨rest, hfound, t, hnext, hmore⟩
      -- An item was taken, so something is left after the separator.
      have hne : rest ≠ [] := List.ne_nil_of_length_pos (Nat.zero_lt_of_lt hnext.shorter)
      obtain ⟨hle, hfound⟩ := hfound hne
      exact links_leaves_iff.mpr (.inr ⟨_, _, _, _, _, hfound, hnext, hmore, rfl⟩)

theorem Stable.expression {B : Builder α ρ} (hp : p.Stable) : (expression B p).Stable := by
  refine ⟨fun {s r e} h => ?_⟩
  obtain ⟨first, s', ls, hfirst, hls, rfl⟩ := expression_yields_iff.mp h
  refine ((hp.cut hfirst).append (cut_links stable_operator hp hls)).imp ?_
  rintro s' r' - ⟨t, hfirst, hls⟩
  exact expression_yields_iff.mpr ⟨_, t, _, hfirst, hls, rfl⟩

theorem Stable.comparisons (hp : p.Stable) : (comparisons p).Stable := by
  refine ⟨fun {s r e} h => ?_⟩
  obtain ⟨s', hfirst, hls⟩ := comparisons_yields_iff.mp h
  refine ((hp.cut hfirst).append (cut_links stable_relation hp hls)).imp ?_
  rintro s' r' - ⟨t, hfirst, hls⟩
  exact comparisons_yields_iff.mpr ⟨t, hfirst, hls⟩

end Chains

/-! ## Calls -/

section Calls

variable {B : Builder α ρ} {p : Parser ρ}

theorem cut_moreArguments (hp : p.Stable) {k : Nat} {s r : List Char} {es : List ρ}
    (h : Leaves (moreArguments p k s) es r) :
    Cut (fun s r => Leaves (moreArguments p k s) es r) s r := by
  induction k generalizing s es with
  | zero =>
    obtain ⟨rfl, rfl⟩ := moreArguments_zero_leaves_iff.mp h
    exact .none fun r' _ => moreArguments_zero_leaves_iff.mpr ⟨rfl, rfl⟩
  | succ k ih =>
    obtain ⟨s', arg, s'', more, rfl, harg, hmore, rfl⟩ := moreArguments_succ_leaves_iff.mp h
    refine (((hp.cut harg).append (ih hmore)).cons ',').imp ?_
    rintro _ r' - ⟨t, rfl, t', harg, hmore⟩
    exact moreArguments_succ_leaves_iff.mpr ⟨t, _, t', _, rfl, harg, hmore, rfl⟩

theorem Stable.call (hp : p.Stable) (name : String) : (call B p name).Stable := by
  refine ⟨fun {s r e} h => ?_⟩
  obtain ⟨fn, first, s', more, _, hfn, hfirst, hmore, rfl, rfl⟩ := call_yields_iff.mp h
  refine ((hp.cut hfirst).append (cut_moreArguments hp hmore).concat).imp ?_
  rintro s' r' - ⟨t, hfirst, hmore⟩
  exact call_yields_iff.mpr ⟨fn, _, t, _, _, hfn, hfirst, hmore, rfl, rfl⟩

end Calls

/-! ## Operands -/

section Operands

variable [Scalar α] {B : Builder α ρ} {p : Parser ρ}

theorem numeral_yields_iff {s r : List Char} {e : ρ} :
    (numeral B).Yields s e r ↔ ∃ text, Numeral.scan s = (text, r) ∧ text.any Char.isDigit ∧
      ∃ a : α, Numeral.read? text = some a ∧ e = B.constant a := by
  constructor
  · rintro ⟨hlt, hs⟩
    unfold numeral at hs
    split at hs
    · rename_i hdigit
      split at hs
      · rename_i a hread
        obtain ⟨⟩ := hs
        exact ⟨_, rfl, hdigit, a, hread, rfl⟩
      · contradiction
    · split at hs <;> contradiction
  · rintro ⟨text, hscan, hdigit, a, hread, rfl⟩
    have htext : (Numeral.scan s).1 = text := congrArg Prod.fst hscan
    have hrest : (Numeral.scan s).2 = r := congrArg Prod.snd hscan
    subst htext hrest
    refine ⟨Numeral.length_scan_lt hdigit, ?_⟩
    unfold numeral
    rw [dif_pos hdigit, hread]

theorem stable_numeral : (numeral B).Stable := by
  refine ⟨fun {s r e} h => ?_⟩
  obtain ⟨text, hscan, hdigit, a, hread, rfl⟩ := numeral_yields_iff.mp h
  have hcut := cut_scan s
  rw [hscan] at hcut
  exact hcut.imp fun s' r' _ hscan => numeral_yields_iff.mpr ⟨text, hscan, hdigit, a, hread, rfl⟩

theorem primary_numeral_yields_iff {s r : List Char} {e : ρ}
    (h : Stops (fun c => c == '(' || Text.isLetter c) s) :
    (primary B p).Yields s e r ↔ (numeral B).Yields s e r := by
  unfold Yields
  rw [primary_eq_numeral h]

theorem Stable.primary (hp : p.Stable) : (primary B p).Stable := by
  refine ⟨fun {s r e} h => ?_⟩
  by_cases hother : Stops (fun c => c == '(' || Text.isLetter c) s
  · obtain ⟨text, rfl, hcut⟩ := stable_numeral.cut ((primary_numeral_yields_iff hother).mp h)
    refine ⟨text, rfl, fun r' hr => ?_⟩
    -- A numeral is not empty, so the text begins as it did.
    have hbegins := hother.cut ((List.prefix_append_right_inj text).mpr hr)
    exact (primary_numeral_yields_iff hbegins).mpr (hcut r' hr)
  · obtain ⟨c, s, rfl⟩ : ∃ c s', s = c :: s' := by
      cases s with
      | nil => exact absurd (stops_nil _) hother
      | cons c s => exact ⟨c, s, rfl⟩
    by_cases hparenthesis : c = '('
    · subst hparenthesis
      refine ((hp.cut (primary_parenthesis_yields_iff.mp h)).concat.cons '(').imp ?_
      rintro _ r' - ⟨t, rfl, hinner⟩
      exact primary_parenthesis_yields_iff.mpr hinner
    · have hc : Text.isLetter c := by simpa [hparenthesis] using hother
      rcases (primary_letter_yields_iff hc).mp h with
        ⟨name, hname, hstops, hsymbol⟩ | ⟨name, s', hname, hcall⟩
      · refine hname.cut.imp fun s' r' hr hname => ?_
        obtain ⟨d, tail, rfl, hd⟩ := hname.begins
        exact (primary_letter_yields_iff hd).mpr
          (.inl ⟨name, hname, hstops.cut hr, hsymbol⟩)
      · refine (hname.cut.concat.append ((hp.call name).cut hcall)).imp ?_
        rintro s' r' - ⟨t, hname, hcall⟩
        obtain ⟨d, tail, rfl, hd⟩ := hname.begins
        exact (primary_letter_yields_iff hd).mpr (.inr ⟨name, t, hname, hcall⟩)

theorem Stable.power (hp : p.Stable) : (power B p).Stable := by
  refine ⟨fun {s r e} h => ?_⟩
  rcases power_yields_iff.mp h with ⟨hbase, hstops⟩ | ⟨base, s', exponent, hbase, hexponent, rfl⟩
  · refine (hp.expression.primary.cut hbase).imp fun s' r' hr hbase => ?_
    exact power_yields_iff.mpr (.inl ⟨hbase, hstops.cut hr⟩)
  · refine ((hp.expression.primary.cut hbase).concat.append (hp.cut hexponent)).imp ?_
    rintro s' r' - ⟨t, hbase, hexponent⟩
    exact power_yields_iff.mpr (.inr ⟨_, t, _, hbase, hexponent, rfl⟩)

theorem Stable.signedPower (hp : p.Stable) : (signedPower B p).Stable := by
  refine ⟨fun {s r e} h => ?_⟩
  rcases signedPower_yields_iff.mp h with ⟨hstops, hpower⟩ | ⟨s', e', rfl, hpower, rfl⟩
  · obtain ⟨text, rfl, hcut⟩ := hp.power.cut hpower
    refine ⟨text, rfl, fun r' hr => signedPower_yields_iff.mpr (.inl ⟨?_, hcut r' hr⟩)⟩
    exact hstops.cut ((List.prefix_append_right_inj text).mpr hr)
  · refine ((hp.power.cut hpower).cons '-').imp ?_
    rintro _ r' - ⟨t, rfl, hpower⟩
    exact signedPower_yields_iff.mpr (.inr ⟨t, _, rfl, hpower, rfl⟩)

theorem stable_operand (n : Nat) : (operand B n).Stable := by
  induction n with
  | zero => exact ⟨fun h => absurd h not_operand_zero⟩
  | succ n ih => exact ih.signedPower

theorem stable_formula : (formula B).Stable := (stable_operand maxNesting).expression

end Operands

end Parser

end RollingBall
