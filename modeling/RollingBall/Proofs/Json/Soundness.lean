import RollingBall.Proofs.Json.Spelling

/-!
# What is read is a text of the grammar

A reader that takes something off the front of a text takes the text of what it returns, and leaves
the rest. So a value is read from exactly the texts that stand for it
(`Json.parse?_eq_some_iff`), and what has no text of the grammar is refused.
-/

namespace RollingBall.Json

open Grammar

/-! ## Numbers -/

namespace Reader

variable {s r : List Char}

theorem eq_digits (s : List Char) :
    s = (digits s).1 ++ (digits s).2.1 ∧ ∀ d ∈ (digits s).1, d.isDigit :=
  ⟨List.takeWhile_append_dropWhile.symm, fun _ => of_mem_takeWhile⟩

theorem Reads.eq_of_wholePart {ds : List Char} (h : wholePart.Reads s ds r) :
    s = ds ++ r ∧ Number.IsWhole ds := by
  obtain ⟨_, hread⟩ := h
  unfold wholePart at hread
  split at hread
  · obtain ⟨rfl, rfl⟩ := Parsed.mk.inj (Option.some.inj hread)
    exact ⟨rfl, .zero⟩
  · rename_i c rest hc _
    split at hread
    · rename_i hdigit
      obtain ⟨hds, hdigits⟩ := eq_digits rest
      obtain ⟨rfl, rfl⟩ := Parsed.mk.inj (Option.some.inj hread)
      refine ⟨congrArg (c :: ·) hds, .digits ?_ (List.forall_mem_cons.mpr ⟨hdigit, hdigits⟩)⟩
      rintro rfl
      exact hc rfl
    · contradiction
  · contradiction

theorem Leaves.eq_of_fractionPart {ds : List Char} (h : Leaves fractionPart s ds r) :
    s = (if ds.isEmpty then [] else '.' :: ds) ++ r ∧ ∀ d ∈ ds, d.isDigit := by
  obtain ⟨_, hread⟩ := h
  unfold fractionPart at hread
  split at hread
  · rename_i rest _
    obtain ⟨hds, hdigits⟩ := eq_digits rest
    dsimp only at hread
    split at hread
    · contradiction
    · rename_i hne
      obtain ⟨rfl, hrest⟩ := Prod.mk.inj (Option.some.inj hread)
      obtain rfl := congrArg Subtype.val hrest
      rw [if_neg hne]
      exact ⟨congrArg ('.' :: ·) hds, hdigits⟩
  · obtain ⟨rfl, hrest⟩ := Prod.mk.inj (Option.some.inj hread)
    obtain rfl := congrArg Subtype.val hrest
    exact ⟨rfl, by simp⟩

theorem eq_signPart (s : List Char) : s = (signPart s).1 ++ (signPart s).2.1 ∧
    ((signPart s).1 = [] ∨ (signPart s).1 = ['+'] ∨ (signPart s).1 = ['-']) := by
  unfold signPart
  split
  · exact ⟨rfl, .inr (.inl rfl)⟩
  · exact ⟨rfl, .inr (.inr rfl)⟩
  · exact ⟨rfl, .inl rfl⟩

theorem Leaves.eq_of_exponentPart {e : List Char} (h : Leaves exponentPart s e r) :
    ∃ letter, (letter = 'e' ∨ letter = 'E') ∧ s = Number.exponentText letter e ++ r ∧
      Number.IsExponent e := by
  obtain ⟨_, hread⟩ := h
  unfold exponentPart at hread
  split at hread
  · obtain ⟨rfl, hrest⟩ := Prod.mk.inj (Option.some.inj hread)
    obtain rfl := congrArg Subtype.val hrest
    exact ⟨'e', .inl rfl, rfl, .none⟩
  · rename_i c rest _
    split at hread
    · rename_i hletter
      dsimp only at hread
      obtain ⟨hsigned, hsign⟩ := eq_signPart rest
      obtain ⟨hds, hdigits⟩ := eq_digits (signPart rest).2.1
      split at hread
      · contradiction
      · rename_i hne
        obtain ⟨rfl, hrest⟩ := Prod.mk.inj (Option.some.inj hread)
        obtain rfl := congrArg Subtype.val hrest
        have hne' : (digits (signPart rest).2.1).1 ≠ [] := by simpa using hne
        refine ⟨c, hletter, ?_, .some hsign hne' hdigits⟩
        rw [Number.exponentText, if_neg (by simp [hne']), List.cons_append, List.append_assoc,
          ← hds, ← hsigned]
    · obtain ⟨rfl, hrest⟩ := Prod.mk.inj (Option.some.inj hread)
      obtain rfl := congrArg Subtype.val hrest
      exact ⟨'e', .inl rfl, rfl, .none⟩

theorem Reads.eq_of_unsigned {negative : Bool} {n : Number}
    (h : (unsigned negative).Reads s n r) : ∃ letter, (letter = 'e' ∨ letter = 'E') ∧
      (if negative then ['-'] else []) ++ s = n.writtenWith letter ++ r ∧ n.Grammatical := by
  obtain ⟨_, hread⟩ := h
  unfold unsigned at hread
  split at hread
  · contradiction
  · rename_i whole hwhole
    split at hread
    · contradiction
    · rename_i fraction afterFraction hlength hfraction
      split at hread
      · contradiction
      · rename_i exponent rest hlength' hexponent
        obtain ⟨rfl, rfl⟩ := Parsed.mk.inj (Option.some.inj hread)
        obtain ⟨hs, hw⟩ := Reads.eq_of_wholePart ⟨whole.shorter, hwhole⟩
        obtain ⟨hs', hf⟩ := Leaves.eq_of_fractionPart ⟨hlength, hfraction⟩
        obtain ⟨letter, hletter, hs'', he⟩ := Leaves.eq_of_exponentPart ⟨hlength', hexponent⟩
        refine ⟨letter, hletter, ?_, hw, hf, he⟩
        have hparts : s = whole.value ++ ((if fraction.isEmpty then [] else '.' :: fraction) ++
            (Number.exponentText letter exponent ++ rest)) := by
          rw [← hs'', ← hs', ← hs]
        unfold Number.writtenWith
        simp only [List.append_assoc]
        rw [← hparts]

theorem Reads.spells_number {n : Number} (h : number.Reads s n r) :
    ∃ cs, s = cs ++ r ∧ Number.Spells cs n := by
  obtain ⟨hshorter, hread⟩ := h
  unfold number at hread
  split at hread
  · rename_i rest
    split at hread
    · contradiction
    · rename_i parsed hparsed
      obtain ⟨rfl, rfl⟩ := Parsed.mk.inj (Option.some.inj hread)
      obtain ⟨letter, hletter, hs, hn⟩ := Reads.eq_of_unsigned ⟨parsed.shorter, hparsed⟩
      exact ⟨_, hs, .mk hn hletter⟩
  · obtain ⟨letter, hletter, hs, hn⟩ := Reads.eq_of_unsigned ⟨hshorter, hread⟩
    exact ⟨_, hs, .mk hn hletter⟩

/-! ## Strings -/

theorem Leaves.inside {t : Text} (h : Leaves elements s t r) :
    ∃ cs, s = cs ++ '"' :: r ∧ Text.Inside cs t := by
  obtain ⟨hlength, hread⟩ := h
  fun_induction elements s generalizing t with
  | case2 rest =>
    obtain ⟨rfl, hrest⟩ := Prod.mk.inj (Option.some.inj hread)
    obtain rfl := congrArg Subtype.val hrest
    exact ⟨[], rfl, .nil⟩
  | case3 a b c d rest code es _ _ helements hcode ih =>
    obtain ⟨rfl, hrest⟩ := Prod.mk.inj (Option.some.inj hread)
    obtain rfl := congrArg Subtype.val hrest
    obtain ⟨cs, hs, hcs⟩ := ih _ helements
    exact ⟨_, congrArg ('\\' :: 'u' :: a :: b :: c :: d :: ·) hs, .code hcode hcs⟩
  | case5 c rest _ e es _ _ helements hescaped ih =>
    obtain ⟨rfl, hrest⟩ := Prod.mk.inj (Option.some.inj hread)
    obtain rfl := congrArg Subtype.val hrest
    obtain ⟨cs, hs, hcs⟩ := ih _ helements
    exact ⟨_, congrArg ('\\' :: c :: ·) hs, .escaped hescaped hcs⟩
  | case8 c rest hquote _ _ hplain es _ _ helements ih =>
    obtain ⟨rfl, hrest⟩ := Prod.mk.inj (Option.some.inj hread)
    obtain rfl := congrArg Subtype.val hrest
    obtain ⟨hslash, hcontrol⟩ := not_or.mp hplain
    obtain ⟨cs, hs, hcs⟩ := ih _ helements
    exact ⟨_, congrArg (c :: ·) hs, .plain hquote hslash hcontrol hcs⟩
  | _ => contradiction

theorem eq_of_expect {c : Char} {h : r.length < s.length} (hread : expect c s = some ⟨r, h⟩) :
    s = c :: r := by
  unfold expect at hread
  split at hread
  · split at hread
    · rename_i hc
      obtain rfl := congrArg Subtype.val (Option.some.inj hread)
      rw [hc]
    · contradiction
  · contradiction

theorem Reads.spells_text {t : Text} (h : text.Reads s t r) :
    ∃ cs, s = cs ++ r ∧ Text.Spells cs t := by
  obtain ⟨_, hread⟩ := h
  unfold text at hread
  split at hread
  · contradiction
  · rename_i inside hinside hexpect
    obtain rfl := eq_of_expect hexpect
    split at hread
    · contradiction
    · rename_i es rest hrest helements
      obtain ⟨rfl, rfl⟩ := Parsed.mk.inj (Option.some.inj hread)
      obtain ⟨cs, rfl, hcs⟩ := Leaves.inside ⟨hrest, helements⟩
      exact ⟨'"' :: (cs ++ ['"']), by simp, .mk hcs⟩

/-! ## Brackets -/

theorem eq_skip (s : List Char) : ∃ cs, Blank cs ∧ s = cs ++ skip s :=
  ⟨s.takeWhile isBlank, fun _ => of_mem_takeWhile, List.takeWhile_append_dropWhile.symm⟩

variable {ι ρ : Type} {reader : Reader ρ}

theorem Reads.of_skipping {v : ρ} (h : (Reader.skipping reader).Reads s v r) :
    ∃ cs s', Blank cs ∧ s = cs ++ s' ∧ reader.Reads s' v r := by
  obtain ⟨_, hread⟩ := h
  unfold Reader.skipping at hread
  split at hread
  · contradiction
  · rename_i parsed hparsed
    obtain ⟨rfl, rfl⟩ := Parsed.mk.inj (Option.some.inj hread)
    obtain ⟨cs, hblank, hs⟩ := eq_skip s
    exact ⟨cs, skip s, hblank, hs, parsed.shorter, hparsed⟩

theorem Reads.of_map {σ : Type} {f : ρ → σ} {w : σ} (h : (Reader.map f reader).Reads s w r) :
    ∃ v, w = f v ∧ reader.Reads s v r := by
  obtain ⟨_, hread⟩ := h
  unfold Reader.map at hread
  obtain ⟨parsed, hparsed, heq⟩ := Option.map_eq_some_iff.mp hread
  obtain ⟨rfl, rfl⟩ := Parsed.mk.inj heq
  exact ⟨parsed.value, rfl, parsed.shorter, hparsed⟩

/-- What stands behind an item is the closing bracket, or a comma and further items. -/
theorem Leaves.itemsUntil_cases {close : Char} {vs : List ρ}
    (h : Leaves (itemsUntil close reader) s vs r) :
    ∃ v r', reader.Reads s v r' ∧
      ((skip r' = close :: r ∧ vs = [v]) ∨
        ∃ rest more, skip r' = ',' :: rest ∧ vs = v :: more ∧
          Leaves (itemsUntil close reader) rest more r) := by
  obtain ⟨hlength, hread⟩ := h
  rw [itemsUntil] at hread
  split at hread
  · contradiction
  · rename_i first hfirst
    refine ⟨first.value, first.rest, ⟨first.shorter, hfirst⟩, ?_⟩
    dsimp only at hread
    split at hread
    · rename_i c rest hshorter hskip _
      split at hread
      · rename_i hc
        obtain ⟨rfl, hr⟩ := Prod.mk.inj (Option.some.inj hread)
        obtain rfl := congrArg Subtype.val hr
        exact .inl ⟨by rw [hskip, hc], rfl⟩
      · split at hread
        · rename_i hc
          split at hread
          · contradiction
          · rename_i more r' hr' hmore
            obtain ⟨rfl, hr⟩ := Prod.mk.inj (Option.some.inj hread)
            obtain rfl := congrArg Subtype.val hr
            exact .inr ⟨rest, more, by rw [hskip, hc], rfl, hr', hmore⟩
        · contradiction
    · contradiction

theorem Reads.bracketed_cases {opening close : Char} {vs : List ρ}
    (h : (bracketed opening close reader).Reads s vs r) : ∃ inside, s = opening :: inside ∧
      ((skip inside = close :: r ∧ vs = []) ∨ Leaves (itemsUntil close reader) inside vs r) := by
  obtain ⟨_, hread⟩ := h
  unfold bracketed at hread
  split at hread
  · contradiction
  · rename_i inside _ hopening
    refine ⟨inside, eq_of_expect hopening, ?_⟩
    split at hread
    · rename_i rest _ hclose
      obtain ⟨rfl, rfl⟩ := Parsed.mk.inj (Option.some.inj hread)
      exact .inl ⟨eq_of_expect hclose, rfl⟩
    · split at hread
      · contradiction
      · rename_i items rest hrest hitems
        obtain ⟨rfl, rfl⟩ := Parsed.mk.inj (Option.some.inj hread)
        exact .inr ⟨hrest, hitems⟩

section Items

variable {whole : ι → List Char} {val : ι → ρ} {good : ι → Prop}
  (hitem : ∀ {s v r} {cs r' : List Char}, reader.Reads s v r → Blank cs → r = cs ++ r' →
    ∃ i, good i ∧ val i = v ∧ s = whole i ++ r')

include hitem

theorem Leaves.exists_items {close : Char} {vs : List ρ}
    (h : Leaves (itemsUntil close reader) s vs r) :
    ∃ items : List ι, items ≠ [] ∧ (∀ i ∈ items, good i) ∧ items.map val = vs ∧
      s = [','].intercalate (items.map whole) ++ close :: r := by
  induction hn : s.length using Nat.strongRecOn generalizing s vs with
  | ind n ih =>
    obtain ⟨v, r', hread, hend⟩ := h.itemsUntil_cases
    obtain ⟨cs, hblank, hrest⟩ := eq_skip r'
    rcases hend with ⟨hskip, rfl⟩ | ⟨rest, more, hskip, rfl, hmore⟩
    · rw [hskip] at hrest
      obtain ⟨i, hgood, rfl, rfl⟩ := hitem hread hblank hrest
      exact ⟨[i], by simp, by simpa using hgood, rfl, by simp⟩
    · have hless : rest.length < n := by
        obtain ⟨hshorter, -⟩ := hread
        have hlength := congrArg List.length hrest
        simp [hskip] at hlength
        omega
      rw [hskip] at hrest
      obtain ⟨i, hgood, rfl, rfl⟩ := hitem hread hblank hrest
      obtain ⟨items, hne, hall, rfl, rfl⟩ := ih _ hless hmore rfl
      refine ⟨i :: items, by simp, List.forall_mem_cons.mpr ⟨hgood, hall⟩, rfl, ?_⟩
      rw [List.map_cons, List.intercalate_cons_of_ne_nil (by simpa using hne)]
      simp

/-- **Brackets.** What is read in brackets is a text of items with commas between them. -/
theorem Reads.exists_items {opening close : Char} {vs : List ρ}
    (h : (bracketed opening close reader).Reads s vs r) :
    (∃ cs, Blank cs ∧ vs = [] ∧ s = opening :: (cs ++ [close]) ++ r) ∨
      ∃ items : List ι, items ≠ [] ∧ (∀ i ∈ items, good i) ∧ items.map val = vs ∧
        s = opening :: ([','].intercalate (items.map whole) ++ [close]) ++ r := by
  obtain ⟨inside, rfl, ⟨hskip, rfl⟩ | hitems⟩ := h.bracketed_cases
  · obtain ⟨cs, hblank, hinside⟩ := eq_skip inside
    exact .inl ⟨cs, hblank, rfl, by rw [hinside, hskip]; simp⟩
  · obtain ⟨items, hne, hall, hvals, rfl⟩ := hitems.exists_items hitem
    exact .inr ⟨items, hne, hall, hvals, by simp⟩

end Items

/-! ## Values -/

theorem Reads.of_literal {c : Char} {more : List Char} {v w : Json}
    (h : (literal c more v).Reads s w r) : w = v ∧ s = c :: more ++ r := by
  obtain ⟨_, hread⟩ := h
  unfold literal at hread
  split at hread
  · contradiction
  · rename_i tail _ hexpect
    obtain rfl := eq_of_expect hexpect
    split at hread
    · contradiction
    · rename_i rest _ hword
      obtain ⟨rfl, rfl⟩ := Parsed.mk.inj (Option.some.inj hread)
      unfold word at hword
      split at hword
      · rename_i hprefix
        obtain rfl := congrArg Subtype.val (Option.some.inj hword)
        obtain ⟨rest, rfl⟩ := List.isPrefixOf_iff_prefix.mp hprefix
        exact ⟨rfl, by simp [Rest.drop]⟩
      · contradiction

theorem Reads.member_cases {m : Text × ρ} (h : (Reader.member reader).Reads s m r) :
    ∃ r₁ r₂, (Reader.skipping text).Reads s m.1 r₁ ∧ skip r₁ = ':' :: r₂ ∧
      (Reader.skipping reader).Reads r₂ m.2 r := by
  obtain ⟨_, hread⟩ := h
  unfold Reader.member at hread
  split at hread
  · contradiction
  · rename_i name hname
    split at hread
    · contradiction
    · rename_i afterColon _ hcolon
      split at hread
      · contradiction
      · rename_i parsed hparsed
        obtain ⟨rfl, rfl⟩ := Parsed.mk.inj (Option.some.inj hread)
        exact ⟨name.rest, afterColon, ⟨name.shorter, hname⟩, eq_of_expect hcolon, parsed.shorter,
          hparsed⟩

/-- What is read after blanks stands in a slot, with the blanks behind it. -/
theorem Reads.slot {v : ρ} {good : List Char → ρ → Prop}
    (hgood : ∀ {s v r}, reader.Reads s v r → ∃ cs, s = cs ++ r ∧ good cs v)
    (h : (Reader.skipping reader).Reads s v r) {cs r' : List Char} (hblank : Blank cs)
    (hr : r = cs ++ r') :
    ∃ slot : Slot ρ, good slot.text slot.value ∧ slot.value = v ∧ s = slot.whole ++ r' := by
  obtain ⟨before, s', hbefore, rfl, hread⟩ := h.of_skipping
  obtain ⟨text, rfl, htext⟩ := hgood hread
  exact ⟨⟨before, text, cs, v, hbefore, hblank⟩, htext, rfl, by simp [Slot.whole, hr]⟩

/-- What is read as a member is the slots of a name and a value. -/
theorem Reads.memberSlot {reader : Reader Json}
    (hvalue : ∀ {s v r}, reader.Reads s v r → ∃ cs, s = cs ++ r ∧ Spells cs v) {m : Text × Json}
    (h : (Reader.member reader).Reads s m r) {cs r' : List Char} (hblank : Blank cs)
    (hr : r = cs ++ r') :
    ∃ e : MemberSlot, (Text.Spells e.1.text e.1.value ∧ Spells e.2.text e.2.value) ∧ e.member = m ∧
      s = e.whole ++ r' := by
  obtain ⟨r₁, r₂, hname, hcolon, hread⟩ := h.member_cases
  obtain ⟨cs', hblank', hr₁⟩ := eq_skip r₁
  obtain ⟨value, hspells, hsame, rfl⟩ := hread.slot hvalue hblank hr
  rw [hcolon] at hr₁
  obtain ⟨name, hspells', hsame', rfl⟩ := hname.slot Reads.spells_text hblank' hr₁
  exact ⟨(name, value), ⟨hspells', hspells⟩, Prod.ext hsame' hsame, by simp [MemberSlot.whole]⟩

/-- **Values.** What is read as a value is a text of it. -/
theorem Reads.spells {n : Nat} {v : Json} (h : (value n).Reads s v r) :
    ∃ cs, s = cs ++ r ∧ Spells cs v := by
  induction n generalizing s v r with
  | zero =>
    obtain ⟨_, hread⟩ := h
    contradiction
  | succ n ih =>
    obtain ⟨hshorter, hread⟩ := h
    rw [value] at hread
    dsimp only at hread
    split at hread
    · obtain ⟨items, rfl, hitems⟩ := Reads.of_map ⟨hshorter, hread⟩
      rcases hitems.exists_items fun hread hblank hr => hread.slot ih hblank hr with
        ⟨cs, hblank, rfl, rfl⟩ | ⟨slots, hne, hall, rfl, rfl⟩
      · exact ⟨_, rfl, .emptyArray hblank⟩
      · exact ⟨_, rfl, .array hne hall⟩
    · obtain ⟨members, rfl, hmembers⟩ := Reads.of_map ⟨hshorter, hread⟩
      rcases hmembers.exists_items fun hread hblank hr => hread.memberSlot ih hblank hr with
        ⟨cs, hblank, rfl, rfl⟩ | ⟨slots, hne, hall, rfl, rfl⟩
      · exact ⟨_, rfl, .emptyObject hblank⟩
      · exact ⟨_, rfl, .object hne (fun e he => (hall e he).1) fun e he => (hall e he).2⟩
    · obtain ⟨t, rfl, ht⟩ := Reads.of_map ⟨hshorter, hread⟩
      obtain ⟨cs, rfl, hcs⟩ := ht.spells_text
      exact ⟨cs, rfl, .string hcs⟩
    · obtain ⟨rfl, rfl⟩ := Reads.of_literal ⟨hshorter, hread⟩
      exact ⟨_, rfl, .trueWord⟩
    · obtain ⟨rfl, rfl⟩ := Reads.of_literal ⟨hshorter, hread⟩
      exact ⟨_, rfl, .falseWord⟩
    · obtain ⟨rfl, rfl⟩ := Reads.of_literal ⟨hshorter, hread⟩
      exact ⟨_, rfl, .nullWord⟩
    · obtain ⟨number, rfl, hnumber⟩ := Reads.of_map ⟨hshorter, hread⟩
      obtain ⟨cs, rfl, hcs⟩ := hnumber.spells_number
      exact ⟨cs, rfl, .number hcs⟩

end Reader

/-- **Texts.** A text is read as a value if and only if it stands for the value. -/
theorem parse?_eq_some_iff {s : List Char} {v : Json} : parse? s = some v ↔ Denotes s v := by
  refine ⟨fun hread => ?_, parse?_of_denotes⟩
  unfold parse? at hread
  split at hread
  · contradiction
  · rename_i parsed hparsed
    split at hread
    · rename_i hempty
      obtain rfl := Option.some.inj hread
      have hvalue : (Reader.skipping (Reader.value s.length)).Reads s parsed.value parsed.rest :=
        Reader.Reads.skipping ⟨parsed.shorter, hparsed⟩
      obtain ⟨cs, hblank, hrest⟩ := Reader.eq_skip parsed.rest
      rw [List.isEmpty_iff.mp hempty] at hrest
      obtain ⟨slot, hspells, hslot, hs⟩ := hvalue.slot Reader.Reads.spells hblank hrest
      rw [List.append_nil] at hs
      exact ⟨slot, hs.symm, hslot, hslot ▸ hspells⟩
    · contradiction

end RollingBall.Json
