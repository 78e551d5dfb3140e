import RollingBall.Proofs.Reading.Cuts
import RollingBall.Proofs.Scanning.Scanner
import RollingBall.Proofs.Scanning.Outcomes

/-!
# Scanners that follow readers

A scanner follows a reader (`Scanner.Follows`) if it ends wherever the reader does, with the same
value or the same error, whatever text is behind the cursor; and if, on the way, the cursor does not
go back for good, as many operands are left as were entered, and whatever is done is done within
bounds (`Scan.Reaches`). Steps that follow readers, one after the other, follow the readers one
after the other (`Scanner.Follows.bind`). So it is enough to look at the single steps, here those
that move the cursor over characters and words.

## Main definitions

* `Event.Sound`: something that is done is within bounds.
* `Scan.Reaches`: from one state of a scan to another all is well.
* `Scanner.Arrives`, `Scanner.Follows`: a run of a scanner, and every run of it, ends as the reader
  does.
-/

namespace RollingBall

open Grammar
open RollingBall.Parser (Outcome)

variable {α ρ σ : Type} {text : List Char}

/-! ## Where a scan gets -/

/-- What is done is done within the text and within the limit on nesting, and no stack lacks what is
taken off it. -/
def Event.Sound (text : List Char) : Event → Prop
  | move position depth => position ≤ text.length ∧ depth ≤ maxNesting
  | copy start stop => start ≤ stop ∧ stop ≤ text.length
  | merge operands operators => 2 ≤ operands ∧ 1 ≤ operators
  | finish operands => operands = 1

namespace Scan

/-- What is behind the cursor. -/
def unread (text : List Char) (scan : Scan) : List Char := text.drop scan.position

/-- The scan with one thing more done. -/
def noted (event : Event) (scan : Scan) : Scan := { scan with log := event :: scan.log }

/-- The scan with the cursor at a position and so many operands around it. -/
def moved (position depth : Nat) (scan : Scan) : Scan :=
  ⟨position, depth, .move position depth :: scan.log⟩

/-- The cursor is in the text, within no more operands than may lie within one another. -/
structure Inside (text : List Char) (scan : Scan) : Prop where
  position_le : scan.position ≤ text.length
  depth_le : scan.depth ≤ maxNesting

/-- From one scan to the other all that is done is done within bounds. -/
def Grows (text : List Char) (scan last : Scan) : Prop :=
  ∃ done, last.log = done ++ scan.log ∧ ∀ event ∈ done, event.Sound text

/-- From one scan to the other the cursor does not go back, as many operands are entered as left,
and all that is done is done within bounds. -/
structure Reaches (text : List Char) (scan last : Scan) : Prop where
  depth_eq : last.depth = scan.depth
  position_le : scan.position ≤ last.position
  position_le_length : last.position ≤ text.length
  grows : scan.Grows text last

variable {scan mid last : Scan}

theorem Grows.refl (scan : Scan) : scan.Grows text scan := ⟨[], rfl, by simp⟩

theorem Grows.trans (h : scan.Grows text mid) (h' : mid.Grows text last) :
    scan.Grows text last := by
  obtain ⟨done, hdone, hsound⟩ := h
  obtain ⟨done', hdone', hsound'⟩ := h'
  refine ⟨done' ++ done, by rw [hdone', hdone, List.append_assoc], fun event he => ?_⟩
  rcases List.mem_append.mp he with he | he
  · exact hsound' event he
  · exact hsound event he

theorem grows_noted {event : Event} (h : event.Sound text) : scan.Grows text (scan.noted event) :=
  ⟨[event], rfl, by simpa using h⟩

theorem grows_moved {position depth : Nat} (hposition : position ≤ text.length)
    (hdepth : depth ≤ maxNesting) : scan.Grows text (scan.moved position depth) :=
  ⟨[.move position depth], rfl, by simpa using ⟨hposition, hdepth⟩⟩

theorem Reaches.inside (h : scan.Reaches text last) (hin : scan.Inside text) : last.Inside text :=
  ⟨h.position_le_length, h.depth_eq ▸ hin.depth_le⟩

theorem Reaches.trans (h : scan.Reaches text mid) (h' : mid.Reaches text last) :
    scan.Reaches text last :=
  ⟨h'.depth_eq.trans h.depth_eq, Nat.le_trans h.position_le h'.position_le, h'.position_le_length,
    h.grows.trans h'.grows⟩

theorem Inside.reaches (hin : scan.Inside text) : scan.Reaches text scan :=
  ⟨rfl, Nat.le_refl _, hin.position_le, .refl scan⟩

theorem Inside.reaches_noted (hin : scan.Inside text) {event : Event} (h : event.Sound text) :
    scan.Reaches text (scan.noted event) :=
  ⟨rfl, Nat.le_refl _, hin.position_le, grows_noted h⟩

theorem Inside.reaches_forward (hin : scan.Inside text) {n : Nat}
    (h : n ≤ (scan.unread text).length) :
    scan.Reaches text (scan.moved (scan.position + n) scan.depth) := by
  have hposition : scan.position + n ≤ text.length := by
    have := hin.position_le
    rw [unread, List.length_drop] at h
    omega
  exact ⟨rfl, Nat.le_add_right _ _, hposition, grows_moved hposition hin.depth_le⟩

/-- The cursor may go back to where it came from. -/
theorem Reaches.back (hin : scan.Inside text) (h : scan.Reaches text last) :
    scan.Reaches text (last.moved scan.position last.depth) :=
  ⟨h.depth_eq, Nat.le_refl _, hin.position_le,
    h.grows.trans (grows_moved hin.position_le (h.inside hin).depth_le)⟩

/-- What was passed over may be copied. -/
theorem Reaches.copied (hin : scan.Inside text) (h : scan.Reaches text last) :
    scan.Reaches text (last.noted (.copy scan.position last.position)) :=
  h.trans ((h.inside hin).reaches_noted ⟨h.position_le, h.position_le_length⟩)

/-- What is done one operand deeper is done. -/
theorem Inside.reaches_nested (hin : scan.Inside text) (hdepth : scan.depth < maxNesting)
    (h : (scan.moved scan.position (scan.depth + 1)).Reaches text last) :
    scan.Reaches text (last.moved last.position (last.depth - 1)) := by
  have hlast : last.depth - 1 = scan.depth := by
    rw [h.depth_eq]
    rfl
  rw [hlast]
  exact ⟨rfl, h.position_le, h.position_le_length,
    ((grows_moved hin.position_le hdepth).trans h.grows).trans
      (grows_moved h.position_le_length hin.depth_le)⟩

theorem unread_forward (n : Nat) :
    (scan.moved (scan.position + n) scan.depth).unread text = (scan.unread text).drop n := by
  rw [unread, unread, List.drop_drop]
  rfl

/-- What is passed over and what is left is what there was. -/
theorem Reaches.passed (h : scan.Reaches text last) :
    scan.unread text =
      (text.drop scan.position).take (last.position - scan.position) ++ last.unread text := by
  have hdrop : last.unread text =
      (text.drop scan.position).drop (last.position - scan.position) := by
    rw [List.drop_drop, Nat.add_sub_cancel' h.position_le]
    rfl
  rw [hdrop, List.take_append_drop]
  rfl

theorem Reaches.length_unread_le (h : scan.Reaches text last) :
    (last.unread text).length ≤ (scan.unread text).length := by
  rw [h.passed, List.length_append]
  exact Nat.le_add_left _ _

theorem position_lt_of_unread
    (hlt : (last.unread text).length < (scan.unread text).length) :
    scan.position < last.position := by
  rw [unread, unread, List.length_drop, List.length_drop] at hlt
  omega

end Scan

/-! ## Scans that follow readers -/

namespace Scanner

open RollingBall.Parser

/-- With enough calls, a run ends where a reader does, with the same value or the same error. -/
inductive Arrives (text : List Char) (scan : Scan)
    (run : Nat → Option (Except SyntaxError ρ × Scan)) :
    Except SyntaxError (ρ × List Char) → Prop where
  | value {v : ρ} {last : Scan} {rest : List Char} : scan.Reaches text last →
      last.unread text = rest → (∃ bound, ∀ n, bound ≤ n → run n = some (.ok v, last)) →
      Arrives text scan run (.ok (v, rest))
  | error {e : SyntaxError} {last : Scan} : scan.Reaches text last →
      last.unread text = e.rest → (∃ bound, ∀ n, bound ≤ n → run n = some (.error e, last)) →
      Arrives text scan run (.error e)

/-- Wherever the cursor is in the text, within so many operands, the scanner ends where the reader
does with what is behind the cursor. -/
def Follows (text : List Char) (depth : Nat) (m : Nat → Scanner ρ) (read : Outcome ρ) : Prop :=
  ∀ scan : Scan, scan.Inside text → scan.depth = depth →
    Arrives text scan (fun n => m n scan) (read (scan.unread text))

variable {d : Nat}

section Steps

variable {scan mid : Scan} {run run' : Nat → Option (Except SyntaxError ρ × Scan)}
  {read : Except SyntaxError (ρ × List Char)}

theorem Arrives.of_reaches (h : scan.Reaches text mid) (hmid : Arrives text mid run read) :
    Arrives text scan run read := by
  cases hmid with
  | value hreach hrest hrun => exact .value (h.trans hreach) hrest hrun
  | error hreach hrest hrun => exact .error (h.trans hreach) hrest hrun

/-- It is enough that the runs agree from some number of calls on. -/
theorem Arrives.congr (h : ∃ bound, ∀ n, bound ≤ n → run n = run' n)
    (hrun' : Arrives text scan run' read) : Arrives text scan run read := by
  obtain ⟨bound, hbound⟩ := h
  have hends : ∀ {out : Except SyntaxError ρ × Scan},
      (∃ bound, ∀ n, bound ≤ n → run' n = some out) →
        ∃ bound, ∀ n, bound ≤ n → run n = some out := by
    rintro out ⟨bound', hbound'⟩
    refine ⟨max bound bound', fun n hn => ?_⟩
    rw [hbound n (Nat.le_trans (Nat.le_max_left _ _) hn)]
    exact hbound' n (Nat.le_trans (Nat.le_max_right _ _) hn)
  cases hrun' with
  | value hreach hrest hrun => exact .value hreach hrest (hends hrun)
  | error hreach hrest hrun => exact .error hreach hrest (hends hrun)

/-- A run that needs one call more ends all the same. -/
theorem Arrives.of_succ (h : Arrives text scan (fun n => run (n + 1)) read) :
    Arrives text scan run read := by
  have hlater : ∀ {out : Except SyntaxError ρ × Scan},
      (∃ bound, ∀ n, bound ≤ n → run (n + 1) = some out) →
        ∃ bound, ∀ n, bound ≤ n → run n = some out := by
    rintro out ⟨bound, hbound⟩
    refine ⟨bound + 1, fun n hn => ?_⟩
    obtain ⟨n, rfl⟩ := Nat.exists_eq_add_of_le' (Nat.le_of_add_left_le hn)
    exact hbound n (by omega)
  cases h with
  | value hreach hrest hrun => exact .value hreach hrest (hlater hrun)
  | error hreach hrest hrun => exact .error hreach hrest (hlater hrun)

end Steps

theorem bind_run (m : Scanner ρ) (f : ρ → Scanner σ) (scan : Scan) :
    (m >>= f) scan = (m scan).bind fun run =>
      match run with
      | (.ok v, last) => f v last
      | (.error e, last) => some (.error e, last) := by
  show (m scan).bind _ = _
  congr 1
  funext run
  obtain ⟨e | v, last⟩ := run <;> rfl

theorem Arrives.bind {scan : Scan} {m : Nat → Scanner ρ} {f : Nat → ρ → Scanner σ}
    {read : Outcome ρ} {g : ρ → Outcome σ}
    (h : Arrives text scan (fun n => m n scan) (read (scan.unread text)))
    (hf : ∀ v last, scan.Reaches text last → read (scan.unread text) = .ok (v, last.unread text) →
      Arrives text last (fun n => f n v last) (g v (last.unread text))) :
    Arrives text scan (fun n => (m n >>= f n) scan) ((read >>= g) (scan.unread text)) := by
  rw [bind_apply]
  generalize hread : read (scan.unread text) = outcome at h hf
  cases h with
  | error hreach hrest hrun =>
    obtain ⟨bound, hbound⟩ := hrun
    exact .error hreach hrest ⟨bound, fun n hn => by rw [bind_run, hbound n hn]; rfl⟩
  | value hreach hrest hrun =>
    subst hrest
    obtain ⟨bound, hbound⟩ := hrun
    exact ((hf _ _ hreach rfl).of_reaches hreach).congr
      ⟨bound, fun n hn => by rw [bind_run, hbound n hn]; rfl⟩

/-- What a step without reading returns is known to the steps after it. -/
theorem Arrives.bind_pure {scan : Scan} {m : Nat → Scanner ρ} {f : Nat → ρ → Scanner σ} {v : ρ}
    {read : Outcome σ}
    (h : Arrives text scan (fun n => m n scan) ((pure v : Outcome ρ) (scan.unread text)))
    (hf : ∀ last, scan.Reaches text last → last.unread text = scan.unread text →
      Arrives text last (fun n => f n v last) (read (scan.unread text))) :
    Arrives text scan (fun n => (m n >>= f n) scan) (read (scan.unread text)) := by
  rw [← pure_bind v fun _ => read]
  refine h.bind fun v' last hreach hread => ?_
  obtain ⟨rfl, hunread⟩ := Prod.mk.inj (Except.ok.inj hread)
  exact hunread ▸ hf last hreach hunread.symm

namespace Follows

theorem bind {m : Nat → Scanner ρ} {f : Nat → ρ → Scanner σ} {read : Outcome ρ}
    {g : ρ → Outcome σ} (hm : Follows text d m read)
    (hf : ∀ v, Follows text d (fun n => f n v) (g v)) :
    Follows text d (fun n => m n >>= f n) (read >>= g) := fun scan hin hd =>
  (hm scan hin hd).bind fun v last hreach _ =>
    hf v last (hreach.inside hin) (hreach.depth_eq.trans hd)

theorem bind_pure {m : Nat → Scanner ρ} {f : Nat → ρ → Scanner σ} {v : ρ} {read : Outcome σ}
    (hm : Follows text d m (pure v)) (hf : Follows text d (fun n => f n v) read) :
    Follows text d (fun n => m n >>= f n) read := fun scan hin hd =>
  (hm scan hin hd).bind_pure fun last hreach hunread =>
    hunread ▸ hf last (hreach.inside hin) (hreach.depth_eq.trans hd)

theorem of_succ {m : Nat → Scanner ρ} {read : Outcome ρ}
    (h : Follows text d (fun n => m (n + 1)) read) : Follows text d m read :=
  fun scan hin hd => (h scan hin hd).of_succ

theorem pure (v : ρ) : Follows text d (fun _ => pure v) (pure v) := fun _ hin _ =>
  .value hin.reaches rfl ⟨0, fun _ _ => rfl⟩

theorem refuse (cause : SyntaxError.Cause) :
    Follows text d (fun _ => (refuse text cause : Scanner ρ)) (refusal cause) := fun _ hin _ =>
  .error hin.reaches rfl ⟨0, fun _ _ => rfl⟩

theorem ite {c : Prop} [Decidable c] {m m' : Nat → Scanner ρ} {read read' : Outcome ρ}
    (h : Follows text d m read) (h' : Follows text d m' read') :
    Follows text d (fun n => if c then m n else m' n) (if c then read else read') := by
  split
  · exact h
  · exact h'

end Follows

/-! ## Single steps -/

theorem get_bind (f : Scan → Scanner ρ) (scan : Scan) :
    ((get : Scanner Scan) >>= f) scan = f scan scan := rfl

theorem peek_bind (text : List Char) (offset : Nat) (f : Option Char → Scanner ρ) (scan : Scan) :
    (peek text offset >>= f) scan = f (scan.unread text)[offset]? scan := by
  rw [Scan.unread, List.getElem?_drop]
  rfl

theorem Follows.peek (offset : Nat) :
    Follows text d (fun _ => peek text offset) (upcoming offset) := by
  intro scan hin _
  have hpeek : Scanner.peek text offset scan =
      some (.ok (scan.unread text)[offset]?, scan) := by
    rw [Scan.unread, List.getElem?_drop]
    rfl
  exact .value hin.reaches rfl ⟨0, fun _ _ => hpeek⟩

/-- The cursor stays where it is. -/
theorem arrives_still {scan : Scan} (hin : scan.Inside text) {rest : List Char}
    (hs : scan.unread text = rest) (v : ρ) :
    Arrives text scan (fun _ => (Pure.pure v : Scanner ρ) scan) (.ok (v, rest)) :=
  .value hin.reaches hs ⟨0, fun _ _ => rfl⟩

/-- The cursor moves over characters that were seen. -/
theorem arrives_advance {scan : Scan} (hin : scan.Inside text) {k : Nat}
    (hk : k ≤ (scan.unread text).length) (v : ρ) :
    Arrives text scan (fun _ => (do advance k; return v : Scanner ρ) scan)
      (.ok (v, (scan.unread text).drop k)) :=
  .value (hin.reaches_forward hk) (Scan.unread_forward k) ⟨0, fun _ _ => rfl⟩

theorem arrives_advance_one {scan : Scan} (hin : scan.Inside text) {c : Char} {s : List Char}
    (hs : scan.unread text = c :: s) (v : ρ) :
    Arrives text scan (fun _ => (do advance 1; return v : Scanner ρ) scan) (.ok (v, s)) := by
  have hmove := arrives_advance hin (k := 1) (by simp [hs]) v
  rwa [hs] at hmove

theorem Follows.consume (c : Char) : Follows text d (fun _ => consume text c) (consumed c) := by
  intro scan hin _
  simp only [Scanner.consume, peek_bind]
  cases hs : scan.unread text with
  | nil => exact arrives_still hin hs _
  | cons head tail =>
    by_cases hc : head = c
    · subst hc
      simp only [List.getElem?_cons_zero, if_true]
      rw [consumed_self]
      exact arrives_advance_one hin hs true
    · simp only [List.getElem?_cons_zero, Option.some.injEq, if_neg hc]
      rw [consumed_of_stops (by simpa using hc)]
      exact arrives_still hin hs _

theorem Follows.expect (c : Char) (cause : SyntaxError.Cause) :
    Follows text d (fun _ => expect text c cause) (expected c cause) :=
  (Follows.consume c).bind fun _ => .ite (.pure ()) (.refuse cause)

theorem sign_of_sign? {c : Char} {op : BinaryOp} (h : sign? c = some op) : Sign c op := by
  unfold sign? at h
  split at h
  case h_1 => exact Option.some.inj h ▸ .add
  case h_2 => exact Option.some.inj h ▸ .sub
  case h_3 => exact Option.some.inj h ▸ .mul
  case h_4 => exact Option.some.inj h ▸ .div
  case h_5 => contradiction

theorem stops_of_sign? {c : Char} (hc : ¬ Text.isLetter c) (h : sign? c = none) (s : List Char) :
    Stops beginsLink (c :: s) := by
  rw [stops_cons, beginsLink]
  unfold sign? at h
  split at h <;> simp_all

theorem Follows.operator : Follows text d (fun _ => operator text) (separated operator?) := by
  intro scan hin _
  simp only [Scanner.operator, peek_bind]
  cases hs : scan.unread text with
  | nil => exact arrives_still hin hs none
  | cons c s =>
    simp only [List.getElem?_cons_zero]
    by_cases hc : Text.isLetter c
    · simp only [if_pos hc]
      rw [separated_of_some (operator?_letter hc)]
      exact arrives_still hin hs _
    · simp only [if_neg hc]
      cases hsign : sign? c with
      | none =>
        rw [separated_of_none (operator?_eq_none_iff.mpr (stops_of_sign? hc hsign s))]
        exact arrives_still hin hs _
      | some op =>
        rw [separated_of_some (operator?_sign (sign_of_sign? hsign))]
        exact arrives_advance_one hin hs _

theorem text_of_relationOf? {first second : Option Char} {relation : Relation} {length : Nat}
    (h : relationOf? first second = some (relation, length)) :
    relation.text = (first.toList ++ second.toList).take length := by
  unfold relationOf? at h
  split at h
  case h_7 => contradiction
  all_goals
    obtain ⟨⟩ := h
    rfl

theorem relationOf?_of_ne {second : Option Char} (h : second ≠ some '=') :
    relationOf? (some '<') second = some (.lt, 1) ∧
      relationOf? (some '>') second = some (.gt, 1) := by
  unfold relationOf?
  constructor
  all_goals split <;> simp_all

theorem two_begin (s : List Char) : s[0]?.toList ++ s[1]?.toList <+: s := by
  rcases s with _ | ⟨c, _ | ⟨c', s⟩⟩
  · exact List.nil_prefix
  · exact List.prefix_rfl
  · exact ⟨s, rfl⟩

theorem relationOf?_of_none {s : List Char} (h : relation? s = none) :
    relationOf? s[0]? s[1]? = none := by
  cases htwo : relationOf? s[0]? s[1]? with
  | none => rfl
  | some found =>
    have hbegins : found.1.text <+: s := by
      rw [text_of_relationOf? htwo]
      exact (List.take_prefix _ _).trans (two_begin s)
    exact absurd hbegins (relation?_eq_none_iff.mp h found.1)

/-- The two characters that come next tell which relation does. -/
theorem relationOf?_of_longest {relation : Relation} {s : List Char}
    (h : relation.Longest (relation.text ++ s)) :
    relationOf? (relation.text ++ s)[0]? (relation.text ++ s)[1]? =
      some (relation, relation.text.length) := by
  rcases Relation.longest_iff.mp h with htwo | hstops
  · cases relation <;> first | rfl | contradiction
  · have hne : s[0]? ≠ some '=' := by
      cases s with
      | nil => simp
      | cons c s => simpa using hstops
    cases relation with
    | lt => exact (relationOf?_of_ne hne).1
    | gt => exact (relationOf?_of_ne hne).2
    | le | ge | eq | ne => rfl

theorem Follows.relation : Follows text d (fun _ => relation text) (separated relation?) := by
  intro scan hin _
  simp only [Scanner.relation, peek_bind]
  cases hfound : relation? (scan.unread text) with
  | none =>
    rw [separated_of_none hfound, relationOf?_of_none hfound]
    exact arrives_still hin rfl none
  | some found =>
    obtain ⟨relation, rest, hle⟩ := found
    obtain ⟨hs, hlongest⟩ := relation?_eq_some_iff.mp hfound
    dsimp only at hs
    have htwo : relationOf? (scan.unread text)[0]? (scan.unread text)[1]? =
        some (relation, relation.text.length) := by
      rw [hs] at hlongest ⊢
      exact relationOf?_of_longest hlongest
    have hrest : rest = (scan.unread text).drop relation.text.length := by
      rw [hs, List.drop_left]
    rw [separated_of_some hfound, htwo]
    dsimp only
    rw [hrest]
    refine arrives_advance hin ?_ (some relation)
    rw [hs, List.length_append]
    exact Nat.le_add_right _ _

/-! ## Words -/

/-- The characters of a class that come next, counted. -/
theorem Follows.skipWhile (p : Char → Bool) : Follows text d (skipWhile text p) (taken p) := by
  intro scan hin hd
  induction hs : scan.unread text generalizing scan with
  | nil =>
    refine .of_succ ?_
    simp only [Scanner.skipWhile, peek_bind, hs]
    exact arrives_still hin hs _
  | cons c s ih =>
    refine .of_succ ?_
    simp only [Scanner.skipWhile, peek_bind, hs, List.getElem?_cons_zero]
    by_cases hc : p c
    · have hreach : scan.Reaches text (scan.moved (scan.position + 1) scan.depth) :=
        hin.reaches_forward (by simp [hs])
      have hrest : (scan.moved (scan.position + 1) scan.depth).unread text = s := by
        rw [Scan.unread_forward, hs]
        rfl
      have hmoved := hreach.inside hin
      have hmore := ih _ hmoved hd hrest
      simp only [if_pos hc]
      rw [taken_cons hc]
      rw [← hrest] at hmore ⊢
      refine .of_reaches hreach (hmore.bind fun k last hreach' _ => ?_)
      exact arrives_still (hreach'.inside hmoved) rfl (k + 1)
    · simp only [if_neg hc]
      rw [taken_of_stops (by simpa using hc)]
      exact arrives_still hin hs _

theorem Follows.digits : Follows text d (digits text) digitsTaken :=
  (Follows.skipWhile Char.isDigit).bind fun whole => (Follows.consume '.').bind fun _ => .ite
    ((Follows.skipWhile Char.isDigit).bind fun fraction => .pure (whole + fraction))
    (.pure whole)

/-- What is copied between the two ends of a run is what was passed over. -/
theorem copied_of_append {scan last : Scan} (h : scan.Reaches text last) {s rest : List Char}
    (hs : scan.unread text = s ++ rest) (hrest : last.unread text = rest) :
    (text.drop scan.position).take (last.position - scan.position) = s := by
  rw [h.passed, hrest] at hs
  exact List.append_cancel_right hs

theorem Follows.name : Follows text d (name text) nameTaken := by
  intro scan hin hd
  have hskip := Follows.skipWhile isNamePart scan hin hd
  unfold nameTaken
  unfold taken at hskip
  cases hskip with
  | @value _ last _ hreach hrest hrun =>
    obtain ⟨bound, hbound⟩ := hrun
    have hcopied := copied_of_append hreach List.takeWhile_append_dropWhile.symm hrest
    refine .value (hreach.copied hin) hrest ⟨bound, fun n hn => ?_⟩
    rw [← hcopied]
    show Scanner.name text n scan = _
    rw [Scanner.name, get_bind, bind_run, hbound n hn]
    rfl

section Numerals

variable [Scalar α] {B : Builder α ρ}

/-- What the digits that were passed over are made into. -/
theorem numeral_run {scan last : Scan} {n k : Nat} {digits : List Char}
    (hdigits : Scanner.digits text n scan = some (.ok k, last))
    (hcopied : (text.drop scan.position).take (last.position - scan.position) = digits) :
    numeral text B n scan =
      if k = 0 then
        some (.error ⟨if text.length ≤ scan.position then .missingOperand else .notAnOperand,
          scan.unread text⟩, last.moved scan.position last.depth)
      else
        some (match (Numeral.read? digits : Option α) with
          | some value => .ok (B.constant value)
          | none => .error ⟨.badNumeral (String.ofList digits), last.unread text⟩,
          last.noted (.copy scan.position last.position)) := by
  subst hcopied
  rw [Scanner.numeral, get_bind, bind_run, hdigits]
  show (if k = 0 then _ else _ : Scanner ρ) last = _
  split
  · show (if text.length ≤ scan.position then _ else _ : Scanner ρ)
      (last.moved scan.position last.depth) = _
    split <;> rfl
  · show (match (Numeral.read?
        ((text.drop scan.position).take (last.position - scan.position)) : Option α) with
      | some value => pure (B.constant value)
      | none => refuse text _ : Scanner ρ) (last.noted (.copy scan.position last.position)) = _
    cases (Numeral.read?
      ((text.drop scan.position).take (last.position - scan.position)) : Option α) <;> rfl

theorem Follows.numeral : Follows text d (numeral text B) (Parser.numeral B).outcome := by
  intro scan hin hd
  have hdigits := Follows.digits scan hin hd
  rw [digitsTaken_eq] at hdigits
  rw [outcome_numeral]
  cases hdigits with
  | @value _ last _ hreach hrest hrun =>
    obtain ⟨bound, hbound⟩ := hrun
    have hcopied := copied_of_append hreach (Numeral.scan_append _).symm hrest
    have hnumeral := fun n hn => numeral_run (B := B) (hbound n hn) hcopied
    by_cases hdigit : (Numeral.scan (scan.unread text)).1.any Char.isDigit
    · rw [if_pos hdigit]
      have hcount : (Numeral.scan (scan.unread text)).1.countP Char.isDigit ≠ 0 := by
        rw [← Nat.pos_iff_ne_zero, List.countP_pos_iff]
        simpa using hdigit
      have hcopy := hreach.copied hin
      simp only [if_neg hcount] at hnumeral
      rw [hrest] at hnumeral
      cases hread : (Numeral.read? (Numeral.scan (scan.unread text)).1 : Option α) with
      | some value => exact .value hcopy hrest ⟨bound, fun n hn => by rw [hnumeral n hn, hread]⟩
      | none => exact .error hcopy hrest ⟨bound, fun n hn => by rw [hnumeral n hn, hread]⟩
    · rw [if_neg hdigit]
      have hcount : (Numeral.scan (scan.unread text)).1.countP Char.isDigit = 0 := by
        rw [List.countP_eq_zero]
        simpa using hdigit
      have hempty : (scan.unread text).isEmpty ↔ text.length ≤ scan.position := by
        rw [List.isEmpty_iff]
        exact List.drop_eq_nil_iff
      simp only [if_pos hcount, ← hempty] at hnumeral
      split
      · rename_i hnil
        simp only [if_pos hnil] at hnumeral
        exact .error (hreach.back hin) rfl ⟨bound, hnumeral⟩
      · rename_i hnil
        simp only [if_neg hnil] at hnumeral
        exact .error (hreach.back hin) rfl ⟨bound, hnumeral⟩

end Numerals

end Scanner

end RollingBall
