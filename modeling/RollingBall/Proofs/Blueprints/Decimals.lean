import RollingBall.Blueprint.Json
import RollingBall.Proofs.Json.Words

/-!
# The numbers that blueprints write

Naturals and doubles are written as numbers of the grammar (`Blueprint.grammatical_digits`,
`Blueprint.grammatical_shortest`). For doubles this needs that a shortest decimal is not zero, and
so begins with another digit: zero is not read back as the double, and where no grid has a hit the
double is at least one step of the last one.
-/

namespace RollingBall

open Json.Number

/-! ## Digits -/

namespace Decimal

theorem isDigit_of_mem_digits {n : Nat} {d : Char} (h : d ∈ digits n) : d.isDigit :=
  Nat.isDigit_of_mem_toDigits (by decide) (by decide) h

/-- The first digit of a positive number is not zero. -/
theorem digits_begins {n : Nat} (h : 0 < n) : ∃ c tail, digits n = c :: tail ∧ c ≠ '0' := by
  induction n using Nat.strongRecOn with
  | ind n ih =>
    unfold digits
    by_cases hsmall : n < 10
    · refine ⟨n.digitChar, [], Nat.toDigits_of_lt_base hsmall, ?_⟩
      have hall : ∀ k : Fin 10, 0 < k.val → k.val.digitChar ≠ '0' := by decide
      exact hall ⟨n, hsmall⟩ h
    · obtain ⟨c, tail, hdigits, hc⟩ := ih (n / 10) (by omega) (by omega)
      refine ⟨c, tail ++ [(n % 10).digitChar], ?_, hc⟩
      rw [Nat.toDigits_of_base_le (by decide) (by omega)]
      unfold digits at hdigits
      rw [hdigits, List.cons_append]

theorem isWhole_digits (n : Nat) : IsWhole (digits n) := by
  cases n with
  | zero => exact .zero
  | succ n =>
    obtain ⟨c, tail, hdigits, hc⟩ := digits_begins (Nat.succ_pos n)
    rw [hdigits]
    refine .digits hc fun d hd => isDigit_of_mem_digits (n := n + 1) ?_
    rw [hdigits]
    exact hd

/-! ## Shortest decimals -/

/-- A fraction is at least one step of the decimal grid. -/
def Reaches (num den : Nat) (exponent : Int) : Prop :=
  den * Nat.pow 10 exponent.toNat ≤ num * Nat.pow 10 (-exponent).toNat

theorem Reaches.finer {num den : Nat} {exponent exponent' : Int} (h : Reaches num den exponent)
    (hle : exponent' ≤ exponent) : Reaches num den exponent' :=
  calc den * Nat.pow 10 exponent'.toNat ≤ den * Nat.pow 10 exponent.toNat :=
        Nat.mul_le_mul_left den (Nat.pow_le_pow_right (by decide) (by omega))
    _ ≤ num * Nat.pow 10 (-exponent).toNat := h
    _ ≤ num * Nat.pow 10 (-exponent').toNat :=
        Nat.mul_le_mul_left num (Nat.pow_le_pow_right (by decide) (by omega))

theorem reaches_leadingExponent {num den : Nat} (hnum : 0 < num) (hden : 0 < den) :
    Reaches num den (leadingExponent num den) := by
  unfold Reaches leadingExponent length digits
  split
  · rename_i hle
    have hpositive : 0 < num / den := Nat.div_pos hle hden
    generalize hlength : (Nat.toDigits 10 (num / den)).length = l
    have hlow : 10 ^ (l - 1) ≤ num / den := by
      by_cases hone : l - 1 = 0
      · rw [hone]
        exact hpositive
      · refine Nat.not_lt.mp fun hlt => ?_
        have hshort := (Nat.length_toDigits_le_iff (by decide) (Nat.pos_of_ne_zero hone)).mpr hlt
        omega
    have hdown : ((l : Int) - 1).toNat = l - 1 := by omega
    have hup : (-((l : Int) - 1)).toNat = 0 := by
      have hsome := Nat.length_toDigits_pos (b := 10) (n := num / den)
      omega
    rw [hdown, hup]
    show den * 10 ^ (l - 1) ≤ num * 10 ^ 0
    rw [Nat.pow_zero, Nat.mul_one]
    exact Nat.le_trans (Nat.mul_le_mul_left den hlow) (Nat.mul_div_le num den)
  · generalize hlength : (Nat.toDigits 10 ((den - 1) / num)).length = l
    have hhigh : (den - 1) / num < 10 ^ l := by
      have hsome := Nat.length_toDigits_pos (b := 10) (n := (den - 1) / num)
      exact (Nat.length_toDigits_le_iff (by decide) (by omega)).mp (Nat.le_of_eq hlength)
    have hdown : (-(l : Int)).toNat = 0 := by omega
    have hup : (- -(l : Int)).toNat = l := by omega
    rw [hdown, hup]
    show den * 10 ^ 0 ≤ num * 10 ^ l
    rw [Nat.pow_zero, Nat.mul_one]
    have hquotient := Nat.lt_mul_div_succ (den - 1) hnum
    have hstep := Nat.mul_le_mul_left num (Nat.succ_le_of_lt hhigh)
    rw [Nat.succ_eq_add_one] at hstep
    omega

theorem div_le_roundHalfEven (num den : Nat) : num / den ≤ roundHalfEven num den := by
  unfold roundHalfEven
  dsimp only
  split
  · exact Nat.le_refl _
  · split
    · exact Nat.le_succ _
    · exact Nat.le_add_right _ _

theorem roundAt_pos {num den : Nat} {exponent : Int} (hden : 0 < den)
    (h : Reaches num den exponent) : 0 < roundAt num den exponent :=
  Nat.lt_of_lt_of_le (Nat.div_pos h (Nat.mul_pos hden (Nat.pow_pos (by decide))))
    (div_le_roundHalfEven _ _)

namespace Shortest

variable {x : Binary64}

/-- Zero is not read back as another double. -/
theorem not_readsBack_zero (hx : 0 < x.mantissa) (exponent : Int) :
    readsBack x 0 exponent = false := by
  have hquarter : 0 < (scales x exponent).1 :=
    Nat.mul_pos (Nat.pow_pos (by decide)) (Nat.pow_pos (by decide))
  have hlow : 0 < (interval x).1 := by
    unfold interval
    dsimp only
    split <;> omega
  have hle : ¬ (interval x).1 * (scales x exponent).1 ≤ 0 :=
    Nat.not_le.mpr (Nat.mul_pos hlow hquarter)
  have hlt : ¬ (interval x).1 * (scales x exponent).1 < 0 := Nat.not_lt_zero _
  unfold readsBack
  dsimp only
  rw [Nat.zero_mul, decide_eq_false hle, decide_eq_false hlt, Bool.false_and, Bool.false_and,
    ite_self]

theorem pos_of_readsBack (hx : 0 < x.mantissa) {candidate : Nat} {exponent : Int}
    (h : readsBack x candidate exponent = true) : 0 < candidate := by
  refine Nat.pos_of_ne_zero ?_
  rintro rfl
  rw [not_readsBack_zero hx] at h
  exact absurd h (by simp)

theorem pos_of_onGrid? (hx : 0 < x.mantissa) {exponent : Int} {decimal : Shortest}
    (h : onGrid? x exponent = some decimal) : 0 < decimal.digits := by
  unfold onGrid? at h
  dsimp only at h
  split at h
  · exact absurd h (by simp)
  · rename_i hlower _
    obtain rfl := Option.some.inj h
    exact pos_of_readsBack hx hlower
  · obtain rfl := Option.some.inj h
    exact Nat.succ_pos _
  · rename_i hlower _
    split at h
    · obtain rfl := Option.some.inj h
      exact pos_of_readsBack hx hlower
    · obtain rfl := Option.some.inj h
      exact Nat.succ_pos _

theorem pos_search (hx : 0 < x.mantissa) (n : Nat) {exponent : Int}
    (h : Reaches x.numerator x.denominator exponent) : 0 < (search x n exponent).digits := by
  induction n generalizing exponent with
  | zero => exact roundAt_pos (Nat.pow_pos (by decide)) h
  | succ n ih =>
    unfold search
    cases hgrid : onGrid? x exponent with
    | none => exact ih (h.finer (by omega))
    | some decimal => exact pos_of_onGrid? hx hgrid

/-- The shortest decimal of a double other than zero is not zero. -/
theorem pos_ofBinary64 (hx : 0 < x.mantissa) : 0 < (ofBinary64 x).digits :=
  pos_search hx 17 (reaches_leadingExponent (Nat.mul_pos hx (Nat.pow_pos (by decide)))
    (Nat.pow_pos (by decide)))

end Shortest

end Decimal

/-! ## Numbers as written -/

namespace Blueprint

/-- Only zeros after the first digit are trimmed. -/
theorem trimZeros_cons {c : Char} (hc : c ≠ '0') (ds : List Char) :
    ∃ tail, trimZeros (c :: ds) = c :: tail ∧ ∀ d ∈ tail, d ∈ ds := by
  have hdrop : (c :: ds).reverse.dropWhile (· == '0') = ds.reverse.dropWhile (· == '0') ++ [c] := by
    have hlast : [c].dropWhile (· == '0') = [c] := List.dropWhile_cons_of_neg (by simpa using hc)
    rw [List.reverse_cons, List.dropWhile_append, hlast]
    split
    · rename_i hempty
      rw [List.isEmpty_iff.mp hempty, List.nil_append]
    · rfl
  refine ⟨(ds.reverse.dropWhile (· == '0')).reverse, ?_, fun d hd => ?_⟩
  · unfold trimZeros
    rw [hdrop, List.reverse_append]
    rfl
  · exact List.mem_reverse.mp ((List.dropWhile_sublist _).subset (List.mem_reverse.mp hd))

/-- The digits of a number that is not zero are laid out as a number of the grammar. -/
theorem grammatical_layOut (format : NumberFormat) (negative : Bool) {c : Char} {ds : List Char}
    (hc : c ≠ '0') (hds : ∀ d ∈ c :: ds, d.isDigit) (exponent : Int) :
    (layOut format negative (c :: ds) exponent).Grammatical := by
  have hreplicate : ∀ n, ∀ d ∈ List.replicate n '0', d.isDigit := by
    intro n d hd
    rw [List.eq_of_mem_replicate hd]
    decide
  unfold layOut
  split
  · refine ⟨.digits hc fun d hd => ?_, fun d hd => hds d (.tail c hd), ?_⟩
    · rw [List.mem_singleton.mp hd]
      exact hds c (.head ds)
    · show IsExponent ([if exponent < 0 then '-' else '+'] ++ Decimal.digits exponent.natAbs)
      refine .some ?_ Nat.toDigits_ne_nil fun d => Decimal.isDigit_of_mem_digits
      split
      · exact .inr (.inr rfl)
      · exact .inr (.inl rfl)
  · split
    · refine ⟨.zero, fun d hd => ?_, .none⟩
      rcases List.mem_append.mp hd with hd | hd
      · exact hreplicate _ d hd
      · exact hds d hd
    · refine ⟨?_, fun d hd => ?_, .none⟩
      · show IsWhole (c :: (ds.take exponent.toNat ++ List.replicate _ '0'))
        refine .digits hc fun d hd => ?_
        rw [← List.cons_append] at hd
        rcases List.mem_append.mp hd with hd | hd
        · exact hds d (List.mem_of_mem_take (i := exponent.toNat + 1) hd)
        · exact hreplicate _ d hd
      · dsimp only at hd
        split at hd
        · rw [List.mem_singleton.mp hd]
          decide
        · exact hds d (List.mem_of_mem_drop hd)

/-- So is a zero. -/
theorem grammatical_layOut_zero (negative : Bool) :
    (layOut numberFormat negative ['0'] 0).Grammatical where
  whole := .zero
  fraction := by
    intro d hd
    rw [List.mem_singleton.mp (show d ∈ ['0'] from hd)]
    decide
  exponent := .none

/-- **Doubles.** The shortest decimal of a double is written as a number of the grammar. -/
theorem grammatical_shortest (x : Float) : (shortest x).Grammatical := by
  unfold shortest
  dsimp only
  split
  · exact grammatical_layOut_zero _
  · rename_i hmantissa
    have hpositive := Decimal.Shortest.pos_ofBinary64 (Nat.pos_of_ne_zero hmantissa)
    generalize Decimal.Shortest.ofBinary64 (Binary64.decode x) = decimal at hpositive ⊢
    obtain ⟨c, ds, hdigits, hc⟩ := Decimal.digits_begins hpositive
    obtain ⟨tail, htrim, htail⟩ := trimZeros_cons hc ds
    rw [hdigits, htrim]
    refine grammatical_layOut _ _ hc (fun d hd => ?_) _
    refine Decimal.isDigit_of_mem_digits (n := decimal.digits) ?_
    rw [hdigits]
    rcases List.mem_cons.mp hd with rfl | hd
    · exact .head ds
    · exact .tail c (htail d hd)

/-- **Naturals.** The digits of a natural are a number of the grammar. -/
theorem grammatical_digits (n : Nat) :
    Json.Number.Grammatical ⟨false, Decimal.digits n, [], []⟩ where
  whole := Decimal.isWhole_digits n
  fraction := by simp
  exponent := .none

end Blueprint

end RollingBall
