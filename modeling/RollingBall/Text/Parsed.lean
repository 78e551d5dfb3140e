/-!
# Reading from the front of a text

A reader takes something off the front of a text and returns what it left, together with the fact
that it took something. So a loop over readers ends.
-/

namespace RollingBall

theorem length_lt_cons (c : Char) (s : List Char) : s.length < (c :: s).length :=
  Nat.lt_succ_self _

theorem lt_length_cons_of_le (c : Char) (r s : List Char) (h : r.length ≤ s.length) :
    r.length < (c :: s).length :=
  Nat.lt_succ_of_le h

theorem length_le_cons_of_le (c : Char) (r s t : List Char) (hr : r.length ≤ s.length)
    (hs : s.length ≤ t.length) : r.length ≤ (c :: t).length :=
  Nat.le_succ_of_le (Nat.le_trans hr hs)

/-- What is left of a text after something was taken off its front, or nothing was. -/
abbrev Rest (s : List Char) : Type := {r : List Char // r.length ≤ s.length}

/-- What is left without the first `n` characters. -/
def Rest.drop (n : Nat) (s : List Char) : Rest s := ⟨s.drop n, (List.drop_sublist n s).length_le⟩

/-- What is left of a text after something was taken off its front. -/
abbrev ShorterRest (s : List Char) : Type := {r : List Char // r.length < s.length}

/-- What was read from the front of a text: a value and the rest, which is shorter. -/
structure Parsed (ρ : Type) (s : List Char) where
  value : ρ
  rest : List Char
  shorter : rest.length < s.length

/-- A value read from a single character. -/
def Parsed.single {ρ : Type} (value : ρ) (c : Char) (s : List Char) : Parsed ρ (c :: s) :=
  ⟨value, s, length_lt_cons c s⟩

theorem Parsed.shorter_of_le {ρ : Type} {s : List Char} (parsed : Parsed ρ s) (r : List Char)
    (h : r.length ≤ parsed.rest.length) : r.length < s.length :=
  Nat.lt_of_le_of_lt h parsed.shorter

end RollingBall
