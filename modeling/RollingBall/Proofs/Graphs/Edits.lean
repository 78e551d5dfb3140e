import Mathlib.Data.List.Nodup
import Mathlib.Data.List.Perm.Subperm
import RollingBall.Binary64
import RollingBall.Proofs.Graphs.Ids

/-!
# Runs of edits

A store may be edited for as long as one likes: a freed id is used again before a new one is taken,
so one edit uses no more ids than there were or will be graphs (`GraphStore.idCount_edit`). After
any run on the empty store the ids in use and the free ones are all those below the counter, each
once, and the counter is the most graphs there ever were at once (`ids_fill_the_peak`).

## Main definitions

* `GraphStore.Edit`, `GraphStore.edit`, `GraphStore.editAll`: the calls that change a store, and
  what one of them and a run of them make of it.
* `GraphStore.peak`: the most graphs there are at once in a run.
-/

namespace RollingBall.GraphStore

variable {α : Type}

/-- A call that changes a store, or would if there were a graph with the id. -/
inductive Edit (α : Type) where
  | add (curve : Curve α)
  | remove (id : GraphId)
  | replace (id : GraphId) (curve : Curve α)

/-- The number of ids in use or free. -/
def idCount (s : GraphStore α) : Nat := (s.ids ++ s.recycled).length

theorem size_le_idCount (s : GraphStore α) : s.size ≤ s.idCount := by
  rw [idCount, List.length_append, length_ids]
  exact Nat.le_add_right _ _

/-- Ids that are different and below their number are all those below it. -/
theorem mem_iff_lt_length {ids : List UInt32} (hnodup : ids.Nodup)
    (hbelow : ∀ id ∈ ids, id.toNat < ids.length) (id : UInt32) :
    id ∈ ids ↔ id.toNat < ids.length := by
  refine ⟨hbelow id, fun hlt => ?_⟩
  have hnodup' : (ids.map UInt32.toNat).Nodup :=
    List.Nodup.map (fun _ _ => UInt32.toNat_inj.mp) hnodup
  have hsubset : ids.map UInt32.toNat ⊆ List.range ids.length := by
    intro n hn
    obtain ⟨id, hid, rfl⟩ := List.mem_map.mp hn
    exact List.mem_range.mpr (hbelow id hid)
  have hperm : (ids.map UInt32.toNat).Perm (List.range ids.length) := by
    refine (List.subperm_of_subset hnodup' hsubset).perm_of_length_le (Nat.le_of_eq ?_)
    rw [List.length_range, List.length_map]
  obtain ⟨id', hid', heq⟩ := List.mem_map.mp (hperm.mem_iff.mpr (List.mem_range.mpr hlt))
  rwa [← UInt32.toNat_inj.mp heq]

theorem Accounted.mem_iff_lt_nextId {s : GraphStore α} (h : s.Accounted)
    (hroom : (s.ids ++ s.recycled).length < UInt32.size) (id : UInt32) :
    id ∈ s.ids ++ s.recycled ↔ id < s.nextId := by
  rw [mem_iff_lt_length h.nodup h.below, ← h.toNat_nextId hroom, UInt32.lt_iff_toNat_lt]

variable [Scalar α]

/-- The store after an edit. -/
def edit (s : GraphStore α) : Edit α → GraphStore α
  | .add curve => (s.add curve).2
  | .remove id => (s.remove id).2
  | .replace id curve => (s.replace id curve).2

/-- The store after some edits, one after another. -/
def editAll (s : GraphStore α) (edits : List (Edit α)) : GraphStore α := edits.foldl edit s

@[simp] theorem editAll_nil (s : GraphStore α) : s.editAll [] = s := rfl

@[simp] theorem editAll_cons (s : GraphStore α) (e : Edit α) (edits : List (Edit α)) :
    s.editAll (e :: edits) = (s.edit e).editAll edits := rfl

theorem editAll_append (s : GraphStore α) (edits more : List (Edit α)) :
    s.editAll (edits ++ more) = (s.editAll edits).editAll more :=
  List.foldl_append

/-- The most graphs there are at once, from before the first edit to after the last. -/
def peak (s : GraphStore α) : List (Edit α) → Nat
  | [] => s.size
  | e :: edits => max s.size ((s.edit e).peak edits)

theorem peak_append (s : GraphStore α) (edits more : List (Edit α)) :
    s.peak (edits ++ more) = max (s.peak edits) ((s.editAll edits).peak more) := by
  induction edits generalizing s with
  | nil =>
    cases more with
    | nil => exact (Nat.max_self _).symm
    | cons e more => exact (Nat.max_eq_right (Nat.le_max_left ..)).symm
  | cons e edits ih =>
    rw [List.cons_append, peak, peak, ih, editAll_cons, Nat.max_assoc]

theorem peak_le_append (s : GraphStore α) (edits more : List (Edit α)) :
    s.peak edits ≤ s.peak (edits ++ more) := by
  rw [peak_append]
  exact Nat.le_max_left ..

theorem size_le_peak (s : GraphStore α) (edits : List (Edit α)) : s.size ≤ s.peak edits := by
  cases edits with
  | nil => exact Nat.le_refl _
  | cons e edits => exact Nat.le_max_left ..

theorem size_editAll_le_peak (s : GraphStore α) (edits : List (Edit α)) :
    (s.editAll edits).size ≤ s.peak edits := by
  induction edits generalizing s with
  | nil => exact Nat.le_refl _
  | cons e edits ih => exact Nat.le_trans (ih (s.edit e)) (Nat.le_max_right ..)

/-! ## The number of ids -/

/-- A new id is taken only if all are in use. -/
theorem idCount_add (s : GraphStore α) (curve : Curve α) :
    (s.add curve).2.idCount = max s.idCount (s.add curve).2.size := by
  rw [size_add, idCount, idCount, List.length_append, List.length_append, length_ids, length_ids,
    size_add]
  cases hrecycled : s.recycled with
  | cons id recycled =>
    rw [(add_of_recycled hrecycled curve).2.1, List.length_cons]
    omega
  | nil =>
    rw [(add_of_none_recycled hrecycled curve).2.1, List.length_nil]
    omega

theorem idCount_edit (s : GraphStore α) (e : Edit α) :
    (s.edit e).idCount = max s.idCount (s.edit e).size := by
  cases e with
  | add curve => exact idCount_add s curve
  | remove id =>
    have hcount : (s.edit (.remove id)).idCount = s.idCount := (perm_remove s id).length_eq.symm
    have hsize := size_le_idCount (s.edit (.remove id))
    omega
  | replace id curve =>
    have hcount : (s.edit (.replace id curve)).idCount = s.idCount := by
      unfold idCount edit
      rw [ids_replace, recycled_replace]
    have hsize := size_le_idCount (s.edit (.replace id curve))
    omega

/-- A run uses as many ids as there were already or as it needs at its peak. -/
theorem idCount_editAll (s : GraphStore α) (edits : List (Edit α)) :
    (s.editAll edits).idCount = max s.idCount (s.peak edits) := by
  induction edits generalizing s with
  | nil => exact (Nat.max_eq_left (size_le_idCount s)).symm
  | cons e edits ih =>
    have hsize := size_le_idCount s
    have hpeak := size_le_peak (s.edit e) edits
    rw [editAll_cons, ih, idCount_edit, peak]
    omega

theorem idCount_editAll_empty (edits : List (Edit α)) :
    ((empty : GraphStore α).editAll edits).idCount = empty.peak edits := by
  rw [idCount_editAll]
  exact Nat.max_eq_right (Nat.zero_le _)

/-! ## The ids of a run -/

theorem Accounted.edit {s : GraphStore α} (h : s.Accounted) {e : Edit α}
    (hroom : (s.edit e).size ≤ UInt32.size) : (s.edit e).Accounted := by
  cases e with
  | add curve =>
    have hsize : (s.add curve).2.size ≤ UInt32.size := hroom
    rw [size_add] at hsize
    exact h.add hsize curve
  | remove id => exact h.remove id
  | replace id curve => exact h.replace id curve

theorem Accounted.editAll {s : GraphStore α} (h : s.Accounted) {edits : List (Edit α)}
    (hroom : s.peak edits ≤ UInt32.size) : (s.editAll edits).Accounted := by
  induction edits generalizing s with
  | nil => exact h
  | cons e edits ih =>
    have hpeak := Nat.max_le.mp hroom
    exact ih (h.edit (Nat.le_trans (size_le_peak ..) hpeak.2)) hpeak.2

theorem ids_add (s : GraphStore α) (curve : Curve α) :
    (s.add curve).2.ids = s.ids ++ [(s.add curve).1.value] := by
  unfold add ids
  rw [List.map_append, List.map_singleton]
  unfold takeId
  cases s.recycled with
  | nil => rfl
  | cons id recycled => rfl

/-- No graph has the id that the next one takes. -/
theorem Accounted.id_add_not_mem {s : GraphStore α} (h : s.Accounted) (hsize : s.size < UInt32.size)
    (curve : Curve α) : (s.add curve).1.value ∉ s.ids := by
  have hnodup : ((s.add curve).2.ids).Nodup := (List.nodup_append.mp (h.add hsize curve).nodup).1
  rw [ids_add, List.nodup_append] at hnodup
  intro hmem
  exact hnodup.2.2 _ hmem _ List.mem_cons_self rfl

/-- A graph takes an id that no other has and that is below the peak; if it is a new one, the
counter does not overflow. -/
theorem add_of_peak_lt {edits : List (Edit α)} {curve : Curve α}
    (hroom : empty.peak (edits ++ [.add curve]) < UInt32.size) :
    let s := (empty : GraphStore α).editAll edits
    (s.add curve).1.value ∉ s.ids ∧
      (s.add curve).1.value.toNat < empty.peak (edits ++ [.add curve]) ∧
      (s.recycled = [] → s.nextId.toNat + 1 < UInt32.size) := by
  intro s
  have hafter : (empty : GraphStore α).editAll (edits ++ [.add curve]) = (s.add curve).2 :=
    editAll_append ..
  have hbefore := peak_le_append (empty : GraphStore α) edits [.add curve]
  have hsize : s.size + 1 ≤ empty.peak (edits ++ [.add curve]) := by
    rw [← size_add s curve, ← hafter]
    exact size_editAll_le_peak ..
  have hs : s.Accounted := accounted_empty.editAll (by omega)
  refine ⟨hs.id_add_not_mem (by omega) curve, ?_, ?_⟩
  · have hlast : (s.add curve).1.value ∈ (s.add curve).2.ids ++ (s.add curve).2.recycled := by
      rw [ids_add]
      simp
    rw [← idCount_editAll_empty, hafter]
    exact (hs.add (by omega) curve).below _ hlast
  · intro hnone
    have hids : (s.ids ++ s.recycled).length = s.size := by
      rw [hnone, List.append_nil, length_ids]
    rw [hs.toNat_nextId (by omega), hids]
    omega

/-- **Ids.** After any run on the empty store with fewer graphs at once than there are ids, the ids
in use and the free ones are different, they are all those below the counter, and the counter is
the peak of the run. Each graph that was added took an id below the peak that no other graph had
then, and the counter moved on only if it did not overflow. -/
theorem ids_fill_the_peak {edits : List (Edit α)} (hroom : empty.peak edits < UInt32.size) :
    let s := (empty : GraphStore α).editAll edits
    (s.ids ++ s.recycled).Nodup ∧ (∀ id, id ∈ s.ids ++ s.recycled ↔ id < s.nextId) ∧
      s.nextId.toNat = empty.peak edits ∧
      ∀ before curve after, edits = before ++ .add curve :: after →
        let s := (empty : GraphStore α).editAll before
        (s.add curve).1.value ∉ s.ids ∧ (s.add curve).1.value.toNat < empty.peak edits ∧
          (s.recycled = [] → s.nextId.toNat + 1 < UInt32.size) := by
  have haccounted := accounted_empty.editAll (Nat.le_of_lt hroom)
  have hcount := idCount_editAll_empty edits
  have hids := Nat.lt_of_le_of_lt (Nat.le_of_eq hcount) hroom
  refine ⟨haccounted.nodup, haccounted.mem_iff_lt_nextId hids,
    (haccounted.toNat_nextId hids).trans hcount, ?_⟩
  · rintro before curve after rfl
    have hpeak : empty.peak (before ++ [.add curve]) ≤
        empty.peak (before ++ .add curve :: after) := by
      rw [List.append_cons before _ after]
      exact peak_le_append ..
    obtain ⟨hfresh, hbelow, hcounter⟩ := add_of_peak_lt (Nat.lt_of_le_of_lt hpeak hroom)
    exact ⟨hfresh, Nat.lt_of_lt_of_le hbelow hpeak, hcounter⟩

/-- Two graphs are removed, one of them twice, and the id freed last is used again. -/
theorem ids_fill_the_peak_of_three :
    let before : List (Edit Float) := [.add (.unconditional (.var .x)),
      .add (.unconditional (.var .t)), .add (.unconditional (.constant 0.5)), .remove ⟨0⟩,
      .remove ⟨1⟩, .remove ⟨1⟩]
    let curve : Curve Float := .unconditional (.constant 2.0)
    let s := (empty : GraphStore Float).editAll (before ++ [.add curve])
    s.ids = [2, 1] ∧ s.recycled = [0] ∧ empty.peak (before ++ [.add curve]) < UInt32.size ∧
      (s.ids ++ s.recycled).Nodup ∧ (∀ id, id ∈ s.ids ++ s.recycled ↔ id < s.nextId) ∧
      s.nextId.toNat = empty.peak (before ++ [.add curve]) ∧
      (((empty : GraphStore Float).editAll before).add curve).1.value ∉
        ((empty : GraphStore Float).editAll before).ids := by
  intro before curve s
  have hroom : empty.peak (before ++ [.add curve]) < UInt32.size := by decide
  obtain ⟨hnodup, hall, hcounter, hadds⟩ := ids_fill_the_peak hroom
  exact ⟨rfl, rfl, hroom, hnodup, hall, hcounter, (hadds before curve [] rfl).1⟩

end RollingBall.GraphStore
