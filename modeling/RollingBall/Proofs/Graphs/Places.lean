import Mathlib.Data.List.Forall2
import RollingBall.Proofs.Graphs.Ids
import RollingBall.Proofs.Motion.Move

/-!
# The places of graphs

As no two graphs share an id, the place of a graph in the list is as good a name as its id
(`GraphStore.Accounted.place_of_getElem?`), and a better one to compare two stores with: their
graphs correspond if their places do, after a renumbering (`GraphStore.Renumbered`).
-/

namespace RollingBall.GraphStore

variable {α : Type}

/-- The place of the graph with this id, counted from the first. -/
def place (s : GraphStore α) (id : GraphId) : Option Nat :=
  s.graphs.findIdx? fun graph => graph.id = id

theorem Accounted.place_of_getElem? {s : GraphStore α} (h : s.Accounted) {i : Nat}
    {graph : Graph α} (hi : s.graphs[i]? = some graph) : s.place graph.id = some i := by
  obtain ⟨hlt, hgraph⟩ := List.getElem?_eq_some_iff.mp hi
  have hnodup : s.ids.Nodup := (List.nodup_append.mp h.nodup).1
  refine List.findIdx?_eq_some_iff_getElem.mpr ⟨hlt, by simp [hgraph], ?_⟩
  intro j hj
  rw [decide_eq_true_eq]
  intro heq
  have hjs : j < s.ids.length := by
    rw [ids, List.length_map]
    omega
  have his : i < s.ids.length := by rwa [ids, List.length_map]
  have hids : s.ids[j] = s.ids[i] := by simp [ids, heq, hgraph]
  exact Nat.ne_of_lt hj ((List.getElem_inj hnodup).mp hids)

theorem get?_of_place {s : GraphStore α} {id : GraphId} {i : Nat} (h : s.place id = some i) :
    s.get? id = s.graphs[i]? := by
  unfold get?
  rw [List.find?_eq_bind_findIdx?_getElem?]
  unfold place at h
  rw [h, Option.bind_some]

/-! ## Corresponding graphs -/

/-- The formulas, in the order of the graphs. -/
def formulas (s : GraphStore α) : List (Formula α) := s.curves.map Curve.formula

/-- No supports, or graphs whose places correspond: the place in the first store is that in the
second, renumbered. -/
inductive Renumbered (number : Nat → Nat) (s s' : GraphStore α) :
    Option GraphId → Option GraphId → Prop where
  | none : Renumbered number s s' none none
  | some {id id' : GraphId} {i : Nat} : s.place id = some (number i) → s'.place id' = some i →
      Renumbered number s s' (some id) (some id')

variable {number : Nat → Nat} {s s' : GraphStore α} {support support' : Option GraphId}

theorem Renumbered.map_place (h : Renumbered number s s' support support') :
    support.map s.place = (support'.map s'.place).map (Option.map number) := by
  cases h with
  | none => rfl
  | some hid hid' =>
    rw [Option.map_some, Option.map_some, hid, hid']
    rfl

theorem curve?_of_place {id : GraphId} {i : Nat} (h : s.place id = some i) :
    (s.curve? id).map Curve.formula = s.formulas[i]? := by
  rw [curve?, get?_of_place h, formulas, curves, List.getElem?_map, List.getElem?_map]

/-- Supports that correspond have the same formula. -/
theorem Renumbered.formula? (h : Renumbered number s s' support support')
    (hformulas : ∀ i, s.formulas[number i]? = s'.formulas[i]?) :
    (support.bind s.curve?).map Curve.formula = (support'.bind s'.curve?).map Curve.formula := by
  cases h with
  | none => rfl
  | some hid hid' =>
    rw [Option.bind_some, Option.bind_some, curve?_of_place hid, curve?_of_place hid', hformulas]

/-- Graphs with the same curve at corresponding places. -/
def Paired (number : Nat → Nat) (s s' : GraphStore α) (graph graph' : Graph α) : Prop :=
  graph.curve = graph'.curve ∧ Renumbered number s s' (some graph.id) (some graph'.id)

/-- Parts of two stores with the same curves correspond if their places do. -/
theorem forall₂_renumbered (number : Nat → Nat) (h : s.Accounted) (h' : s'.Accounted)
    {graphs before after graphs' before' after' : List (Graph α)}
    (hs : s.graphs = before ++ (graphs ++ after))
    (hs' : s'.graphs = before' ++ (graphs' ++ after'))
    (hcurves : graphs.map Graph.curve = graphs'.map Graph.curve)
    (hnumber : ∀ i < graphs.length, number (before'.length + i) = before.length + i) :
    List.Forall₂ (Paired number s s') graphs graphs' := by
  have hlength : graphs.length = graphs'.length := by
    simpa only [List.length_map] using congrArg List.length hcurves
  refine List.forall₂_iff_get.mpr ⟨hlength, ?_⟩
  intro i hi hi'
  have hplace : s.graphs[before.length + i]? = some graphs[i] := by
    rw [hs, List.getElem?_append_right (Nat.le_add_right ..),
      Nat.add_sub_cancel_left, List.getElem?_append_left hi, List.getElem?_eq_getElem hi]
  have hplace' : s'.graphs[before'.length + i]? = some graphs'[i] := by
    rw [hs', List.getElem?_append_right (Nat.le_add_right ..),
      Nat.add_sub_cancel_left, List.getElem?_append_left hi', List.getElem?_eq_getElem hi']
  have hcurve : (graphs.map Graph.curve)[i]? = (graphs'.map Graph.curve)[i]? := by rw [hcurves]
  rw [List.getElem?_map, List.getElem?_map, List.getElem?_eq_getElem hi,
    List.getElem?_eq_getElem hi'] at hcurve
  refine ⟨Option.some.inj hcurve, .some ?_ (h'.place_of_getElem? hplace')⟩
  rw [hnumber i hi]
  exact h.place_of_getElem? hplace

end RollingBall.GraphStore
