import RollingBall.Proofs.Graphs.Answers

/-!
# The colors of graphs

A color goes with an id. The ids of a run stay below its peak, so while there are never more graphs
at once than the palette has colors, each graph has a color of the palette that is its own
(`colors_tell_graphs_apart`). A graph keeps its id, and so its color, until it is removed.
-/

namespace RollingBall

/-! ## The palette -/

namespace GraphId

theorem nodup_palette : (palette.map Rgb.ofHex).Nodup := by decide +kernel

variable {α : Type} [Scalar α] {id id' : GraphId}

theorem color_of_lt (h : id.value.toNat < palette.length) :
    id.color α = Rgb.ofHex palette[id.value.toNat] := by
  unfold color
  rw [List.getElem?_eq_getElem h]

/-- The colors of the palette belong to different ids. -/
theorem eq_of_color_eq (h : id.value.toNat < palette.length)
    (h' : id'.value.toNat < palette.length) (hcolor : id.color α = id'.color α) : id = id' := by
  rw [color_of_lt h, color_of_lt h'] at hcolor
  have hlength : palette.length = (palette.map Rgb.ofHex).length := (List.length_map ..).symm
  have hplaces : (palette.map Rgb.ofHex).get ⟨id.value.toNat, hlength ▸ h⟩ =
      (palette.map Rgb.ofHex).get ⟨id'.value.toNat, hlength ▸ h'⟩ := by
    rw [List.get_eq_getElem, List.get_eq_getElem, List.getElem_map, List.getElem_map]
    exact hcolor
  have hplace : id.value.toNat = id'.value.toNat :=
    Fin.mk.inj (nodup_palette.injective_get hplaces)
  exact GraphStore.value_inj.mp (UInt32.toNat_inj.mp hplace)

end GraphId

namespace GraphStore

variable {α : Type} [Scalar α]

/-! ## Ids that stay -/

/-- Only its removal takes a graph's id out of the store. -/
theorem mem_ids_edit {s : GraphStore α} {id : GraphId} (hid : id ∈ s.graphs.map Graph.id)
    {e : Edit α} (hkeeps : e ≠ .remove id) : id ∈ (s.edit e).graphs.map Graph.id := by
  cases e with
  | add curve =>
    show id ∈ (s.add curve).2.graphs.map Graph.id
    rw [graphs_add, List.map_append]
    exact List.mem_append_left _ hid
  | remove other =>
    obtain ⟨graph, hgraph, rfl⟩ := List.mem_map.mp hid
    have hother : ¬ decide (graph.id = other) = true := by
      rw [decide_eq_true_eq]
      rintro rfl
      exact hkeeps rfl
    show graph.id ∈ (s.remove other).2.graphs.map Graph.id
    rw [graphs_remove]
    refine List.mem_map_of_mem ?_
    exact (List.mem_eraseP_of_neg (p := fun graph => decide (graph.id = other)) hother).mpr hgraph
  | replace other curve =>
    show id ∈ (s.replace other curve).2.graphs.map Graph.id
    rw [map_id_replace]
    exact hid

theorem mem_ids_editAll {s : GraphStore α} {id : GraphId} (hid : id ∈ s.graphs.map Graph.id)
    {edits : List (Edit α)} (hkeeps : .remove id ∉ edits) :
    id ∈ (s.editAll edits).graphs.map Graph.id := by
  induction edits generalizing s with
  | nil => exact hid
  | cons e edits ih =>
    have hfirst : e ≠ .remove id := fun heq => hkeeps (heq ▸ List.mem_cons_self)
    exact ih (mem_ids_edit hid hfirst) (mt (List.mem_cons_of_mem e) hkeeps)

/-! ## Colors of a run -/

section Run

variable {edits : List (Edit α)} (hpeak : empty.peak edits ≤ UInt32.size)

include hpeak

theorem color_of_mem_editAll {graph : Graph α}
    (hgraph : graph ∈ ((empty : GraphStore α).editAll edits).graphs) :
    graph.color = graph.id.color α :=
  ((recorded_empty.editAll hpeak).graph graph hgraph).2

/-- Every id in use is below the peak. -/
theorem lt_peak_of_mem_editAll {graph : Graph α}
    (hgraph : graph ∈ ((empty : GraphStore α).editAll edits).graphs) :
    graph.id.value.toNat < empty.peak edits := by
  rw [← idCount_editAll_empty edits]
  refine (accounted_empty.editAll hpeak).below _ (List.mem_append_left _ ?_)
  exact List.mem_map_of_mem hgraph

end Run

/-- **Colors.** After any run on the empty store with at most 64 graphs at once, no two graphs have
the same color. A graph that is not removed is there for the rest of the run with the color it had,
whatever curves it gets, and so is any graph that takes its id. -/
theorem colors_tell_graphs_apart {edits : List (Edit α)} (hpeak : empty.peak edits ≤ 64) :
    (((empty : GraphStore α).editAll edits).graphs.map Graph.color).Nodup ∧
      ∀ before after, edits = before ++ after →
        ∀ graph ∈ ((empty : GraphStore α).editAll before).graphs,
          (.remove graph.id ∉ after → ∃ later ∈ ((empty : GraphStore α).editAll edits).graphs,
            later.id = graph.id ∧ later.color = graph.color) ∧
          ∀ later ∈ ((empty : GraphStore α).editAll edits).graphs,
            later.id = graph.id → later.color = graph.color := by
  have hroom : empty.peak edits ≤ UInt32.size := Nat.le_trans hpeak (by decide)
  constructor
  · have hcolors : ((empty : GraphStore α).editAll edits).graphs.map Graph.color =
        (((empty : GraphStore α).editAll edits).graphs.map Graph.id).map (GraphId.color α) := by
      rw [List.map_map]
      exact List.map_congr_left fun graph hgraph => color_of_mem_editAll hroom hgraph
    have hbelow : ∀ id ∈ ((empty : GraphStore α).editAll edits).graphs.map Graph.id,
        id.value.toNat < GraphId.palette.length := by
      intro id hid
      obtain ⟨graph, hgraph, rfl⟩ := List.mem_map.mp hid
      exact Nat.lt_of_lt_of_le (lt_peak_of_mem_editAll hroom hgraph) hpeak
    rw [hcolors]
    exact (accounted_empty.editAll hroom).nodup_graphs.map_on fun id hid id' hid' =>
      GraphId.eq_of_color_eq (hbelow id hid) (hbelow id' hid')
  · rintro before after rfl graph hgraph
    have hbefore : empty.peak before ≤ UInt32.size := Nat.le_trans (peak_le_append ..) hroom
    have hsame : ∀ later ∈ ((empty : GraphStore α).editAll (before ++ after)).graphs,
        later.id = graph.id → later.color = graph.color := by
      intro later hlater hid
      rw [color_of_mem_editAll hroom hlater, hid, color_of_mem_editAll hbefore hgraph]
    refine ⟨fun hkept => ?_, hsame⟩
    have hid : graph.id ∈
        ((empty : GraphStore α).editAll (before ++ after)).graphs.map Graph.id := by
      rw [editAll_append]
      exact mem_ids_editAll (List.mem_map_of_mem hgraph) hkept
    obtain ⟨later, hlater, heq⟩ := List.mem_map.mp hid
    exact ⟨later, hlater, heq, hsame later hlater heq⟩

/-- The first graph gets new curves while the second gives its id to a third, and stays black. -/
theorem colors_tell_graphs_apart_of_two :
    let before : List (Edit Float) := [.add (.unconditional (.var .x)),
      .add (.unconditional (.var .t))]
    let after : List (Edit Float) := [.replace ⟨0⟩ (.unconditional (.constant 0.5)), .remove ⟨1⟩,
      .replace ⟨0⟩ (.unconditional (.constant 2.0)), .add (.unconditional (.var .x))]
    let s := (empty : GraphStore Float).editAll (before ++ after)
    empty.peak (before ++ after) ≤ 64 ∧ s.graphs.map Graph.id = [⟨0⟩, ⟨1⟩] ∧
      s.graphs.map Graph.color = [⟨0, 0, 0⟩, ⟨0, 255, 0⟩] ∧ (s.graphs.map Graph.color).Nodup ∧
      ∃ later ∈ s.graphs, later.id = ⟨0⟩ ∧ later.color = ⟨0, 0, 0⟩ := by
  intro before after s
  have hpeak : empty.peak (before ++ after) ≤ 64 := by decide
  obtain ⟨hnodup, hcolors⟩ := colors_tell_graphs_apart hpeak
  obtain ⟨hkept, -⟩ := hcolors before after rfl ⟨⟨0⟩, .unconditional (.var .x), ⟨0, 0, 0⟩⟩ (.head _)
  exact ⟨hpeak, rfl, rfl, hnodup, hkept (by simp [after])⟩

end GraphStore

end RollingBall
