import RollingBall.Proofs.Graphs.Log

/-!
# What a store answers

What a store shows and answers can be said without it, by what happened to it. A store that began
empty has the graphs that its log tells, in that order and with those curves, and its free ids are
those of the log, so the log tells every answer (`store_answers_as_its_log`).

## Main definitions

* `GraphStore.Recorded`, `GraphStore.Stacked`: the graphs and the free ids are those of a log.
* `GraphStore.Answers`: a store shows and answers what a log tells.
-/

namespace RollingBall.GraphStore

variable {α : Type}

theorem value_inj {id id' : GraphId} : id.value = id'.value ↔ id = id' := by
  obtain ⟨value⟩ := id
  obtain ⟨value'⟩ := id'
  exact GraphId.mk.injEq value value' ▸ Iff.rfl

/-! ## What an edit changes -/

theorem contains_iff {s : GraphStore α} {id : GraphId} :
    s.contains id = true ↔ id ∈ s.graphs.map Graph.id := by
  simp [contains]

theorem Accounted.nodup_graphs {s : GraphStore α} (h : s.Accounted) :
    (s.graphs.map Graph.id).Nodup := by
  have hids : ((s.graphs.map Graph.id).map GraphId.value).Nodup := by
    rw [List.map_map]
    exact (List.nodup_append.mp h.nodup).1
  exact List.Nodup.of_map GraphId.value hids

theorem graphs_remove (s : GraphStore α) (id : GraphId) :
    (s.remove id).2.graphs = s.graphs.eraseP fun graph => graph.id = id := by
  unfold remove
  split
  · rfl
  · rename_i hcontains
    refine (List.eraseP_of_forall_not fun graph hgraph hid => hcontains ?_).symm
    exact List.any_eq_true.mpr ⟨graph, hgraph, hid⟩

/-- As no two graphs share an id, no graph with a removed id is left. -/
theorem Accounted.map_id_remove {s : GraphStore α} (h : s.Accounted) (id : GraphId) :
    (s.remove id).2.graphs.map Graph.id =
      (s.graphs.map Graph.id).filter fun id' => id' != id := by
  have hmap : (s.remove id).2.graphs.map Graph.id = (s.graphs.map Graph.id).erase id := by
    rw [graphs_remove, List.erase_eq_eraseP', List.eraseP_map]
    rfl
  rw [hmap, h.nodup_graphs.erase_eq_filter]

/-- As no two graphs share an id, putting a curve in place changes no other graph. -/
theorem exists_of_mem_putCurve {id : GraphId} {curve : Curve α} {graphs : List (Graph α)}
    (hnodup : (graphs.map Graph.id).Nodup) {graph : Graph α}
    (h : graph ∈ putCurve id curve graphs) :
    ∃ old ∈ graphs, graph.id = old.id ∧ graph.color = old.color ∧
      graph.curve = if graph.id = id then curve else old.curve := by
  induction graphs with
  | nil => contradiction
  | cons first graphs ih =>
    obtain ⟨hfirst, hrest⟩ := List.nodup_cons.mp hnodup
    unfold putCurve at h
    by_cases hid : first.id = id
    · rw [if_pos hid] at h
      rcases List.mem_cons.mp h with rfl | hgraph
      · exact ⟨first, List.mem_cons_self, rfl, rfl, (if_pos hid).symm⟩
      · have hne : graph.id ≠ id := fun heq =>
          hfirst (hid.trans heq.symm ▸ List.mem_map_of_mem hgraph)
        exact ⟨graph, List.mem_cons_of_mem _ hgraph, rfl, rfl, (if_neg hne).symm⟩
    · rw [if_neg hid] at h
      rcases List.mem_cons.mp h with rfl | hgraph
      · exact ⟨graph, List.mem_cons_self, rfl, rfl, (if_neg hid).symm⟩
      · obtain ⟨old, hold, hkeeps⟩ := ih hrest hgraph
        exact ⟨old, List.mem_cons_of_mem _ hold, hkeeps⟩

section Add

variable [Scalar α]

theorem graphs_add (s : GraphStore α) (curve : Curve α) :
    (s.add curve).2.graphs =
      s.graphs ++ [⟨(s.add curve).1, curve, (s.add curve).1.color α⟩] := by
  unfold add takeId
  cases s.recycled <;> rfl

theorem fst_add_of_recycled {s : GraphStore α} {id : UInt32} {recycled : List UInt32}
    (h : s.recycled = id :: recycled) (curve : Curve α) : (s.add curve).1 = ⟨id⟩ := by
  unfold add takeId
  rw [h]

theorem fst_add_of_none_recycled {s : GraphStore α} (h : s.recycled = []) (curve : Curve α) :
    (s.add curve).1 = ⟨s.nextId⟩ := by
  unfold add takeId
  rw [h]

/-- The only id that may be used or free for the first time is that of the new graph. -/
theorem mem_ids_add (s : GraphStore α) (curve : Curve α) (id : UInt32) :
    id ∈ (s.add curve).2.ids ++ (s.add curve).2.recycled ↔
      id ∈ s.ids ++ s.recycled ∨ id = (s.add curve).1.value := by
  rw [ids_add]
  cases hrecycled : s.recycled with
  | nil =>
    rw [(add_of_none_recycled hrecycled curve).2.1]
    simp
  | cons first recycled =>
    rw [(add_of_recycled hrecycled curve).2.1, fst_add_of_recycled hrecycled]
    simp
    tauto

theorem Accounted.recycled_add {s : GraphStore α} (h : s.Accounted) (curve : Curve α) :
    (s.add curve).2.recycled.map GraphId.mk =
      (s.recycled.map GraphId.mk).filter fun id => id != (s.add curve).1 := by
  cases hrecycled : s.recycled with
  | nil =>
    rw [(add_of_none_recycled hrecycled curve).2.1]
    rfl
  | cons first recycled =>
    have hnodup : (first :: recycled).Nodup := hrecycled ▸ (List.nodup_append.mp h.nodup).2.1
    have hothers : ∀ id ∈ recycled.map GraphId.mk, id != ⟨first⟩ := by
      rintro _ hid
      obtain ⟨value, hvalue, rfl⟩ := List.mem_map.mp hid
      rw [bne_iff_ne, ← value_inj.ne]
      rintro rfl
      exact (List.nodup_cons.mp hnodup).1 hvalue
    rw [(add_of_recycled hrecycled curve).2.1, fst_add_of_recycled hrecycled, List.map_cons,
      List.filter_cons_of_neg (by simp), List.filter_eq_self.mpr hothers]

end Add

/-! ## Looking a graph up -/

theorem Accounted.get?_eq_some_iff {s : GraphStore α} (h : s.Accounted) {id : GraphId}
    {graph : Graph α} : s.get? id = some graph ↔ graph ∈ s.graphs ∧ graph.id = id := by
  unfold get?
  constructor
  · intro hfind
    have hid := List.find?_some hfind
    exact ⟨List.mem_of_find?_eq_some hfind, of_decide_eq_true hid⟩
  · rintro ⟨hgraph, rfl⟩
    obtain ⟨found, hfound⟩ := Option.isSome_iff_exists.mp
      (List.find?_isSome (p := fun other => decide (other.id = graph.id)).mpr
        ⟨graph, hgraph, decide_eq_true rfl⟩)
    have hid := List.find?_some hfound
    have hsame : found = graph := List.inj_on_of_nodup_map h.nodup_graphs
      (List.mem_of_find?_eq_some hfound) hgraph (of_decide_eq_true hid)
    rw [hfound, hsame]

theorem get?_eq_none_iff {s : GraphStore α} {id : GraphId} :
    s.get? id = none ↔ id ∉ s.graphs.map Graph.id := by
  simp [get?]

/-! ## What a log tells of the graphs -/

section Graphs

variable [Scalar α]

/-- The graphs of the store are those of the log. -/
structure Recorded (s : GraphStore α) (log : Log α) : Prop where
  accounted : s.Accounted
  live : s.graphs.map Graph.id = log.live
  given : ∀ id, id ∈ log.given ↔ id.value ∈ s.ids ++ s.recycled
  graph : ∀ graph ∈ s.graphs,
    log.curve? graph.id = some graph.curve ∧ graph.color = graph.id.color α

theorem recorded_empty : (empty : GraphStore α).Recorded [] where
  accounted := accounted_empty
  live := rfl
  given _ := by simp [Log.given, empty, ids]
  graph _ h := absurd h List.not_mem_nil

variable {s : GraphStore α} {log : Log α}

theorem Recorded.add (h : s.Recorded log) (hsize : s.size < UInt32.size) (curve : Curve α) :
    (s.add curve).2.Recorded (log ++ [.added (s.add curve).1 curve]) where
  accounted := h.accounted.add hsize curve
  live := by
    rw [graphs_add, List.map_append, h.live, Log.live_added]
    rfl
  given id := by
    rw [Log.given_added, List.mem_append, List.mem_singleton, h.given, mem_ids_add]
    exact or_congr_right value_inj.symm
  graph graph hgraph := by
    rw [graphs_add, List.mem_append, List.mem_singleton] at hgraph
    rw [Log.curve?_concat]
    rcases hgraph with hgraph | rfl
    · have hne : (s.add curve).1 ≠ graph.id := by
        intro heq
        refine h.accounted.id_add_not_mem hsize curve ?_
        rw [heq]
        exact List.mem_map_of_mem hgraph
      have hcurve : (Event.added (s.add curve).1 curve).curve? graph.id = none := if_neg hne
      rw [hcurve, Option.none_or]
      exact h.graph graph hgraph
    · have hcurve : (Event.added (s.add curve).1 curve).curve? (s.add curve).1 = some curve :=
        if_pos rfl
      rw [hcurve]
      exact ⟨rfl, rfl⟩

theorem Recorded.remove (h : s.Recorded log) (id : GraphId) :
    (s.remove id).2.Recorded (log ++ [.removed id]) where
  accounted := h.accounted.remove id
  live := by rw [h.accounted.map_id_remove, h.live, Log.live_removed]
  given id' := by rw [Log.given_removed, h.given, (perm_remove s id).mem_iff]
  graph graph hgraph := by
    rw [graphs_remove] at hgraph
    rw [Log.curve?_concat]
    exact h.graph graph (List.mem_of_mem_eraseP hgraph)

theorem Recorded.replace (h : s.Recorded log) {id : GraphId} (hfound : s.contains id = true)
    (curve : Curve α) : (s.replace id curve).2.Recorded (log ++ [.replaced id curve]) where
  accounted := h.accounted.replace id curve
  live := by rw [map_id_replace, h.live, Log.live_replaced]
  given id' := by rw [Log.given_replaced, h.given, ids_replace, recycled_replace]
  graph graph hgraph := by
    have hput : graph ∈ putCurve id curve s.graphs := by
      unfold GraphStore.replace at hgraph
      rwa [if_pos hfound] at hgraph
    obtain ⟨old, hold, hid, hcolor, hcurve⟩ :=
      exists_of_mem_putCurve h.accounted.nodup_graphs hput
    obtain ⟨hlast, hcolorOld⟩ := h.graph old hold
    refine ⟨?_, by rw [hcolor, hid, hcolorOld]⟩
    rw [Log.curve?_concat, hcurve, hid, hlast]
    by_cases heq : id = old.id
    · simp [Event.curve?, heq]
    · simp [Event.curve?, heq, Ne.symm heq]

theorem Recorded.editAll (h : s.Recorded log) {edits : List (Edit α)}
    (hroom : s.peak edits ≤ UInt32.size) : (s.editAll edits).Recorded (log ++ s.log edits) :=
  h.accounted.told_editAll (fun curve _ hsize h => h.add hsize curve) (fun id _ _ h => h.remove id)
    (fun _ curve _ hfound h => h.replace hfound curve) hroom h

end Graphs

/-! ## What a log tells of the free ids -/

/-- The free ids are those of the log and, below them, some that were free before it. -/
def Stacked (base : List GraphId) (s : GraphStore α) (log : Log α) : Prop :=
  ∃ old, old.Sublist base ∧ s.recycled.map GraphId.mk = log.spare ++ old

section Stacked

variable {base : List GraphId} {s : GraphStore α} {log : Log α} (h : Stacked base s log)

include h

theorem Stacked.remove {id : GraphId} (hfound : s.contains id = true) :
    Stacked base (s.remove id).2 (log ++ [.removed id]) := by
  obtain ⟨old, hold, hrecycled⟩ := h
  refine ⟨old, hold, ?_⟩
  unfold GraphStore.remove
  rw [if_pos hfound, List.map_cons, hrecycled, Log.spare_removed]
  rfl

theorem Stacked.replace (id : GraphId) (curve : Curve α) :
    Stacked base (s.replace id curve).2 (log ++ [.replaced id curve]) := by
  obtain ⟨old, hold, hrecycled⟩ := h
  refine ⟨old, hold, ?_⟩
  rw [recycled_replace, hrecycled, Log.spare_replaced]

variable [Scalar α]

theorem Stacked.add (hs : s.Accounted) (curve : Curve α) :
    Stacked base (s.add curve).2 (log ++ [.added (s.add curve).1 curve]) := by
  obtain ⟨old, hold, hrecycled⟩ := h
  refine ⟨old.filter fun id => id != (s.add curve).1, List.filter_sublist.trans hold, ?_⟩
  rw [hs.recycled_add, hrecycled, List.filter_append, Log.spare_added]

theorem Stacked.editAll (hs : s.Accounted) {edits : List (Edit α)}
    (hroom : s.peak edits ≤ UInt32.size) : Stacked base (s.editAll edits) (log ++ s.log edits) :=
  hs.told_editAll (fun curve hs _ h => h.add hs curve) (fun _ _ hfound h => h.remove hfound)
    (fun id curve _ _ h => h.replace id curve) hroom h

end Stacked

section Answers

variable [Scalar α]

/-- After a run, the ids that its log tells to be free are free. -/
theorem Accounted.spare_editAll {s : GraphStore α} (hs : s.Accounted) {edits : List (Edit α)}
    (hroom : s.peak edits ≤ UInt32.size) {id : GraphId} (hid : id ∈ (s.log edits).spare) :
    id.value ∈ (s.editAll edits).recycled := by
  have hstart : Stacked (s.recycled.map GraphId.mk) s [] := ⟨_, List.Sublist.refl _, rfl⟩
  obtain ⟨old, -, hrecycled⟩ := hstart.editAll hs hroom
  have hmem : id ∈ (s.editAll edits).recycled.map GraphId.mk :=
    hrecycled ▸ List.mem_append_left old hid
  obtain ⟨value, hvalue, rfl⟩ := List.mem_map.mp hmem
  exact hvalue

/-- After a run on the empty store, the ids that its log tells to be free are all that are. -/
theorem recycled_editAll_empty {edits : List (Edit α)} (hroom : empty.peak edits ≤ UInt32.size) :
    ((empty : GraphStore α).editAll edits).recycled.map GraphId.mk =
      ((empty : GraphStore α).log edits).spare := by
  have hstart : Stacked [] (empty : GraphStore α) [] := ⟨[], List.Sublist.refl _, rfl⟩
  obtain ⟨old, hold, hrecycled⟩ := hstart.editAll accounted_empty hroom
  rw [List.sublist_nil.mp hold, List.append_nil] at hrecycled
  exact hrecycled

/-! ## Answers -/

/-- What a store shows and answers, said by what happened to it. -/
structure Answers (s : GraphStore α) (log : Log α) : Prop where
  /-- It lists the graphs that were added and not removed since, in the order they were added. -/
  live : s.graphs.map Graph.id = log.live
  /-- A graph has the curve that its id got last, and the color that goes with the id. -/
  graph : ∀ graph ∈ s.graphs,
    log.curve? graph.id = some graph.curve ∧ graph.color = graph.id.color α
  /-- It finds the one graph with an id. -/
  get?_eq_some : ∀ id graph, s.get? id = some graph ↔ graph ∈ s.graphs ∧ graph.id = id
  get?_eq_none : ∀ id, s.get? id = none ↔ id ∉ log.live
  remove : ∀ id, (s.remove id).1 = true ↔ id ∈ log.live
  replace : ∀ id curve, (s.replace id curve).1 = true ↔ id ∈ log.live
  /-- An edit that finds no graph changes nothing. -/
  remove_failed : ∀ id, id ∉ log.live → (s.remove id).2 = s
  replace_failed : ∀ id curve, id ∉ log.live → (s.replace id curve).2 = s
  /-- A graph takes the id that was freed last and not used since. -/
  reuse : ∀ id ∈ log.spare.head?, ∀ curve, (s.add curve).1 = id
  /-- If there is none, it takes the least id that was never given. -/
  new : log.spare = [] → s.size < UInt32.size → ∀ curve,
    (s.add curve).1 ∉ log.given ∧ ∀ id, id.value < (s.add curve).1.value → id ∈ log.given

/-- **Logs.** After any run on the empty store, the store shows and answers what the log of the run
tells. There must never be more graphs at once than ids, or they could not be told apart. -/
theorem store_answers_as_its_log {edits : List (Edit α)}
    (hroom : empty.peak edits ≤ UInt32.size) :
    ((empty : GraphStore α).editAll edits).Answers ((empty : GraphStore α).log edits) := by
  have hrecorded := recorded_empty.editAll hroom
  have hrecycled := recycled_editAll_empty hroom
  generalize (empty : GraphStore α).editAll edits = s at *
  rw [List.nil_append] at hrecorded
  have hs := hrecorded.accounted
  have hcontains : ∀ id, s.contains id = true ↔ id ∈ (empty.log edits).live := fun id => by
    rw [contains_iff, hrecorded.live]
  have hmissing : ∀ id, id ∉ (empty.log edits).live → s.contains id = false := fun id hid =>
    Bool.eq_false_iff.mpr (mt (hcontains id).mp hid)
  exact
    { live := hrecorded.live
      graph := hrecorded.graph
      get?_eq_some := fun id graph => hs.get?_eq_some_iff
      get?_eq_none := fun id => by rw [get?_eq_none_iff, hrecorded.live]
      remove := fun id => by rw [fst_remove, hcontains]
      replace := fun id curve => by rw [fst_replace, hcontains]
      remove_failed := fun id hid => remove_of_not_contains (hmissing id hid)
      replace_failed := fun id curve hid => replace_of_not_contains (hmissing id hid) curve
      reuse := fun id hid curve => by
        cases hfree : s.recycled with
        | nil => simp [← hrecycled, hfree] at hid
        | cons first recycled =>
          rw [← hrecycled, hfree] at hid
          exact (fst_add_of_recycled hfree curve).trans (Option.some_inj.mp hid)
      new := fun hnone hsize curve => by
        have hfree : s.recycled = [] := List.map_eq_nil_iff.mp (hrecycled.trans hnone)
        have hroom : (s.ids ++ s.recycled).length < UInt32.size := by
          rwa [hfree, List.append_nil, length_ids]
        simp only [fst_add_of_none_recycled hfree, hrecorded.given]
        exact ⟨hs.nextId_not_mem hroom, fun id hid =>
          (hs.mem_iff_lt_nextId hroom id.value).mpr hid⟩ }

/-- A graph is removed, in vain once more, the other one gets a new curve, and the freed id goes to
a graph that is now the last. -/
theorem store_answers_as_its_log_of_two :
    let edits : List (Edit Float) := [.add (.unconditional (.var .x)),
      .add (.unconditional (.var .t)), .remove ⟨0⟩, .remove ⟨0⟩,
      .replace ⟨1⟩ (.unconditional (.constant 0.5)), .add (.unconditional (.constant 2.0))]
    let s := (empty : GraphStore Float).editAll edits
    let log := (empty : GraphStore Float).log edits
    log = [.added ⟨0⟩ (.unconditional (.var .x)), .added ⟨1⟩ (.unconditional (.var .t)),
      .removed ⟨0⟩, .replaced ⟨1⟩ (.unconditional (.constant 0.5)),
      .added ⟨0⟩ (.unconditional (.constant 2.0))] ∧
    log.live = [⟨1⟩, ⟨0⟩] ∧ log.spare = [] ∧ empty.peak edits ≤ UInt32.size ∧ s.Answers log := by
  intro edits s log
  have hroom : empty.peak edits ≤ UInt32.size := by decide
  exact ⟨rfl, rfl, rfl, hroom, store_answers_as_its_log hroom⟩

end Answers

end RollingBall.GraphStore
