import RollingBall.Graph

/-!
# The ids of graphs

Every id below the counter is in use or free, and none is both: `GraphStore.Accounted` says so, with
the counter being the number of ids ever used. It holds of the empty store and is kept by `add`,
`remove` and `replace` while the ids suffice, so two graphs never share an id.
-/

namespace RollingBall.GraphStore

variable {α : Type}

/-- The ids in use, in the order of the graphs. -/
def ids (s : GraphStore α) : List UInt32 := s.graphs.map fun graph => graph.id.value

/-- The curves, in the order of the graphs. -/
def curves (s : GraphStore α) : List (Curve α) := s.graphs.map Graph.curve

/-- Every id ever used is in use or free, but not both, and the counter counts them. -/
structure Accounted (s : GraphStore α) : Prop where
  nodup : (s.ids ++ s.recycled).Nodup
  below : ∀ id ∈ s.ids ++ s.recycled, id.toNat < (s.ids ++ s.recycled).length
  counter : s.nextId = UInt32.ofNat (s.ids ++ s.recycled).length
  enough : (s.ids ++ s.recycled).length ≤ UInt32.size

theorem accounted_empty : (empty : GraphStore α).Accounted where
  nodup := List.nodup_nil
  below _ hid := absurd hid List.not_mem_nil
  counter := rfl
  enough := Nat.zero_le _

/-- Only which ids are used or free matters, not their order. -/
theorem Accounted.of_perm {s s' : GraphStore α} (h : s.Accounted)
    (hperm : (s.ids ++ s.recycled).Perm (s'.ids ++ s'.recycled)) (hnext : s'.nextId = s.nextId) :
    s'.Accounted where
  nodup := hperm.nodup_iff.mp h.nodup
  below id hid := by
    rw [← hperm.length_eq]
    exact h.below id (hperm.mem_iff.mpr hid)
  counter := by rw [hnext, h.counter, hperm.length_eq]
  enough := hperm.length_eq ▸ h.enough

section Next

variable {s s' : GraphStore α} (h : s.Accounted)
  (hroom : (s.ids ++ s.recycled).length < UInt32.size)

include h hroom

theorem Accounted.toNat_nextId : s.nextId.toNat = (s.ids ++ s.recycled).length := by
  rw [h.counter]
  exact UInt32.toNat_ofNat_of_lt hroom

theorem Accounted.nextId_not_mem : s.nextId ∉ s.ids ++ s.recycled := by
  intro hmem
  have hlt := h.below _ hmem
  rw [h.toNat_nextId hroom] at hlt
  exact Nat.lt_irrefl _ hlt

/-- The id at the counter may be used if the counter moves on. -/
theorem Accounted.of_next (hperm : (s'.ids ++ s'.recycled).Perm (s.nextId :: (s.ids ++ s.recycled)))
    (hnext : s'.nextId = s.nextId + 1) : s'.Accounted where
  nodup := hperm.nodup_iff.mpr (List.nodup_cons.mpr ⟨h.nextId_not_mem hroom, h.nodup⟩)
  below id hid := by
    rw [hperm.length_eq, List.length_cons]
    rcases List.mem_cons.mp (hperm.mem_iff.mp hid) with rfl | hid
    · rw [h.toNat_nextId hroom]
      exact Nat.lt_succ_self _
    · exact Nat.lt_succ_of_lt (h.below id hid)
  counter := by
    rw [hperm.length_eq, List.length_cons, hnext, UInt32.ofNat_add, ← h.counter]
    rfl
  enough := by
    rw [hperm.length_eq]
    exact hroom

end Next

theorem length_ids (s : GraphStore α) : s.ids.length = s.size := List.length_map ..

theorem length_curves (s : GraphStore α) : s.curves.length = s.size := List.length_map ..

theorem Accounted.length_curves_le {s : GraphStore α} (h : s.Accounted) :
    s.curves.length ≤ UInt32.size := by
  have henough := h.enough
  rw [List.length_append, length_ids] at henough
  rw [length_curves]
  omega

/-! ## Adding -/

section Add

variable [Scalar α]

theorem curves_add (s : GraphStore α) (curve : Curve α) :
    (s.add curve).2.curves = s.curves ++ [curve] := by
  unfold add takeId curves
  cases s.recycled with
  | nil => simp
  | cons id recycled => simp

theorem size_add (s : GraphStore α) (curve : Curve α) : (s.add curve).2.size = s.size + 1 := by
  rw [← length_curves, curves_add, List.length_append, length_curves, List.length_singleton]

theorem add_of_recycled {s : GraphStore α} {id : UInt32} {recycled : List UInt32}
    (h : s.recycled = id :: recycled) (curve : Curve α) :
    (s.add curve).2.ids = s.ids ++ [id] ∧ (s.add curve).2.recycled = recycled ∧
      (s.add curve).2.nextId = s.nextId := by
  unfold add takeId ids
  simp [h]

theorem add_of_none_recycled {s : GraphStore α} (h : s.recycled = []) (curve : Curve α) :
    (s.add curve).2.ids = s.ids ++ [s.nextId] ∧ (s.add curve).2.recycled = [] ∧
      (s.add curve).2.nextId = s.nextId + 1 := by
  unfold add takeId ids
  simp [h]

theorem Accounted.add {s : GraphStore α} (h : s.Accounted) (hsize : s.size < UInt32.size)
    (curve : Curve α) : (s.add curve).2.Accounted := by
  cases hrecycled : s.recycled with
  | cons id recycled =>
    obtain ⟨hids, hfree, hnext⟩ := add_of_recycled hrecycled curve
    refine h.of_perm ?_ hnext
    rw [hids, hfree, hrecycled, List.append_assoc, List.singleton_append]
  | nil =>
    obtain ⟨hids, hfree, hnext⟩ := add_of_none_recycled hrecycled curve
    refine h.of_next ?_ ?_ hnext
    · rw [hrecycled, List.append_nil, length_ids]
      exact hsize
    · rw [hids, hfree, hrecycled, List.append_nil, List.append_nil]
      exact List.perm_append_singleton ..

/-- The store with some curves added one after another. -/
def ofCurves (curves : List (Curve α)) : GraphStore α :=
  curves.foldl (fun s curve => (s.add curve).2) empty

theorem curves_foldl_add (s : GraphStore α) (curves : List (Curve α)) :
    (curves.foldl (fun s curve => (s.add curve).2) s).curves = s.curves ++ curves := by
  induction curves generalizing s with
  | nil => exact (List.append_nil _).symm
  | cons curve curves ih =>
    rw [List.foldl_cons, ih, curves_add, List.append_assoc, List.singleton_append]

theorem curves_ofCurves (curves : List (Curve α)) : (ofCurves curves).curves = curves :=
  curves_foldl_add empty curves

end Add

/-! ## Removing and replacing -/

theorem map_id_putCurve (id : GraphId) (curve : Curve α) (graphs : List (Graph α)) :
    (putCurve id curve graphs).map Graph.id = graphs.map Graph.id := by
  induction graphs with
  | nil => rfl
  | cons graph graphs ih =>
    unfold putCurve
    split
    · rfl
    · rw [List.map_cons, List.map_cons, ih]

/-- The ids stay with the graphs. -/
theorem map_id_replace (s : GraphStore α) (id : GraphId) (curve : Curve α) :
    (s.replace id curve).2.graphs.map Graph.id = s.graphs.map Graph.id := by
  unfold GraphStore.replace
  split
  · exact map_id_putCurve id curve s.graphs
  · rfl

theorem ids_replace (s : GraphStore α) (id : GraphId) (curve : Curve α) :
    (s.replace id curve).2.ids = s.ids := by
  have hmap : ∀ s : GraphStore α, s.ids = (s.graphs.map Graph.id).map GraphId.value :=
    fun _ => List.map_map.symm
  rw [hmap, hmap, map_id_replace]

theorem recycled_replace (s : GraphStore α) (id : GraphId) (curve : Curve α) :
    (s.replace id curve).2.recycled = s.recycled := by
  unfold GraphStore.replace
  split <;> rfl

theorem nextId_replace (s : GraphStore α) (id : GraphId) (curve : Curve α) :
    (s.replace id curve).2.nextId = s.nextId := by
  unfold GraphStore.replace
  split <;> rfl

theorem Accounted.replace {s : GraphStore α} (h : s.Accounted) (id : GraphId) (curve : Curve α) :
    (s.replace id curve).2.Accounted := by
  refine h.of_perm ?_ (nextId_replace s id curve)
  rw [ids_replace, recycled_replace]

/-- A removed graph leaves its id to the free ones. -/
theorem perm_remove (s : GraphStore α) (id : GraphId) :
    (s.ids ++ s.recycled).Perm ((s.remove id).2.ids ++ (s.remove id).2.recycled) := by
  unfold GraphStore.remove
  split
  · rename_i hcontains
    obtain ⟨graph, hmem, hid⟩ := List.any_eq_true.mp hcontains
    obtain ⟨found, before, after, -, hfound, hsplit, herase⟩ :=
      List.exists_of_eraseP (p := fun graph => decide (graph.id = id)) hmem hid
    obtain rfl : found.id = id := of_decide_eq_true hfound
    unfold ids
    dsimp only
    rw [herase, hsplit, List.map_append, List.map_cons, List.map_append, List.append_assoc,
      List.cons_append]
    refine List.perm_middle.trans ?_
    rw [← List.append_assoc]
    exact List.perm_middle.symm
  · exact List.Perm.refl _

theorem nextId_remove (s : GraphStore α) (id : GraphId) :
    (s.remove id).2.nextId = s.nextId := by
  unfold GraphStore.remove
  split <;> rfl

theorem Accounted.remove {s : GraphStore α} (h : s.Accounted) (id : GraphId) :
    (s.remove id).2.Accounted :=
  h.of_perm (perm_remove s id) (nextId_remove s id)

end RollingBall.GraphStore
