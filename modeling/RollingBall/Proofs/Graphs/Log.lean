import RollingBall.Proofs.Graphs.Edits

/-!
# Logs of edits

What happened to a store, as its answers tell: the log of a run holds the edits that found their
graph (`GraphStore.log`). It tells which ids are in use, free, or were ever given, and which curve
each graph has. What those edits keep is kept by a run (`GraphStore.Accounted.told_editAll`).

## Main definitions

* `GraphStore.Event`, `GraphStore.log`: what an edit changed, and what the edits of a run did.
* `Log.live`, `Log.spare`, `Log.given`, `Log.curve?`: the ids in use, free, and ever used, and the
  curve of a graph, read off a log.
-/

namespace RollingBall.GraphStore

variable {α : Type}

/-! ## Logs -/

/-- What an edit changed. -/
inductive Event (α : Type) where
  | added (id : GraphId) (curve : Curve α)
  | removed (id : GraphId)
  | replaced (id : GraphId) (curve : Curve α)

namespace Event

/-- The id that was given to a new graph. -/
def given? : Event α → Option GraphId
  | added id _ => some id
  | removed _ | replaced _ _ => none

/-- The id that was freed. -/
def freed? : Event α → Option GraphId
  | removed id => some id
  | added _ _ | replaced _ _ => none

/-- The curve that the graph with an id got. -/
def curve? (id : GraphId) : Event α → Option (Curve α)
  | added id' curve | replaced id' curve => if id' = id then some curve else none
  | removed _ => none

end Event

/-- What happened to a store, first things first. -/
abbrev Log (α : Type) : Type := List (Event α)

namespace Log

/-- The ids that events of one kind name and no later event of the other kind, in the order of the
events. -/
def standing (opens closes : Event α → Option GraphId) : Log α → List GraphId
  | [] => []
  | event :: later =>
    match opens event with
    | none => standing opens closes later
    | some id =>
      if later.any fun event => some id == closes event then standing opens closes later
      else id :: standing opens closes later

/-- The ids of the graphs added and not removed since, in the order in which they were added. -/
def live (log : Log α) : List GraphId := log.standing Event.given? Event.freed?

/-- The ids freed and not used again since, last freed first. -/
def spare (log : Log α) : List GraphId := (log.standing Event.freed? Event.given?).reverse

/-- The ids ever given to a graph. -/
def given (log : Log α) : List GraphId := log.filterMap Event.given?

/-- The curve that the graph with an id got last. -/
def curve? (log : Log α) (id : GraphId) : Option (Curve α) :=
  log.reverse.findSome? (Event.curve? id)

theorem standing_concat (opens closes : Event α → Option GraphId) (log : Log α) (event : Event α) :
    standing opens closes (log ++ [event]) =
      (standing opens closes log).filter (fun id => some id != closes event) ++
        (opens event).toList := by
  induction log with
  | nil => cases hopens : opens event <;> simp [standing, hopens]
  | cons first later ih =>
    rw [List.cons_append, standing, standing, ih]
    cases hopens : opens first with
    | none => rfl
    | some id =>
      dsimp only
      -- The last event may be the one that closes what the first one opened.
      rw [List.any_append, List.any_cons, List.any_nil, Bool.or_false]
      by_cases hlater : (later.any fun event => some id == closes event) = true
      · rw [if_pos hlater, if_pos (by rw [hlater, Bool.true_or])]
      · rw [if_neg hlater]
        by_cases hlast : some id = closes event
        · simp [hlast]
        · simp [hlater, hlast]

section Events

variable (log : Log α) (id : GraphId) (curve : Curve α)

@[simp] theorem live_added : live (log ++ [.added id curve]) = live log ++ [id] := by
  simp [live, standing_concat, Event.given?, Event.freed?]

@[simp] theorem live_removed :
    live (log ++ [.removed id]) = (live log).filter fun id' => id' != id := by
  simp only [live, standing_concat, Event.given?, Event.freed?, Option.toList_none,
    List.append_nil]
  rfl

@[simp] theorem live_replaced : live (log ++ [.replaced id curve]) = live log := by
  simp [live, standing_concat, Event.given?, Event.freed?]

@[simp] theorem spare_added :
    spare (log ++ [.added id curve]) = (spare log).filter fun id' => id' != id := by
  simp only [spare, standing_concat, Event.given?, Event.freed?, Option.toList_none,
    List.append_nil, List.filter_reverse]
  rfl

@[simp] theorem spare_removed : spare (log ++ [.removed id]) = id :: spare log := by
  simp [spare, standing_concat, Event.given?, Event.freed?]

@[simp] theorem spare_replaced : spare (log ++ [.replaced id curve]) = spare log := by
  simp [spare, standing_concat, Event.given?, Event.freed?]

@[simp] theorem given_added : given (log ++ [.added id curve]) = given log ++ [id] := by
  simp [given, Event.given?]

@[simp] theorem given_removed : given (log ++ [.removed id]) = given log := by
  simp [given, Event.given?]

@[simp] theorem given_replaced : given (log ++ [.replaced id curve]) = given log := by
  simp [given, Event.given?]

/-- The last event decides which curve a graph has, if it is about that graph's curve. -/
theorem curve?_concat (event : Event α) :
    curve? (log ++ [event]) id = (event.curve? id).or (curve? log id) := by
  unfold curve?
  rw [List.reverse_append, List.reverse_singleton, List.singleton_append, List.findSome?_cons]
  cases event.curve? id <;> rfl

end Events

end Log

/-! ## Edits in vain -/

theorem fst_remove (s : GraphStore α) (id : GraphId) : (s.remove id).1 = s.contains id := by
  unfold remove
  split
  · exact (‹s.contains id = true›).symm
  · exact (Bool.eq_false_iff.mpr ‹_›).symm

theorem fst_replace (s : GraphStore α) (id : GraphId) (curve : Curve α) :
    (s.replace id curve).1 = s.contains id := by
  unfold replace
  split
  · exact (‹s.contains id = true›).symm
  · exact (Bool.eq_false_iff.mpr ‹_›).symm

theorem remove_of_not_contains {s : GraphStore α} {id : GraphId} (h : s.contains id = false) :
    (s.remove id).2 = s := by
  unfold remove
  rw [h]
  rfl

theorem replace_of_not_contains {s : GraphStore α} {id : GraphId} (h : s.contains id = false)
    (curve : Curve α) : (s.replace id curve).2 = s := by
  unfold replace
  rw [h]
  rfl

/-! ## Runs and their logs -/

section Runs

variable [Scalar α]

/-- What the edit changes, if it finds its graph. -/
def event? (s : GraphStore α) : Edit α → Option (Event α)
  | .add curve => some (.added (s.add curve).1 curve)
  | .remove id => if (s.remove id).1 then some (.removed id) else none
  | .replace id curve => if (s.replace id curve).1 then some (.replaced id curve) else none

/-- What the edits of a run did, as the store's answers tell. -/
def log (s : GraphStore α) : List (Edit α) → Log α
  | [] => []
  | e :: edits => (s.event? e).toList ++ (s.edit e).log edits

section Induction

variable {Told : GraphStore α → Log α → Prop}
  (add : ∀ {s log} curve, s.Accounted → s.size < UInt32.size → Told s log →
    Told (s.add curve).2 (log ++ [.added (s.add curve).1 curve]))
  (remove : ∀ {s log} id, s.Accounted → s.contains id = true → Told s log →
    Told (s.remove id).2 (log ++ [.removed id]))
  (replace : ∀ {s log} id curve, s.Accounted → s.contains id = true → Told s log →
    Told (s.replace id curve).2 (log ++ [.replaced id curve]))

include add remove replace

theorem Accounted.told_edit {s : GraphStore α} {log : Log α} (hs : s.Accounted) {e : Edit α}
    (hroom : (s.edit e).size ≤ UInt32.size) (h : Told s log) :
    Told (s.edit e) (log ++ (s.event? e).toList) := by
  cases e with
  | add curve =>
    have hsize : (s.add curve).2.size ≤ UInt32.size := hroom
    rw [size_add] at hsize
    exact add curve hs hsize h
  | remove id =>
    unfold GraphStore.edit event?
    dsimp only
    rw [fst_remove]
    cases hfound : s.contains id with
    | true => exact remove id hs hfound h
    | false =>
      rw [remove_of_not_contains hfound]
      exact (List.append_nil log).symm ▸ h
  | replace id curve =>
    unfold GraphStore.edit event?
    dsimp only
    rw [fst_replace]
    cases hfound : s.contains id with
    | true => exact replace id curve hs hfound h
    | false =>
      rw [replace_of_not_contains hfound]
      exact (List.append_nil log).symm ▸ h

/-- What a log tells of a store it still tells after a run, if each edit that finds its graph keeps
it. -/
theorem Accounted.told_editAll {s : GraphStore α} {log : Log α} (hs : s.Accounted)
    {edits : List (Edit α)} (hroom : s.peak edits ≤ UInt32.size) (h : Told s log) :
    Told (s.editAll edits) (log ++ s.log edits) := by
  induction edits generalizing s log with
  | nil => exact (List.append_nil log).symm ▸ h
  | cons e edits ih =>
    have hpeak := Nat.max_le.mp hroom
    have hsize := Nat.le_trans (size_le_peak ..) hpeak.2
    rw [editAll_cons, GraphStore.log, ← List.append_assoc]
    exact ih (hs.edit hsize) hpeak.2 (hs.told_edit add remove replace hsize h)

end Induction

end Runs

end RollingBall.GraphStore
