import RollingBall.Proofs.Motion.Matching
import RollingBall.Proofs.Numbers.Double
import RollingBall.Proofs.Numbers.Order
import RollingBall.Proofs.Rounds.Reached

/-!
# Idle graphs

Some graphs leave no trace in any round: those that exist nowhere, and copies of a graph that was
added before them. The first kind offers the ball nothing. A copy makes an offer that was considered
before, and since the height of a footing never sinks, it is not above it
(`Simulator.Footing.refuses_consider`). So the landings with and without such graphs agree
(`Simulator.landing_padded`), and only graphs that were there before hold the ball.

All that is asked of the numbers is that `<` is irreflexive and transitive.

## Main definitions

* `Curve.Inert`: the curve exists nowhere.
* `Entry`: a curve of a list that others were put into; `Entry.own`, `Entry.all`, `Entry.place`.
* `Entry.Idle`: what was put in is inert or a copy of something before it.
-/

namespace RollingBall

variable {α : Type}

/-- At no moment and no coordinate does the curve have a height where its condition is met. -/
def Curve.Inert [Scalar α] (f : Curve α) : Prop :=
  ∀ ctx, Scalar.isNaN (f.eval ctx) = true ∨ f.admits ctx = false

theorem Curve.Inert.contact? [Scalar α] {f : Curve α} (h : f.Inert) (solver : ContactSolver α)
    (time : α) (pos : Point α) : f.contact? solver time pos = none := by
  unfold Curve.contact?
  dsimp only
  rw [if_pos]
  rcases h ⟨time, pos.x⟩ with hundefined | hrejected
  · rw [hundefined, Bool.true_or, Bool.true_or]
  · rw [hrejected, Bool.not_false, Bool.or_true]

/-! ## Padded lists -/

/-- A curve of a list: it was there before, or it was put in. -/
inductive Entry (α : Type) where
  | kept (f : Curve α)
  | extra (f : Curve α)

namespace Entry

/-- The curve of the entry. -/
def curve : Entry α → Curve α
  | kept f => f
  | extra f => f

/-- All curves. -/
def all (entries : List (Entry α)) : List (Curve α) := entries.map curve

/-- The curves that were there before. -/
def own : List (Entry α) → List (Curve α)
  | [] => []
  | kept f :: entries => f :: own entries
  | extra _ :: entries => own entries

/-- Where the curve that was at a place before is now. -/
def place : List (Entry α) → Nat → Nat
  | [], i => i
  | kept _ :: _, 0 => 0
  | kept _ :: entries, i + 1 => place entries i + 1
  | extra _ :: entries, i => place entries i + 1

/-- Each curve put in is inert or a copy of one that is before it. -/
def Idle [Scalar α] (entries : List (Entry α)) : Prop :=
  ∀ n f, entries[n]? = some (extra f) → f.Inert ∨ kept f ∈ entries.take n

theorem getElem?_place (entries : List (Entry α)) (i : Nat) :
    entries[place entries i]? = (own entries)[i]?.map kept := by
  induction entries generalizing i with
  | nil => rfl
  | cons entry entries ih =>
    cases entry with
    | kept f =>
      cases i with
      | zero => rfl
      | succ i => exact ih i
    | extra f => exact ih i

theorem getElem?_all_place (entries : List (Entry α)) (i : Nat) :
    (all entries)[place entries i]? = (own entries)[i]? := by
  unfold all
  rw [List.getElem?_map, getElem?_place, Option.map_map]
  exact Option.map_id'

end Entry

/-! ## Offers in vain -/

variable [Scalar α]

namespace Simulator

variable {solver : ContactSolver α} {time : α} {pos : Point α}

/-- What a curve offers is not above the footing. -/
def Footing.Refuses (footing : Footing α) (solver : ContactSolver α) (time : α) (pos : Point α)
    (f : Curve α) : Prop :=
  ∀ contact, f.contact? solver time pos = some contact → ¬ footing.height < contact

theorem Footing.Refuses.consider_eq {footing : Footing α} {f : Curve α}
    (h : footing.Refuses solver time pos f) (id : GraphId) :
    footing.consider time id (f.contact? solver time pos) = footing := by
  unfold Footing.consider
  split
  · rfl
  · rename_i contact hoffer
    exact if_neg (h contact hoffer)

theorem Footing.refuses_of_inert {f : Curve α} (h : f.Inert) (footing : Footing α) :
    footing.Refuses solver time pos f := by
  intro contact hoffer
  rw [h.contact?] at hoffer
  exact absurd hoffer (by simp)

section Order

variable [IsStrictOrder α (· < ·)]

/-- A footing refuses what it has considered. -/
theorem Footing.refuses_consider (footing : Footing α) (id : GraphId) (f : Curve α) :
    (footing.consider time id (f.contact? solver time pos)).Refuses solver time pos f := by
  intro contact hoffer
  rw [hoffer]
  unfold Footing.consider
  dsimp only
  split
  · exact Std.Irrefl.irrefl (r := (· < ·)) contact
  · assumption

/-- What was refused is refused by every later footing. -/
theorem Footing.Refuses.consider {footing : Footing α} {f : Curve α}
    (h : footing.Refuses solver time pos f) (id : GraphId) (offer : Option α) :
    (footing.consider time id offer).Refuses solver time pos f := by
  intro contact hoffer
  unfold Footing.consider
  split
  · exact h contact hoffer
  · rename_i higher
    split
    · rename_i hrises
      intro hlt
      exact h contact hoffer (IsTrans.trans _ higher _ hrises hlt)
    · exact h contact hoffer

/-- **Landings.** With idle curves among the others a ball lands as without them. What was
considered before the lists is refused by the footing, so copies of it are idle, too. -/
theorem landing_padded {Match : Option GraphId → Option GraphId → Prop}
    {entries : List (Entry α)} {graphs graphs' : List (Graph α)}
    (hall : graphs.map Graph.curve = Entry.all entries)
    (hown : graphs'.map Graph.curve = Entry.own entries) (seen : List (Entry α))
    (hidle : ∀ n f, entries[n]? = some (.extra f) → f.Inert ∨ .kept f ∈ seen ++ entries.take n)
    (hmatch : ∀ {i graph graph'}, graphs[Entry.place entries i]? = some graph →
      graphs'[i]? = some graph' → Match (some graph.id) (some graph'.id))
    {footing footing' : Footing α} (hf : footing.Matches Match footing')
    (hseen : ∀ f, .kept f ∈ seen → footing.Refuses solver time pos f) :
    (landing solver time pos graphs footing).Matches Match
      (landing solver time pos graphs' footing') := by
  induction entries generalizing graphs graphs' seen footing footing' with
  | nil =>
    obtain rfl := List.map_eq_nil_iff.mp hall
    obtain rfl := List.map_eq_nil_iff.mp hown
    exact hf
  | cons entry entries ih =>
    obtain ⟨graph, graphs, rfl, hcurve, htail⟩ := List.map_eq_cons_iff.mp hall
    rw [landing_cons, hcurve]
    cases entry with
    | kept f =>
      obtain ⟨graph', graphs', rfl, hcurve', htail'⟩ := List.map_eq_cons_iff.mp hown
      rw [landing_cons, hcurve']
      refine ih htail htail' (seen ++ [.kept f]) ?_ (fun {i} => hmatch (i := i + 1))
        (hf.consider (hmatch (i := 0) rfl rfl) _) ?_
      · intro n g hg
        rw [List.append_assoc]
        exact hidle (n + 1) g hg
      · intro g hg
        rcases List.mem_append.mp hg with hg | hg
        · exact (hseen g hg).consider _ _
        · obtain rfl : g = f := by simpa using hg
          exact Footing.refuses_consider _ _ _
    | extra f =>
      have hrefuses : footing.Refuses solver time pos f := by
        rcases hidle 0 f rfl with hinert | hcopy
        · exact Footing.refuses_of_inert hinert _
        · exact hseen f (by simpa using hcopy)
      show (landing solver time pos graphs
        (footing.consider time graph.id (f.contact? solver time pos))).Matches Match _
      rw [hrefuses.consider_eq]
      refine ih htail hown seen (fun n g hg => ?_) (fun {i} => hmatch (i := i)) hf hseen
      simpa using hidle (n + 1) g hg

end Order

end Simulator

/-! ## Rounds with idle graphs -/

section Rounds

variable [IsStrictOrder α (· < ·)]

/-- Balls on corresponding supports stay so if one store has idle graphs besides. -/
theorem lockstep_of_idle {s s' : GraphStore α} (hs : s.Accounted) (hs' : s'.Accounted)
    {entries : List (Entry α)} (hidle : Entry.Idle entries) (hall : s.curves = Entry.all entries)
    (hown : s'.curves = Entry.own entries) (solver : ContactSolver α) (start : Point α) :
    Lockstep solver s s' Simulator.supportPlace
      (fun sim => sim.supportPlace.map (Option.map (Entry.place entries))) start
      (Ball.Matches (s.Renumbered (Entry.place entries) s')) where
  start := ⟨rfl, rfl, .none⟩
  move time hball := by
    have hformulas : ∀ i, s.formulas[Entry.place entries i]? = s'.formulas[i]? := fun i => by
      rw [GraphStore.formulas, GraphStore.formulas, hall, hown, List.getElem?_map,
        List.getElem?_map, Entry.getElem?_all_place]
    refine Simulator.moveBall_matches hball .none (hball.support.formula? hformulas) ?_
    intro footing footing' hf
    have hmatch : ∀ {i graph graph'}, s.graphs[Entry.place entries i]? = some graph →
        s'.graphs[i]? = some graph' →
        s.Renumbered (Entry.place entries) s' (some graph.id) (some graph'.id) :=
      fun hgraph hgraph' =>
        .some (hs.place_of_getElem? hgraph) (hs'.place_of_getElem? hgraph')
    exact Simulator.landing_padded hall hown [] hidle hmatch hf fun f hf => absurd hf (by simp)
  pos hball := hball.pos
  lastContact hball := hball.lastContact
  support hgraphs hgraphs' hball := by
    unfold Simulator.supportPlace
    rw [hgraphs, hgraphs']
    exact hball.support.map_place

/-- **Idle graphs leave no trace.** Two simulators between rounds, of which one has idle graphs
among those of the other, show the same in every run. The graph that supports the ball is one that
both have. -/
theorem rounds_ignore_idle {level : Level α} {entries : List (Entry α)}
    (hidle : Entry.Idle entries) {sim sim' : Simulator α} (hsim : sim.Reached level)
    (hsim' : sim'.Reached level) (hstopped : sim.phase = .stopped)
    (hstopped' : sim'.phase = .stopped) (hlevel : sim.level = sim'.level)
    (hall : sim.graphs.curves = Entry.all entries) (hown : sim'.graphs.curves = Entry.own entries)
    (calls : List Control) :
    (∀ i, entries[Entry.place entries i]? = (Entry.own entries)[i]?.map .kept) ∧
      sim.watch Simulator.supportPlace calls =
        sim'.watch (fun sim => sim.supportPlace.map (Option.map (Entry.place entries))) calls := by
  refine ⟨Entry.getElem?_place entries, ?_⟩
  have hlockstep := lockstep_of_idle hsim.kept.graphs hsim'.kept.graphs hidle hall hown
    sim.solver level.start
  refine hlockstep.watch_eq (hsim.alike hsim' hstopped hstopped' ?_ hlockstep.start) calls
  intro time
  rw [hlevel]

end Rounds

/-! ## A walk with idle graphs -/

/-- A level without obstacles. -/
def lawn : Level Float := .still ⟨-1.0, 2.0⟩ ⟨3.0, 0.0⟩ []

/-- A line, one that is undefined, one whose condition is never met, a parabola, and copies of the
line and of the parabola. -/
def Entry.path : List (Entry Float) :=
  [.extra (.unconditional (.constant (0.0 / 0.0))), .kept (.unconditional (.var .x)),
    .extra ⟨.var .x, .constant false⟩, .kept (.unconditional (.binary .mul (.var .x) (.var .x))),
    .extra (.unconditional (.var .x)), .extra (.unconditional (.binary .mul (.var .x) (.var .x)))]

theorem Entry.idle_path : Idle path := by
  have hundefined : (Curve.unconditional (.constant (0.0 / 0.0)) : Curve Float).Inert :=
    fun _ => .inl (show Scalar.isNaN (0.0 / 0.0 : Float) = true by decide +kernel)
  have hrejected : (⟨.var .x, .constant false⟩ : Curve Float).Inert := fun _ => .inr rfl
  intro n f hf
  match n with
  | 0 =>
    cases hf
    exact .inl hundefined
  | 2 =>
    cases hf
    exact .inl hrejected
  | 4 =>
    cases hf
    exact .inr (.tail _ (.head _))
  | 5 =>
    cases hf
    exact .inr (.tail _ (.tail _ (.tail _ (.head _))))

/-- A simulator of the lawn with some curves. -/
def Simulator.onLawn (curves : List (Curve Float)) : Simulator Float := fresh lawn curves

theorem Simulator.onLawn_eq (curves : List (Curve Float)) :
    onLawn curves = { ofLevel lawn with graphs := .ofCurves curves } :=
  fresh_eq lawn curves

theorem rounds_ignore_idle_path :
    Entry.Idle Entry.path ∧
      (Simulator.onLawn (Entry.all Entry.path)).watch Simulator.supportPlace
          [.toggle, .tick, .tick] =
        (Simulator.onLawn (Entry.own Entry.path)).watch
          (fun sim => sim.supportPlace.map (Option.map (Entry.place Entry.path)))
          [.toggle, .tick, .tick] := by
  have hstopped : ∀ curves, (Simulator.onLawn curves).phase = .stopped := fun curves => by
    rw [Simulator.onLawn_eq]
    rfl
  have hlevel : ∀ curves, (Simulator.onLawn curves).level = lawn := fun curves => by
    rw [Simulator.onLawn_eq]
    rfl
  have hreached : ∀ curves : List (Curve Float), curves.length ≤ UInt32.size →
      (Simulator.onLawn curves).Reached lawn := fun _ => Simulator.reached_fresh lawn
  have hall := hreached (Entry.all Entry.path) (by decide)
  have hown := hreached (Entry.own Entry.path) (by decide)
  refine ⟨Entry.idle_path, ?_⟩
  exact (rounds_ignore_idle Entry.idle_path hall hown (hstopped _) (hstopped _)
    ((hlevel _).trans (hlevel _).symm) (Simulator.curves_fresh ..) (Simulator.curves_fresh ..) _).2

end RollingBall
