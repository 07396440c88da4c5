import Mathlib.Data.Nat.Notation
import Mathlib.Logic.Function.Iterate

/-!
# Observed runs of a deterministic machine

A machine advances by `next` and may at any point take a silent move `resume`. A run
records, in order, the states from which it advanced. `ok` is a condition every such
state has to meet, so a run with a stronger `ok` is a run under an assumption on its
steps.

Two induction rules come with it: `Run.invariant` for properties of the current state and
`Run.historical` for properties that relate it to the recorded states. `Run.exists_done`
is the converse for progress: a rank that falls until a goal is met yields a run that
meets it, and a bound on the rank says how often (`Run.length_add_rank_le`). Where the silent
move changes nothing that can be seen, a run is seen as the iteration of `next`
(`Run.obs_eq_iterate`), so its length fixes all that can be seen of it.

## Stuttering simulation

A reference machine with the step function `step` explains a run of an observed machine if
each advance of the observed machine is matched by one step of the reference machine or by
none. `Simulates` is that condition for a relation that may look at the recorded states;
`Simulates.of_run` carries it over whole runs. The reference machine is deterministic, so it
settles in one state at most (`settled_unique`): two observed machines explained by the same
reference run, each until it has settled, end in related states.

## Main results

* `Run.invariant`, `Run.historical` — the two induction rules;
* `Run.obs_eq_iterate` — a run is seen as the iteration of `next`;
* `Run.exists_done`, `Run.length_add_rank_le` — progress, and its rate;
* `Simulates.of_run` — a simulated run follows the reference machine.
-/

namespace ObservedRun

variable {σ : Type*} {next resume : σ → σ} {ok : σ → Prop} {start : σ}

/-- `Run next resume ok start visited s`: from `start` the machine reaches `s`, advancing
from the states `visited`, all of which satisfy `ok`. -/
inductive Run (next resume : σ → σ) (ok : σ → Prop) (start : σ) : List σ → σ → Prop
  | refl : Run next resume ok start [] start
  | next {visited : List σ} {s : σ} :
      Run next resume ok start visited s → ok s →
        Run next resume ok start (visited ++ [s]) (next s)
  | resume {visited : List σ} {s : σ} :
      Run next resume ok start visited s → Run next resume ok start visited (resume s)

/-- Every state a run advanced from met the condition. -/
theorem Run.ok_of_mem {visited : List σ} {s : σ} (h : Run next resume ok start visited s) :
    ∀ t ∈ visited, ok t := by
  induction h with
  | refl => simp
  | next _ hok ih =>
      intro t ht
      rcases List.mem_append.mp ht with ht | ht
      · exact ih t ht
      · obtain rfl := List.mem_singleton.mp ht
        exact hok
  | resume _ ih => exact ih

/-- A run is one under any condition that the recorded states meet. -/
theorem Run.restrict {ok' : σ → Prop} {visited : List σ} {s : σ}
    (h : Run next resume ok start visited s) (hok : ∀ t ∈ visited, ok' t) :
    Run next resume ok' start visited s := by
  induction h with
  | refl => exact .refl
  | next _ _ ih =>
      refine .next (ih fun t ht => hok t (List.mem_append_left _ ht)) ?_
      exact hok _ (List.mem_append_right _ (List.mem_singleton.mpr rfl))
  | resume _ ih => exact .resume (ih hok)

/-- A run under a condition is a run under every weaker one. -/
theorem Run.mono {ok' : σ → Prop} (hok : ∀ s, ok s → ok' s) {visited : List σ} {s : σ}
    (h : Run next resume ok start visited s) : Run next resume ok' start visited s :=
  h.restrict fun t ht => hok t (h.ok_of_mem t ht)

/-- **Invariant rule.** What holds at the start and is preserved by both moves holds in
every state of a run. -/
theorem Run.invariant (Inv : σ → Prop) (hstart : Inv start)
    (hnext : ∀ s, Inv s → ok s → Inv (next s)) (hresume : ∀ s, Inv s → Inv (resume s))
    {visited : List σ} {s : σ} (h : Run next resume ok start visited s) :
    Inv s ∧ ∀ t ∈ visited, Inv t := by
  induction h with
  | refl => exact ⟨hstart, by simp⟩
  | next _ hok ih =>
      refine ⟨hnext _ ih.1 hok, fun t ht => ?_⟩
      rcases List.mem_append.mp ht with ht | ht
      · exact ih.2 t ht
      · obtain rfl := List.mem_singleton.mp ht
        exact ih.1
  | resume _ ih => exact ⟨hresume _ ih.1, ih.2⟩

/-- **Historical rule.** The same for a property of the recorded states together with the
current one. -/
theorem Run.historical (Inv : List σ → σ → Prop) (hstart : Inv [] start)
    (hnext : ∀ visited s, Inv visited s → ok s → Inv (visited ++ [s]) (next s))
    (hresume : ∀ visited s, Inv visited s → Inv visited (resume s))
    {visited : List σ} {s : σ} (h : Run next resume ok start visited s) : Inv visited s := by
  induction h with
  | refl => exact hstart
  | next _ hok ih => exact hnext _ _ ih hok
  | resume _ ih => exact hresume _ _ ih

/-- Runs compose. -/
theorem Run.trans {mid s : σ} {visited visited' : List σ}
    (h : Run next resume ok start visited mid) (h' : Run next resume ok mid visited' s) :
    Run next resume ok start (visited ++ visited') s := by
  induction h' with
  | refl => simpa using h
  | next _ hok ih =>
      rw [← List.append_assoc]
      exact .next ih hok
  | resume _ ih => exact .resume ih

/-- A run can be cut at any state it advanced from. -/
theorem Run.split {before after : List σ} {t s : σ}
    (h : Run next resume ok start (before ++ t :: after) s) :
    Run next resume ok start before t ∧ ok t ∧ Run next resume ok (next t) after s := by
  generalize hvisited : before ++ t :: after = visited at h
  induction h generalizing after with
  | refl => simp at hvisited
  | @next visited u hrun hok ih =>
      rcases List.eq_nil_or_concat after with rfl | ⟨after', v, rfl⟩
      · obtain ⟨rfl, hv⟩ := List.append_inj' hvisited rfl
        obtain rfl : t = u := by simpa using hv
        exact ⟨hrun, hok, .refl⟩
      · have hcut : (before ++ t :: after') ++ [v] = visited ++ [u] := by
          simpa using hvisited
        obtain ⟨hcons, hv⟩ := List.append_inj' hcut rfl
        obtain rfl : v = u := by simpa using hv
        obtain ⟨hbefore, ht, hafter⟩ := ih hcons
        exact ⟨hbefore, ht, by simpa using hafter.next hok⟩
  | resume _ ih =>
      obtain ⟨hbefore, ht, hafter⟩ := ih hvisited
      exact ⟨hbefore, ht, hafter.resume⟩

/-- Every state that a run advanced from or has come to was reached by a run. -/
theorem Run.exists_prefix {visited : List σ} {s t : σ}
    (h : Run next resume ok start visited s) (ht : t ∈ visited ++ [s]) :
    ∃ before, Run next resume ok start before t := by
  rcases List.mem_append.mp ht with ht | ht
  · obtain ⟨before, after, rfl⟩ := List.append_of_mem ht
    exact ⟨before, h.split.1⟩
  · obtain rfl := List.mem_singleton.mp ht
    exact ⟨visited, h⟩

/-- **Determinacy.** A silent move that `obs` does not see, and steps that `obs` sees alike
from states it sees alike: then a run is seen as the iteration of `next`. -/
theorem Run.obs_eq_iterate {β : Type*} (obs : σ → β)
    (hnext : ∀ s t, obs s = obs t → obs (next s) = obs (next t))
    (hresume : ∀ s, obs (resume s) = obs s) {visited : List σ} {s : σ}
    (h : Run next resume ok start visited s) :
    obs s = obs (next^[visited.length] start) ∧
      visited.map obs = (List.range visited.length).map fun k => obs (next^[k] start) := by
  induction h with
  | refl => exact ⟨rfl, rfl⟩
  | @next visited s _ _ ih =>
      rw [List.length_append, List.length_singleton, List.range_succ, List.map_append,
        List.map_append, ih.2, Function.iterate_succ_apply']
      exact ⟨hnext _ _ ih.1, congrArg (_ ++ [·]) ih.1⟩
  | resume _ ih => exact ⟨(hresume _).trans ih.1, ih.2⟩

/-- **Progress rule.** If every step short of the goal keeps the invariant and lowers a
well-founded rank, some run meets the goal, and only its last state does. -/
theorem Run.exists_done {β : Type*} {r : β → β → Prop} (hwf : WellFounded r) (rank : σ → β)
    (Inv done : σ → Prop)
    (hstep : ∀ s, Inv s → ¬ done s → ok s ∧ Inv (next s) ∧ r (rank (next s)) (rank s))
    (s : σ) (h : Inv s) :
    ∃ visited t, Run next resume ok s visited t ∧ Inv t ∧ done t ∧ ∀ u ∈ visited, ¬ done u := by
  induction hrank : rank s using hwf.induction generalizing s with
  | _ b ih =>
      by_cases hdone : done s
      · exact ⟨[], s, .refl, h, hdone, by simp⟩
      · obtain ⟨hok, hnext, hless⟩ := hstep s h hdone
        obtain ⟨visited, t, hrun, hinv, ht, hbefore⟩ :=
          ih (rank (next s)) (hrank ▸ hless) (next s) hnext rfl
        have hfirst : Run next resume ok s [s] (next s) := .next .refl hok
        refine ⟨s :: visited, t, hfirst.trans hrun, hinv, ht, fun u hu => ?_⟩
        rcases List.mem_cons.mp hu with rfl | hu
        · exact hdone
        · exact hbefore u hu

/-- **Rate rule.** A rank that is at most `bound`, is kept by the silent move and falls with
every advance from a state that is not `done` makes a run of `n` advances pass about
`n / (bound + 1)` states that are. -/
theorem Run.length_add_rank_le (Inv : σ → Prop) (rank : σ → ℕ) (bound : ℕ) (done : σ → Bool)
    (hnext : ∀ s, Inv s → Inv (next s)) (hresume : ∀ s, Inv s → Inv (resume s))
    (hfall : ∀ s, Inv s → done s = false → rank (next s) < rank s)
    (hkeep : ∀ s, rank (resume s) = rank s) (hbound : ∀ s, Inv s → rank s ≤ bound)
    {visited : List σ} {s : σ} (hstart : Inv start) (h : Run next resume ok start visited s) :
    visited.length + rank s ≤ rank start + (bound + 1) * visited.countP done := by
  refine (h.historical (fun visited s => Inv s ∧
    visited.length + rank s ≤ rank start + (bound + 1) * visited.countP done)
    ⟨hstart, by simp⟩ ?_ ?_).2
  · rintro visited s ⟨hinv, hle⟩ -
    refine ⟨hnext s hinv, ?_⟩
    rw [List.length_append, List.length_singleton]
    cases hdone : done s
    · have hcount : (visited ++ [s]).countP done = visited.countP done := by simp [hdone]
      have hless := hfall s hinv hdone
      rw [hcount]
      omega
    · have hcount : (visited ++ [s]).countP done = visited.countP done + 1 := by simp [hdone]
      have hmost := hbound (next s) (hnext s hinv)
      rw [hcount, Nat.mul_add]
      omega
  · rintro visited s ⟨hinv, hle⟩
    exact ⟨hresume s hinv, by rw [hkeep]; exact hle⟩

/-- A run longer than the bound passes a state that is `done`. -/
theorem Run.exists_done_of_length (Inv : σ → Prop) (rank : σ → ℕ) (bound : ℕ) (done : σ → Bool)
    (hnext : ∀ s, Inv s → Inv (next s)) (hresume : ∀ s, Inv s → Inv (resume s))
    (hfall : ∀ s, Inv s → done s = false → rank (next s) < rank s)
    (hkeep : ∀ s, rank (resume s) = rank s) (hbound : ∀ s, Inv s → rank s ≤ bound)
    {visited : List σ} {s : σ} (hstart : Inv start) (h : Run next resume ok start visited s)
    (hlength : bound < visited.length) : ∃ t ∈ visited, done t = true := by
  have hle := h.length_add_rank_le Inv rank bound done hnext hresume hfall hkeep hbound hstart
  have hmost := hbound start hstart
  by_contra hnone
  have hzero : visited.countP done = 0 :=
    List.countP_eq_zero.mpr fun t ht hdone => hnone ⟨t, ht, hdone⟩
  rw [hzero] at hle
  omega

/-- A run that passes a state with a property passes a first one. -/
theorem Run.exists_first {P : σ → Prop} {visited : List σ} {s u : σ}
    (h : Run next resume ok start visited s) (hu : u ∈ visited) (hP : P u) :
    ∃ before t, Run next resume (fun v => ok v ∧ ¬ P v) start before t ∧ P t := by
  have hcases : (∃ before t, Run next resume (fun v => ok v ∧ ¬ P v) start before t ∧ P t) ∨
      Run next resume (fun v => ok v ∧ ¬ P v) start visited s := by
    clear hu
    induction h with
    | refl => exact .inr .refl
    | @next visited t hrun hok ih =>
        rcases ih with hfirst | hrest
        · exact .inl hfirst
        · by_cases ht : P t
          · exact .inl ⟨visited, t, hrest, ht⟩
          · exact .inr (hrest.next ⟨hok, ht⟩)
    | resume _ ih => exact ih.imp_right .resume
  rcases hcases with hfirst | hrest
  · exact hfirst
  · exact absurd hP (hrest.ok_of_mem u hu).2

/-! ### Stuttering simulation -/

section Stutter

variable {τ : Type*} {step : τ → τ}

/-- `Rel visited s q`: the reference state `q` explains the state `s` reached by advancing
from `visited`. Advances are matched by at most one step, silent moves by none. -/
structure Simulates (next resume : σ → σ) (ok : σ → Prop) (step : τ → τ)
    (Rel : List σ → σ → τ → Prop) : Prop where
  next : ∀ visited s q, Rel visited s q → ok s →
    Rel (visited ++ [s]) (next s) q ∨ Rel (visited ++ [s]) (next s) (step q)
  resume : ∀ visited s q, Rel visited s q → Rel visited (resume s) q

/-- **Simulation rule.** A simulated run follows the run of the reference machine. -/
theorem Simulates.of_run {Rel : List σ → σ → τ → Prop} (h : Simulates next resume ok step Rel)
    {q : τ} (hstart : Rel [] start q) {visited : List σ} {s : σ}
    (hrun : Run next resume ok start visited s) : ∃ k, Rel visited s (step^[k] q) := by
  refine hrun.historical (fun visited s => ∃ k, Rel visited s (step^[k] q)) ⟨0, hstart⟩ ?_ ?_
  · rintro visited s ⟨k, hrel⟩ hok
    rcases h.next visited s _ hrel hok with hstay | hstep
    · exact ⟨k, hstay⟩
    · refine ⟨k + 1, ?_⟩
      rw [Function.iterate_succ_apply']
      exact hstep
  · rintro visited s ⟨k, hrel⟩
    exact ⟨k, h.resume visited s _ hrel⟩

/-- A machine settles in one state at most. -/
theorem settled_unique {q : τ} {k l : ℕ} (hk : step (step^[k] q) = step^[k] q)
    (hl : step (step^[l] q) = step^[l] q) : step^[k] q = step^[l] q := by
  rcases Nat.le_total k l with hle | hle
  · obtain ⟨n, rfl⟩ := Nat.exists_eq_add_of_le hle
    rw [Nat.add_comm, Function.iterate_add_apply, Function.iterate_fixed hk]
  · obtain ⟨n, rfl⟩ := Nat.exists_eq_add_of_le hle
    rw [Nat.add_comm, Function.iterate_add_apply, Function.iterate_fixed hl]

end Stutter

end ObservedRun
