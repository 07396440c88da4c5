import RvPipeSim.Exceptions

/-!
# How long a run waits

The cycles between two calls of `runCycles` are the same as without the calls: `cycle` does
not look at the miss state parked in the caches. So a run is seen as the iteration of
`cycle`, and what a run does after `k` cycles is what the `k`-th iterate does
(`run_eq_iterate`, `forall_run_iff`).

On the data side the iterates are easy to follow. A frozen cycle holds the slots and takes
one cycle off `dataLeft`; the cycle that thaws the pipeline brings the instruction in EX to
MEM, and whether it misses there is known before (`exMisses`).

## Main results

* `run_eq_iterate`, `forall_run_iff` — a run is seen as the iteration of `cycle`;
* `freeze_iterate` — a freeze lasts `dataLeft` cycles, and holds the slots;
* `dataLeft_cycle_of_moving` — the thaw brings the instruction in EX to MEM.
-/

namespace RvPipeSim

open Simulator ObservedRun

namespace LoopState

/-! ### The parked miss state is not looked at -/

/-- A state with other miss states parked in its caches. -/
def park (data inst : Bool × ℕ) (s : LoopState) : LoopState :=
  { s with
    dCache := { s.dCache with fetchMiss := data.1, fetchStalls := data.2 }
    iCache := { s.iCache with fetchMiss := inst.1, fetchStalls := inst.2 } }

section Park

variable (data inst : Bool × ℕ) (s : LoopState)

/-- Entering `runCycles` again stores the miss state of the loop in the caches, and that is
parking it. -/
theorem reenter_eq_park :
    reenter s = park (s.dataFetchMiss, s.dataMissStalls) (s.instFetchMiss, s.instMissStalls) s :=
  rfl

/-- What was parked before is overwritten when `runCycles` is entered again. -/
theorem reenter_park : reenter (park data inst s) = reenter s := rfl

/-- Entering twice without a cycle is entering once. -/
theorem reenter_reenter : reenter (reenter s) = reenter s := rfl

/-- The D-cache access does not look at the parked miss state. -/
theorem accessDCache_park : accessDCache (park data inst s) = park data inst (accessDCache s) := by
  rw [accessDCache_eq s, apply_ite (park data inst), apply_ite (park data inst),
    apply_ite (park data inst)]
  rfl

/-- The I-cache access does not look at the parked miss state. -/
theorem accessICache_park (stall : Bool) :
    accessICache stall (park data inst s) = park data inst (accessICache stall s) := by
  rw [accessICache, accessICache, apply_ite (park data inst), apply_ite (park data inst),
    apply_ite (park data inst)]
  rfl

/-- The hazard detection does not look at the parked miss state. -/
theorem detect_park : detect (park data inst s) = park data inst (detect s) := by
  rw [detect, detect, accessDCache_park, ← accessICache_park]
  rfl

/-- Moving the pipeline does not look at the parked miss state. -/
theorem advance_park (fault : Fault) (illegalExc stall : Bool) :
    advance fault illegalExc stall (park data inst s) =
      park data inst (advance fault illegalExc stall s) := by
  rw [advance, advance]
  rfl

/-- Counting the misses down works on the state of the loop, not on the parked one. -/
theorem expireMisses_park :
    expireMisses (park data inst s) = park data inst (expireMisses s) := by
  have hexpire : ∀ iLast dLast : ℕ,
      { park data inst s with
        instMissStalls := if s.instMissStalls ≥ iLast then 0 else s.instMissStalls
        instFetchMiss := if s.instMissStalls ≥ iLast then false else s.instFetchMiss
        dataMissStalls := if s.dataMissStalls ≥ dLast then 0 else s.dataMissStalls
        dataFetchMiss := if s.dataMissStalls ≥ dLast then false else s.dataFetchMiss } =
      park data inst { s with
        instMissStalls := if s.instMissStalls ≥ iLast then 0 else s.instMissStalls
        instFetchMiss := if s.instMissStalls ≥ iLast then false else s.instFetchMiss
        dataMissStalls := if s.dataMissStalls ≥ dLast then 0 else s.dataMissStalls
        dataFetchMiss := if s.dataMissStalls ≥ dLast then false else s.dataFetchMiss } :=
    fun _ _ => rfl
  exact hexpire _ _

/-- A whole cycle does not look at the parked miss state, and leaves it as it was. -/
theorem cycle_park (fault : Fault) :
    cycle fault (park data inst s) = park data inst (cycle fault s) := by
  have hcycle : cycle fault (park data inst s) =
      { expireMisses (advance fault s.excepted s.stalled (detect (park data inst s))) with
        cycleCount := (expireMisses (advance fault s.excepted s.stalled
          (detect (park data inst s)))).cycleCount + 1 } := rfl
  rw [hcycle, detect_park, advance_park, expireMisses_park]
  rfl

end Park

/-! ### A run is seen as an iteration -/

variable {fault : Fault} {ok : LoopState → Prop} {s t u : LoopState} {visited : List LoopState}

/-- States that differ in parked miss states only go on alike. -/
theorem reenter_cycle_congr (h : reenter t = reenter u) :
    reenter (cycle fault t) = reenter (cycle fault u) := by
  have hpark : ∀ s, reenter (cycle fault s) = reenter (cycle fault (reenter s)) := fun s => by
    rw [reenter_eq_park s, cycle_park, reenter_park]
  rw [hpark t, hpark u, h]

/-- What does not depend on the parked miss states is the same in such states. -/
theorem congr_reenter {α : Sort*} {f : LoopState → α} (hf : ∀ s, f (reenter s) = f s)
    (h : reenter t = reenter u) : f t = f u := by
  rw [← hf t, h, hf u]

/-- A run comes to the iterate of its length. -/
theorem run_eq_iterate (hrun : RunFrom fault ok s visited t) :
    reenter t = reenter ((cycle fault)^[visited.length] s) :=
  (Run.obs_eq_iterate reenter (fun _ _ h => reenter_cycle_congr h) reenter_reenter hrun).1

/-- A run passes the iterates below its length. -/
theorem visited_eq_iterate (hrun : RunFrom fault ok s visited t) :
    visited.map reenter =
      (List.range visited.length).map fun k => reenter ((cycle fault)^[k] s) :=
  (Run.obs_eq_iterate reenter (fun _ _ h => reenter_cycle_congr h) reenter_reenter hrun).2

/-- A run passes every iterate below its length, up to parked miss states. -/
theorem exists_visited (hrun : RunFrom fault ok s visited t) {k : ℕ} (hk : k < visited.length) :
    ∃ u ∈ visited, reenter u = reenter ((cycle fault)^[k] s) := by
  have hmem : reenter ((cycle fault)^[k] s) ∈ visited.map reenter := by
    rw [visited_eq_iterate hrun]
    exact List.mem_map.mpr ⟨k, List.mem_range.mpr hk, rfl⟩
  obtain ⟨u, hu, heq⟩ := List.mem_map.mp hmem
  exact ⟨u, hu, heq⟩

/-- A run passes nothing else. -/
theorem exists_iterate (hrun : RunFrom fault ok s visited t) (hu : u ∈ visited) :
    ∃ k < visited.length, reenter u = reenter ((cycle fault)^[k] s) := by
  have hmem : reenter u ∈ visited.map reenter := List.mem_map.mpr ⟨u, hu, rfl⟩
  rw [visited_eq_iterate hrun] at hmem
  obtain ⟨k, hk, heq⟩ := List.mem_map.mp hmem
  exact ⟨k, List.mem_range.mp hk, heq.symm⟩

/-- What is seen of a run is what is seen of its iterates. -/
theorem map_visited {α : Type*} {f : LoopState → α} (hf : ∀ s, f (reenter s) = f s)
    (hrun : RunFrom fault ok s visited t) :
    visited.map f = (List.range visited.length).map fun k => f ((cycle fault)^[k] s) := by
  have hparked : f ∘ reenter = f := funext hf
  calc visited.map f = (visited.map reenter).map f := by rw [List.map_map, hparked]
    _ = _ := by
      rw [visited_eq_iterate hrun, List.map_map]
      exact congrArg (List.map · _) (funext fun _ => hf _)

/-- A run counts what its iterates count. -/
theorem countP_visited {p : LoopState → Bool} (hp : ∀ s, p (reenter s) = p s)
    (hrun : RunFrom fault ok s visited t) :
    visited.countP p =
      (List.range visited.length).countP fun k => p ((cycle fault)^[k] s) := by
  have hcount : ∀ {β : Type} (l : List β) (q : β → Bool), l.countP q = (l.map q).countP id :=
    fun l q => by rw [List.countP_map, Function.id_comp]
  rw [hcount, map_visited hp hrun, ← hcount]

/-- To speak about all continuations is to speak about the iterates. -/
theorem forall_run_iff {P : ℕ → LoopState → Prop} (hP : ∀ k s, P k (reenter s) = P k s) :
    (∀ visited t, RunFrom fault anyCycle s visited t → P visited.length t) ↔
      ∀ k, P k ((cycle fault)^[k] s) := by
  constructor
  · intro h k
    have hk := h _ _ (run_iterate (n := k) fun _ _ => trivial)
    rwa [List.length_map, List.length_range] at hk
  · intro h visited t hrun
    rw [congr_reenter (hP _) (run_eq_iterate hrun)]
    exact h _

/-! ### What is seen of a state -/

/-- A cycle fills the slots alike whether `runCycles` was entered again before it or not. -/
theorem pipelineInfo_cycle_reenter (s : LoopState) :
    (cycle fault (reenter s)).pipelineInfo = (cycle fault s).pipelineInfo :=
  congr_reenter (f := fun u => u.pipelineInfo) (fun _ => rfl)
    (reenter_cycle_congr (reenter_reenter s))

/-- Freezing is seen alike. -/
theorem frozen_reenter (s : LoopState) : (reenter s).frozen = s.frozen := by
  rw [reenter_eq_park, frozen, detect_park]
  rfl

/-- A pending instruction miss is seen alike. -/
theorem starved_reenter (s : LoopState) : (reenter s).starved = s.starved := by
  rw [reenter_eq_park, starved, detect_park]
  rfl

/-- The call of WB is seen alike. -/
theorem wbCall_reenter (s : LoopState) : (reenter s).wbCall = s.wbCall := by
  rw [wbCall, frozen_reenter]
  rfl

/-- The call of MEM is seen alike. -/
theorem memCall_reenter (s : LoopState) : (reenter s).memCall = s.memCall := by
  rw [memCall, exForwarded, frozen_reenter]
  rfl

/-- What ID holds after forwarding is seen alike. -/
theorem idForwarded_reenter (s : LoopState) : (reenter s).idForwarded = s.idForwarded := by
  rw [idForwarded, exForwarded, frozen_reenter]
  rfl

/-- The call of EX is seen alike. -/
theorem exCall_reenter (s : LoopState) : (reenter s).exCall = s.exCall := by
  rw [exCall, frozen_reenter, idForwarded_reenter]
  rfl

/-- The call of ID is seen alike. -/
theorem idCall_reenter (s : LoopState) : (reenter s).idCall = s.idCall := by
  rw [idCall, frozen_reenter, starved_reenter]
  rfl

/-! ### A frozen pipeline -/

/-- MEM and EX hold what they held, and ID holds the same instruction; forwarding may have
overwritten its operands. -/
structure Held (s t : LoopState) : Prop where
  mem : t.memInst = s.memInst
  ex : t.exInst = s.exInst
  id : ∃ op1Val op2Val, t.idInst = { s.idInst with op1Val := op1Val, op2Val := op2Val }

/-- No cycle, no change. -/
theorem Held.refl (s : LoopState) : Held s s := ⟨rfl, rfl, s.idInst.op1Val, s.idInst.op2Val, rfl⟩

/-- What is held over two stretches is held over both. -/
theorem Held.trans (h : Held s t) (h' : Held t u) : Held s u := by
  obtain ⟨_, _, hid⟩ := h.id
  obtain ⟨op1Val, op2Val, hid'⟩ := h'.id
  exact ⟨h'.mem.trans h.mem, h'.ex.trans h.ex, op1Val, op2Val, by rw [hid', hid]⟩

/-- Only the slots matter to what is held. -/
theorem Held.of_pipelineInfo (h : Held s t) (heq : u.pipelineInfo = t.pipelineInfo) :
    Held s u where
  mem := by
    rw [memInst, heq]
    exact h.mem
  ex := by
    rw [exInst, heq]
    exact h.ex
  id := by
    rw [idInst, heq]
    exact h.id

/-- Whether the held instruction is a branch does not depend on its operands. -/
theorem Held.branch (h : Held s t) : isBranchOrJump t.idInst = isBranchOrJump s.idInst := by
  obtain ⟨_, _, hid⟩ := h.id
  rw [hid]
  rfl

/-- The held instruction keeps its number. -/
theorem Held.seq (h : Held s t) : t.idInst.seq = s.idInst.seq := by
  obtain ⟨_, _, hid⟩ := h.id
  rw [hid]

/-- Which registers the held instruction reads does not depend on its operands. -/
theorem Held.reads (h : Held s t) (rd : BitVec 5) :
    readsRs1From t.idInst rd = readsRs1From s.idInst rd ∧
      readsRs2From t.idInst rd = readsRs2From s.idInst rd := by
  obtain ⟨_, _, hid⟩ := h.id
  rw [hid]
  exact ⟨rfl, rfl⟩

/-- Whether the held instruction is illegal does not depend on its operands. -/
theorem Held.excepted (h : Held s t) : t.excepted = s.excepted := by
  obtain ⟨_, _, hid⟩ := h.id
  rw [LoopState.excepted, hid]
  rfl

/-- A frozen cycle holds the instructions in MEM, EX and ID. -/
theorem held_of_frozen (hs : Steady s) (hz : s.frozen = true) :
    Held s (cycle accessFault s) where
  mem := memInst_cycle_of_frozen hs.shape hz
  ex := by rw [cycle_exInst_eq hs.shape hs.flow, exOut_of_frozen hz]
  id := by
    rw [cycle_idInst_eq hs.shape hs.flow, idOut_of_frozen accessFault hz, idForwarded,
      forwardToID_eq]
    exact ⟨_, _, rfl⟩

/-- The pipeline is frozen as long as the countdown is positive. -/
theorem frozen_iff_dataLeft : s.frozen = true ↔ 0 < s.dataLeft := by
  cases hz : s.frozen
  · simp [dataLeft, hz]
  · simp [dataLeft, hz]

/-- The pipeline moves when the countdown is zero. -/
theorem not_frozen_iff_dataLeft : s.frozen = false ↔ s.dataLeft = 0 := by
  rw [← Bool.not_eq_true, frozen_iff_dataLeft, Nat.pos_iff_ne_zero, not_not]

/-- The invariant behind the countdown holds in every iterate. -/
theorem steady_iterate (hs : Steady s) (k : ℕ) : Steady ((cycle accessFault)^[k] s) := by
  induction k with
  | zero => exact hs
  | succ k ih =>
      rw [Function.iterate_succ_apply']
      exact ih.cycle

/-- **A freeze lasts `dataLeft` cycles.** Until it is over the slots are held and the
countdown falls by one a cycle. -/
theorem freeze_iterate (hs : Steady s) {k : ℕ} (hk : k ≤ s.dataLeft) :
    ((cycle accessFault)^[k] s).dataLeft = s.dataLeft - k ∧
      Held s ((cycle accessFault)^[k] s) := by
  induction k with
  | zero => exact ⟨rfl, .refl s⟩
  | succ k ih =>
      obtain ⟨hleft, hheld⟩ := ih (Nat.le_of_succ_le hk)
      have hst := steady_iterate hs k
      have hz : ((cycle accessFault)^[k] s).frozen = true := frozen_iff_dataLeft.mpr (by omega)
      have hnext : (cycle accessFault ((cycle accessFault)^[k] s)).dataLeft + 1 =
          ((cycle accessFault)^[k] s).dataLeft := dataLeft_cycle hst.shape hst.tracked hz
      rw [Function.iterate_succ_apply']
      exact ⟨by omega, hheld.trans (held_of_frozen hst hz)⟩

/-- Every iterate below `dataLeft` is frozen. -/
theorem frozen_iterate (hs : Steady s) {k : ℕ} (hk : k < s.dataLeft) :
    ((cycle accessFault)^[k] s).frozen = true := by
  obtain ⟨hleft, -⟩ := freeze_iterate hs (Nat.le_of_lt hk)
  exact frozen_iff_dataLeft.mpr (by omega)

/-- The iterate at `dataLeft` moves again. -/
theorem thawed_iterate (hs : Steady s) :
    ((cycle accessFault)^[s.dataLeft] s).frozen = false := by
  obtain ⟨hleft, -⟩ := freeze_iterate hs (Nat.le_refl s.dataLeft)
  exact not_frozen_iff_dataLeft.mpr (hleft.trans (Nat.sub_self _))

/-- No cycle changes the configuration of the D-cache. -/
theorem dCache_config_iterate (k : ℕ) :
    ((cycle fault)^[k] s).dCache.config = s.dCache.config := by
  induction k with
  | zero => rfl
  | succ k ih =>
      rw [Function.iterate_succ_apply', (cycle_data fault _).2.2.2.2.2]
      exact ih

/-! ### Which instruction misses -/

/-- `inst` accesses the D-cache of `s`, and misses: it is a load or store, not of the
address and kind of the last access. -/
def accessMisses (s : LoopState) (inst : Instruction) : Bool :=
  (isLoad inst || isStore inst) &&
    (!s.prevDValid || inst.memAddress != s.prevDAddr || inst.cacheOp != s.prevDOp) &&
    !(s.dCache.access inst.memAddress inst.cacheOp).1

/-- The D-cache access of this cycle misses: `dCache->access` returns false. -/
def dataMiss (s : LoopState) : Bool := !s.dataFetchMiss && s.accessMisses s.memInst

/-- The instruction in EX will miss in the D-cache when it comes to MEM. -/
def exMisses (s : LoopState) : Bool := (accessDCache s).accessMisses s.exInst

/-- Whether an instruction misses depends on its flags, its activity and its address; so EX and
MEM hold one that misses alike. -/
theorem accessMisses_congr {i j : Instruction} (hdec : i.toDecodeInfo = j.toDecodeInfo)
    (hactive : i.active = j.active) (haddress : i.memAddress = j.memAddress) :
    s.accessMisses i = s.accessMisses j := by
  simp only [accessMisses, isLoad, isStore, Instruction.cacheOp, hdec, hactive, haddress]

/-- Where no miss is pending, the cycle is frozen if the access misses. -/
theorem frozen_of_no_miss (hmiss : s.dataFetchMiss = false) :
    s.frozen = s.accessMisses s.memInst ∧
      (s.frozen = true → (accessDCache s).dataMissStalls = 0) := by
  rw [frozen_eq, accessDCache_eq, accessMisses, hmiss, Bool.not_false, Bool.true_and]
  cases isLoad s.memInst || isStore s.memInst
  · exact ⟨hmiss, fun hz => Bool.noConfusion (hmiss.symm.trans hz)⟩
  · cases !s.prevDValid || s.memInst.memAddress != s.prevDAddr || s.memInst.cacheOp != s.prevDOp
    · exact ⟨hmiss, fun hz => Bool.noConfusion (hmiss.symm.trans hz)⟩
    · rw [if_pos rfl, if_pos rfl]
      dsimp only
      refine ⟨rfl, fun hz => if_neg fun hhit => ?_⟩
      rw [hhit] at hz
      exact Bool.noConfusion hz

/-- A miss starts a freeze of `lastMissCycle + 1` cycles. -/
theorem dataLeft_of_no_miss (hmiss : s.dataFetchMiss = false) :
    s.dataLeft = if s.accessMisses s.memInst then lastMissCycle s.dCache.config + 1 else 0 := by
  obtain ⟨hz, hcount⟩ := frozen_of_no_miss hmiss
  rw [dataLeft, ← hz]
  cases hfrozen : s.frozen
  · rw [if_neg Bool.false_ne_true, if_neg Bool.false_ne_true]
  · rw [hcount hfrozen, Nat.sub_zero]

/-- The D-cache after a cycle is what the access at its beginning left. -/
theorem dCache_cycle (fault : Fault) (s : LoopState) :
    (cycle fault s).dCache = (accessDCache s).dCache :=
  (accessICache_data s.hazard.stall (recordHazard (accessDCache s))).2.2.2.2

/-- What a cycle leaves on record of the D-cache is what its access left. -/
theorem accessMisses_cycle (fault : Fault) (s : LoopState) (inst : Instruction) :
    (cycle fault s).accessMisses inst = (accessDCache s).accessMisses inst := by
  obtain ⟨-, -, hvalid, haddr, hop, -⟩ := cycle_data fault s
  rw [accessMisses, accessMisses, hvalid, haddr, hop, dCache_cycle]

/-- A frozen cycle makes no access in the next one. -/
theorem exMisses_cycle_of_frozen (hs : Steady s) (hz : s.frozen = true) :
    (cycle accessFault s).exMisses = s.exMisses := by
  have hrec : (cycle accessFault s).DataRecorded := hs.tracked.recorded_of_frozen hs.shape hz
  have hcount : ∀ (t : LoopState) (n : ℕ) inst,
      { t with dataMissStalls := n }.accessMisses inst = t.accessMisses inst :=
    fun _ _ _ => rfl
  have hkept : ∀ inst, (accessDCache (cycle accessFault s)).accessMisses inst =
      (cycle accessFault s).accessMisses inst := by
    intro inst
    cases hmiss : (cycle accessFault s).dataFetchMiss
    · rw [accessDCache_of_recorded hmiss hrec]
    · rw [accessDCache_of_miss hmiss, hcount]
  rw [exMisses, hkept, accessMisses_cycle, (held_of_frozen hs hz).ex]
  rfl

/-- **The thaw brings the instruction in EX to MEM**, where it misses or not. -/
theorem dataLeft_cycle_of_moving (hs : Steady s) (hz : s.frozen = false) :
    (cycle accessFault s).dataLeft =
      if s.exMisses then lastMissCycle s.dCache.config + 1 else 0 := by
  have hmem : (cycle accessFault s).accessMisses (cycle accessFault s).memInst = s.exMisses := by
    rw [cycle_memInst_eq hs.shape hs.flow, memOut_of_not_frozen accessFault hz,
      accessMisses_cycle]
    exact accessMisses_congr (simMEM_toDecodeInfo ..) (simMEM_active ..) (simMEM_memAddress ..)
  rw [dataLeft_of_no_miss (dataFetchMiss_cycle accessFault hz), hmem,
    (cycle_data accessFault s).2.2.2.2.2]

/-- What the instruction in EX will do is known from the start of a freeze. -/
theorem exMisses_iterate (hs : Steady s) {k : ℕ} (hk : k ≤ s.dataLeft) :
    ((cycle accessFault)^[k] s).exMisses = s.exMisses := by
  induction k with
  | zero => rfl
  | succ k ih =>
      rw [Function.iterate_succ_apply',
        exMisses_cycle_of_frozen (steady_iterate hs k) (frozen_iterate hs hk)]
      exact ih (Nat.le_of_succ_le hk)

end LoopState

/-! ### The configurations are constants -/

/-- The caches keep their configurations in every run. -/
theorem config_of_run {fault : Fault} {ok : LoopState → Prop}
    {iCacheConfig dCacheConfig : CacheConfig} {mem : MemoryStore} {visited : List LoopState}
    {s : LoopState} (h : PipelineRun fault ok iCacheConfig dCacheConfig mem visited s) :
    s.iCache.config = iCacheConfig ∧ s.dCache.config = dCacheConfig := by
  refine (h.invariant (fun s : LoopState =>
    s.iCache.config = iCacheConfig ∧ s.dCache.config = dCacheConfig) ⟨rfl, rfl⟩ ?_ ?_).1
  · rintro s ⟨hi, hd⟩ -
    exact ⟨(LoopState.cycle_inst fault s).2.2.2.trans hi,
      (LoopState.cycle_data fault s).2.2.2.2.2.trans hd⟩
  · exact fun s hs => hs

end RvPipeSim
