import RvPipeSim.DataTrace

/-!
# What the I-cache is accessed for

The I-cache is looked up for the instruction in IF, unless its address is the last one looked
up. Nothing leaves IF before it has been looked up: a hazard, which puts the lookup off, also
holds IF, and an illegal instruction in ID, which empties IF, raises no hazard. So the I-cache
has been accessed for the instructions that have left IF, decoded or not, once each and in
the order they were fetched, but not for immediate repetitions (`iCache_replay`).
-/

namespace RvPipeSim

open Simulator ObservedRun

/-- The address an instruction in IF is looked up at, if it is no padding. -/
def Instruction.lookupPC (inst : Instruction) : Option (BitVec 64) :=
  if inst.isNop then none else some inst.PC

/-- The accesses for a list of addresses. -/
def lookups (keys : List (BitVec 64)) : List (BitVec 64 × CacheOperation) :=
  (keys.destutter (· ≠ ·)).map fun PC => (PC, .cacheRead)

/-- One address more in IF is one access more, unless it is the same again. -/
theorem lookups_concat (keys : List (BitVec 64)) (PC : BitVec 64) :
    lookups (keys ++ [PC]) =
      if keys.getLast? = some PC then lookups keys else lookups keys ++ [(PC, .cacheRead)] := by
  rw [lookups, destutter_concat]
  split
  · rfl
  · rw [List.map_append]
    rfl

/-- The addresses of the instructions that leave IF in the cycles from `visited`. -/
def fetchLog (visited : List LoopState) : List (BitVec 64) :=
  visited.filterMap fun u => if u.refetched accessFault then u.ifInst.lookupPC else none

/-- When IF fetches, the address it held is logged. -/
theorem fetchLog_concat (visited : List LoopState) (s : LoopState) :
    fetchLog (visited ++ [s]) =
      fetchLog visited ++ if s.refetched accessFault then s.ifInst.lookupPC.toList else [] := by
  rw [fetchLog, List.filterMap_append]
  cases hfetch : s.refetched accessFault
  · simp [hfetch, fetchLog]
  · cases hkey : s.ifInst.lookupPC <;> simp [hfetch, hkey, fetchLog]

namespace LoopState

variable {s : LoopState} {visited : List LoopState} {config : CacheConfig}
  {keys : List (BitVec 64)}

/-- The I-cache is a new one that has been accessed for `keys`, but not for immediate
repetitions. -/
structure Looked (config : CacheConfig) (keys : List (BitVec 64)) (s : LoopState) : Prop where
  contents : s.iCache.contents = ((Cache.new config).accesses (lookups keys)).2
  last : keys.getLast?.getD (-1) = s.prevICPC

/-- Only the contents of the I-cache and the address on record matter. -/
theorem Looked.congr {t : LoopState} (h : Looked config keys s)
    (hcache : t.iCache.contents = s.iCache.contents) (hpc : t.prevICPC = s.prevICPC) :
    Looked config keys t :=
  ⟨hcache.trans h.contents, h.last.trans hpc.symm⟩

/-- Without a lookup only the count of a miss goes on. -/
theorem accessICache_of_held {stall : Bool} (h : stall = true ∨ s.ifInst.isNop = true) :
    (accessICache stall s).iCache = s.iCache ∧
      (accessICache stall s).prevICPC = s.prevICPC ∧
      (accessICache stall s).instFetchMiss = s.instFetchMiss := by
  have hno : (!stall && !s.instFetchMiss && !s.ifInst.isNop) = false := by
    rcases h with h | h <;> simp [h]
  rw [accessICache]
  dsimp only
  rw [hno, if_neg Bool.false_ne_true]
  split <;> exact ⟨rfl, rfl, rfl⟩

/-- **A lookup adds the address in IF**, unless an earlier cycle did. The first lookup is at no
address that would look like a repetition. -/
theorem Looked.accessICache (hnop : s.ifInst.isNop = false)
    (hfirst : keys = [] → s.ifInst.PC ≠ -1)
    (h : Looked config keys s ∧ s.instFetchMiss = false ∨
      Looked config (keys ++ [s.ifInst.PC]) s) :
    Looked config (keys ++ [s.ifInst.PC]) (RvPipeSim.accessICache false s) := by
  rcases h with ⟨h, hmiss⟩ | h
  · by_cases hold : s.prevICPC = s.ifInst.PC
    · have hlast : keys.getLast? = some s.ifInst.PC := by
        cases hkeys : keys.getLast? with
        | none =>
            have hprev := h.last
            rw [hkeys, hold] at hprev
            exact absurd hprev.symm (hfirst (List.getLast?_eq_none_iff.mp hkeys))
        | some PC =>
            have hprev := h.last
            rw [hkeys, hold] at hprev
            exact congrArg some hprev
      rw [accessICache_of_recorded false hmiss hold]
      refine ⟨?_, by rw [List.getLast?_concat, hold]; rfl⟩
      rw [lookups_concat, if_pos hlast]
      exact h.contents
    · have hlast : keys.getLast? ≠ some s.ifInst.PC := fun hlast => by
        have hprev := h.last
        rw [hlast] at hprev
        exact hold hprev.symm
      have hlook : (!false && !s.instFetchMiss && !s.ifInst.isNop) = true := by
        rw [hmiss, hnop]
        rfl
      have hnew : (s.ifInst.PC != s.prevICPC) = true := bne_iff_ne.mpr (Ne.symm hold)
      have haccess : (RvPipeSim.accessICache false s).iCache =
            (s.iCache.access s.ifInst.PC .cacheRead).2 ∧
          (RvPipeSim.accessICache false s).prevICPC = s.ifInst.PC := by
        rw [RvPipeSim.accessICache]
        dsimp only
        rw [if_pos hlook, if_pos hnew]
        exact ⟨rfl, rfl⟩
      refine ⟨?_, by rw [List.getLast?_concat, haccess.2]; rfl⟩
      rw [lookups_concat, if_neg hlast, Cache.accesses_concat, ← h.contents, haccess.1,
        Cache.contents_access]
  · have hold : s.prevICPC = s.ifInst.PC := by
      rw [← h.last, List.getLast?_concat]
      rfl
    cases hmiss : s.instFetchMiss
    · rw [accessICache_of_recorded false hmiss hold]
      exact h
    · rw [accessICache_of_miss false hmiss]
      exact h.congr rfl rfl

/-- An illegal instruction in ID raises no hazard. -/
theorem stalled_of_excepted (hs : Steady s) (hexc : s.excepted = true) : s.stalled = false := by
  have hillegal := (illegal_of_excepted hexc).1
  obtain ⟨-, -, hinert⟩ := hs.shape.id_wellFormed.illegal hillegal
  have hrem : s.remainingStallCycles = 0 := by
    by_contra hne
    have hlegal := (hs.shape.pending (Nat.pos_of_ne_zero hne)).2.2.1
    exact Bool.noConfusion (hillegal.symm.trans hlegal)
  have hbr : isBranchOrJump s.idInst = false := by
    rw [isBranchOrJump, hillegal, Bool.and_false, Bool.false_and]
  have hstore : isStore s.idInst = false := by
    rw [isStore, hillegal, Bool.and_false, Bool.false_and]
  have hread : ∀ rd, readsRs1From s.idInst rd = false ∧ readsRs2From s.idInst rd = false :=
    fun rd => by
      rw [readsRs1From, readsRs2From, hinert.readsRs1, hinert.readsRs2]
      exact ⟨rfl, rfl⟩
  have hload : (detectLoadHazard s.exInst s.idInst).stall = false := by
    rw [detectLoadHazard]
    dsimp only
    rw [hstore, hbr, (hread _).1, (hread _).2]
    split <;> rfl
  rw [stalled, hazard, detectHazard, hrem, if_neg (Nat.lt_irrefl 0)]
  dsimp only
  rw [hbr, Bool.and_false, if_neg Bool.false_ne_true]
  exact hload

/-! ### One cycle -/

/-- The instructions that left IF in `visited` have been looked up, and the one in IF may have
been. -/
def Looks (config : CacheConfig) (visited : List LoopState) (s : LoopState) : Prop :=
  Looked config (fetchLog visited) s ∧ s.instFetchMiss = false ∨
    Looked config (fetchLog visited ++ s.ifInst.lookupPC.toList) s

/-- If nothing has left IF, it is empty or holds the first instruction. -/
def Started (visited : List LoopState) (s : LoopState) : Prop :=
  fetchLog visited = [] →
    s.ifInst = nop .idle ∧ s.PC = 0 ∨ s.ifInst.isNop = false ∧ s.ifInst.PC = 0

/-- A fetched instruction is looked up at its address. -/
theorem lookupPC_of_fetched {inst : Instruction} (h : inst.Fetched) :
    inst.lookupPC = some inst.PC := by
  have hnop : inst.isNop = false := by rw [h.clear]
  rw [Instruction.lookupPC, hnop, if_neg Bool.false_ne_true]

/-- An empty IF takes the word at the PC, or stays empty. -/
theorem ifInst_cycle_of_idle (hs : Steady s) (hidle : s.ifInst = nop .idle) :
    (cycle accessFault s).ifInst = nop .idle ∧ (cycle accessFault s).PC = s.PC ∨
      (cycle accessFault s).ifInst.isNop = false ∧ (cycle accessFault s).ifInst.PC = s.PC := by
  have hid := (hs.flow.idle hidle).1
  have hst := stalled_of_inactive hs.shape hs.flow hid
  have hexc : s.excepted = false := by
    rw [excepted, raisesIllegalExc, hid, Bool.and_false, Bool.false_and]
  have hmp : mispredicted s.ifInst s.PC = false := by
    rw [hidle]
    rfl
  cases hz : s.frozen
  · cases hsv : s.starved
    · have hbr : isBranchOrJump (s.idOut accessFault).1 = false := by
        rw [idOut_of_decoding _ hz hexc hst hsv hmp, hidle]
        rfl
      obtain ⟨hif, -⟩ := fetch_of_decoded hs.shape hs.flow hexc hz hst hsv hbr
      rw [hif]
      exact .inr ⟨rfl, rfl⟩
    · obtain ⟨hif, hPC⟩ := fetch_of_starved hs.shape hs.flow hexc hst hsv
      exact .inl ⟨hif.trans hidle, hPC⟩
  · obtain ⟨hif, hPC, -⟩ := fetch_of_frozen hs.shape hs.flow hexc hz
    exact .inl ⟨hif.trans hidle, hPC⟩

/-- The first instruction is in IF until it leaves it. -/
theorem Started.cycle (hs : Steady s) (h : Started visited s) :
    Started (visited ++ [s]) (RvPipeSim.cycle accessFault s) := by
  intro hnone
  rw [fetchLog_concat, List.append_eq_nil_iff] at hnone
  rcases h hnone.1 with ⟨hidle, hPC⟩ | ⟨hnop, hPC⟩
  · exact (ifInst_cycle_of_idle hs hidle).imp (fun ⟨hif, hPC'⟩ => ⟨hif, hPC'.trans hPC⟩)
      fun ⟨hnop, hPC'⟩ => ⟨hnop, hPC'.trans hPC⟩
  · cases hfetch : s.refetched accessFault
    · rw [(cycle_of_not_refetched accessFault s hfetch).2]
      exact .inr ⟨hnop, hPC⟩
    · rw [hfetch, if_pos rfl, Instruction.lookupPC, hnop] at hnone
      exact absurd hnone.2 (by simp)

/-- What the lookup of this cycle leaves. -/
theorem Looks.detect (hs : Steady s) (hstart : Started visited s) (h : Looks config visited s) :
    (s.stalled = true ∧ Looked config (fetchLog visited) (RvPipeSim.detect s) ∧
        s.starved = false) ∨
      Looked config (fetchLog visited ++ s.ifInst.lookupPC.toList) (RvPipeSim.detect s) := by
  obtain ⟨-, hpc, hcache⟩ := accessDCache_inst s
  have hif : (recordHazard (accessDCache s)).ifInst = s.ifInst := by
    rw [recordHazard, ifInst, accessDCache_pipelineInfo]
  have hmiss : (recordHazard (accessDCache s)).instFetchMiss = s.instFetchMiss :=
    accessDCache_instFetchMiss s
  have hlooked : ∀ keys, Looked config keys s →
      Looked config keys (recordHazard (accessDCache s)) :=
    fun keys hkeys => hkeys.congr (congrArg Cache.contents hcache) hpc
  rw [RvPipeSim.detect]
  cases hst : s.stalled
  · have hst' : s.hazard.stall = false := hst
    rw [hst']
    rcases hs.shape.ifSlot with hidle | hfetched
    · have hnop : (recordHazard (accessDCache s)).ifInst.isNop = true := by
        rw [hif, hidle]
        rfl
      obtain ⟨hcache', hpc', -⟩ := @accessICache_of_held _ false (.inr hnop)
      have hnone : s.ifInst.lookupPC.toList = [] := by
        rw [hidle]
        rfl
      rw [hnone, List.append_nil]
      refine .inr ((hlooked _ ?_).congr (congrArg Cache.contents hcache') hpc')
      rcases h with ⟨h, -⟩ | h
      · exact h
      · rwa [hnone, List.append_nil] at h
    · have hnop : (recordHazard (accessDCache s)).ifInst.isNop = false := by
        rw [hif, hfetched.clear]
      have hfirst : fetchLog visited = [] → (recordHazard (accessDCache s)).ifInst.PC ≠ -1 := by
        intro hnone
        rw [hif]
        rcases hstart hnone with ⟨hidle, -⟩ | ⟨-, hPC⟩
        · rw [hidle]
          decide
        · rw [hPC]
          decide
      rw [lookupPC_of_fetched hfetched, Option.toList_some, ← hif]
      refine .inr (Looked.accessICache hnop hfirst ?_)
      rcases h with ⟨h, hmiss'⟩ | h
      · exact .inl ⟨hlooked _ h, hmiss.trans hmiss'⟩
      · rw [lookupPC_of_fetched hfetched, Option.toList_some, ← hif] at h
        exact .inr (hlooked _ h)
  · have hst' : s.hazard.stall = true := hst
    rw [hst']
    obtain ⟨hcache', hpc', hflag⟩ :=
      @accessICache_of_held (recordHazard (accessDCache s)) true (.inl rfl)
    have hsv : s.starved = s.instFetchMiss := by
      rw [starved, RvPipeSim.detect, hst', hflag, hmiss]
    rcases h with ⟨h, hmiss'⟩ | h
    · exact .inl ⟨rfl, (hlooked _ h).congr (congrArg Cache.contents hcache') hpc',
        hsv.trans hmiss'⟩
    · exact .inr ((hlooked _ h).congr (congrArg Cache.contents hcache') hpc')

/-- The I-cache after a cycle is what its access left. -/
theorem iCache_cycle (fault : Fault) (s : LoopState) :
    (cycle fault s).iCache = (detect s).iCache := rfl

/-- A cycle that fetches leaves no miss. -/
theorem instFetchMiss_of_refetched (hs : Steady s) (hfetch : s.refetched accessFault = true) :
    (cycle accessFault s).instFetchMiss = false := by
  by_contra hmiss
  rw [Bool.not_eq_false] at hmiss
  have hout := instFetchMiss_of_cycle accessFault s hmiss
  have hsv := (starved_of_fetchOut hout).1
  rw [refetched, memExc_eq_false hs.shape hs.flow, hsv] at hfetch
  have hexc : s.excepted = true := by simpa using hfetch
  rw [(fetch_of_excepted hs.shape hs.flow hexc).2.2] at hout
  exact Bool.noConfusion hout

/-- What has just left IF has been looked up, and the instruction behind it has not. -/
theorem Looks.of_refetched (hs : Steady s) (hstart : Started visited s)
    (h : Looks config visited s) (hfetch : s.refetched accessFault = true) :
    Looked config (fetchLog (visited ++ [s])) (RvPipeSim.cycle accessFault s) := by
  obtain ⟨-, -, hpc, -⟩ := cycle_inst accessFault s
  rw [fetchLog_concat, hfetch, if_pos rfl]
  rcases h.detect hs hstart with ⟨hst, -⟩ | hlooked
  · -- a hazard holds IF
    have hexc : s.excepted = true := by
      rw [refetched, memExc_eq_false hs.shape hs.flow, hst] at hfetch
      simpa using hfetch
    exact Bool.noConfusion (hst.symm.trans (stalled_of_excepted hs hexc))
  · exact hlooked.congr (congrArg Cache.contents (iCache_cycle accessFault s)) hpc

/-- **One cycle.** What leaves IF has been looked up. -/
theorem Looks.cycle (hs : Steady s) (hstart : Started visited s) (h : Looks config visited s) :
    Looks config (visited ++ [s]) (RvPipeSim.cycle accessFault s) := by
  cases hfetch : s.refetched accessFault
  · obtain ⟨-, -, hpc, -⟩ := cycle_inst accessFault s
    have hnext : ∀ keys, Looked config keys (RvPipeSim.detect s) →
        Looked config keys (RvPipeSim.cycle accessFault s) :=
      fun keys hkeys => hkeys.congr (congrArg Cache.contents (iCache_cycle accessFault s)) hpc
    rw [Looks, fetchLog_concat, hfetch, if_neg Bool.false_ne_true, List.append_nil,
      (cycle_of_not_refetched accessFault s hfetch).2]
    refine (h.detect hs hstart).imp (fun ⟨_, hlooked, hsv⟩ => ⟨hnext _ hlooked, ?_⟩) (hnext _)
    by_contra hmiss
    rw [Bool.not_eq_false] at hmiss
    have hout := instFetchMiss_of_cycle accessFault s hmiss
    exact Bool.noConfusion (hsv.symm.trans (starved_of_fetchOut hout).1)
  · exact .inl ⟨h.of_refetched hs hstart hfetch, instFetchMiss_of_refetched hs hfetch⟩

/-- The I-cache is a replay in every run. -/
theorem looks_of_run {ok : LoopState → Prop} {iCacheConfig dCacheConfig : CacheConfig}
    {mem : MemoryStore}
    (h : PipelineRun accessFault ok iCacheConfig dCacheConfig mem visited s) :
    Started visited s ∧ Looks iCacheConfig visited s := by
  refine (h.historical
    (fun visited s => Steady s ∧ Started visited s ∧ Looks iCacheConfig visited s)
    ⟨.init iCacheConfig dCacheConfig mem, fun _ => .inl ⟨rfl, rfl⟩, .inl ⟨⟨rfl, rfl⟩, rfl⟩⟩
    ?_ ?_).2
  · rintro visited s ⟨hs, hstart, hlooks⟩ -
    exact ⟨hs.cycle, hstart.cycle hs, hlooks.cycle hs hstart⟩
  · rintro visited s ⟨hs, hstart, hlooks⟩
    refine ⟨hs.reenter, hstart, ?_⟩
    rcases hlooks with ⟨hlooked, hmiss⟩ | hlooked
    · exact .inl ⟨⟨hlooked.contents, hlooked.last⟩, hmiss⟩
    · exact .inr ⟨hlooked.contents, hlooked.last⟩

end LoopState

/-- Accesses are counted once each. -/
theorem Cache.accessCount_accesses (cache : Cache) (calls : List (BitVec 64 × CacheOperation)) :
    (cache.accesses calls).2.accessCount = cache.accessCount + calls.length := by
  induction calls generalizing cache with
  | nil => rfl
  | cons call calls ih =>
      rw [Cache.accesses]
      dsimp only
      rw [ih, Cache.accessCount_access, List.length_cons]
      omega

/-- **I-cache accounting.** In every run, exceptions and squashed fetches included, the I-cache
is a new one that has been accessed for the instructions that have left IF, in their order, and
perhaps for the one in IF, but not for an address that repeats the one before. So the hits and
misses are the number of these addresses. -/
theorem iCache_replay {ok : LoopState → Prop} {iCacheConfig dCacheConfig : CacheConfig}
    {mem : MemoryStore} {visited : List LoopState} {s : LoopState}
    (h : PipelineRun accessFault ok iCacheConfig dCacheConfig mem visited s) :
    ∃ current, (current = [] ∨ current = s.ifInst.lookupPC.toList) ∧
      s.iCache.contents =
        ((Cache.new iCacheConfig).accesses (lookups (fetchLog visited ++ current))).2 ∧
      s.iCache.hits + s.iCache.misses =
        ((fetchLog visited ++ current).destutter (· ≠ ·)).length := by
  have hcount : ∀ keys, LoopState.Looked iCacheConfig keys s →
      s.iCache.hits + s.iCache.misses = (keys.destutter (· ≠ ·)).length := by
    intro keys hkeys
    have hcontents : s.iCache.contents.accessCount = _ :=
      (congrArg Cache.accessCount hkeys.contents).trans (Cache.accessCount_accesses ..)
    rw [lookups, List.length_map] at hcontents
    exact hcontents.trans (Nat.zero_add _)
  rcases (LoopState.looks_of_run h).2 with ⟨hlooked, -⟩ | hlooked
  · refine ⟨[], .inl rfl, ?_⟩
    rw [List.append_nil]
    exact ⟨hlooked.contents, hcount _ hlooked⟩
  · exact ⟨_, .inr rfl, hlooked.contents, hcount _ hlooked⟩

/-- `jal x0, 8; addi x1, x0, 1; HALT`: the jump squashes the fetch behind it, which the I-cache
was accessed for all the same. -/
theorem iCache_replay_jump :
    let start := enter (initSimulator (.oneBlock 4) (.oneBlock 64)
      (.image fun | 0 => 0x0080006f | 1 => 0x00100093 | _ => 0xfeedfeed))
    let visited := (List.range 10).map fun k => (cycle accessFault)^[k] start
    let s := (cycle accessFault)^[10] start
    ∃ current, (current = [] ∨ current = s.ifInst.lookupPC.toList) ∧
      s.iCache.contents =
        ((Cache.new (.oneBlock 4)).accesses (lookups (fetchLog visited ++ current))).2 ∧
      s.iCache.hits + s.iCache.misses =
        ((fetchLog visited ++ current).destutter (· ≠ ·)).length :=
  iCache_replay
    (run_iterate (n := 10) fun _ _ => trivial : PipelineRun accessFault anyCycle _ _ _ _ _)

end RvPipeSim
