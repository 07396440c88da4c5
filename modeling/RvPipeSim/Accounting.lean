import Mathlib.Data.List.Destutter
import RvPipeSim.Timing

/-!
# D-cache accounting

The D-cache is accessed only if the address or the kind of the access has changed since the
last one. The record of the last access is what keeps an instruction that waits in MEM from
accessing again, and it does the same to the next instruction if that one is of the same
address and kind. So a run has made as many accesses as the loads and stores that left MEM
have blocks of equal neighbours: the length of their keys after `List.destutter`.
-/

namespace RvPipeSim

open Simulator ObservedRun

/-! ### Destuttering a list that grows -/

section Destutter

variable {α : Type*} [DecidableEq α]

/-- Whether the last element is dropped depends on the one before it only. -/
theorem destutter'_concat (l : List α) (a b : α) :
    (l ++ [a]).destutter' (· ≠ ·) b =
      if (b :: l).getLast? = some a then l.destutter' (· ≠ ·) b
      else l.destutter' (· ≠ ·) b ++ [a] := by
  induction l generalizing b with
  | nil =>
      rw [List.nil_append, List.destutter'_singleton, List.getLast?_singleton]
      by_cases hba : b = a
      · rw [if_neg (not_not.mpr hba), if_pos (congrArg some hba)]
        rfl
      · rw [if_pos hba, if_neg fun h => hba (Option.some.inj h)]
        rfl
  | cons c l ih =>
      rw [List.cons_append, List.getLast?_cons_cons, List.destutter'_cons, List.destutter'_cons]
      by_cases hbc : b = c
      · subst hbc
        rw [if_neg (not_not.mpr rfl), if_neg (not_not.mpr rfl)]
        exact ih b
      · rw [if_pos hbc, if_pos hbc, ih c]
        split <;> rfl

/-- An element that repeats the last one is destuttered away. -/
theorem destutter_concat (l : List α) (a : α) :
    (l ++ [a]).destutter (· ≠ ·) =
      if l.getLast? = some a then l.destutter (· ≠ ·) else l.destutter (· ≠ ·) ++ [a] := by
  cases l with
  | nil => rfl
  | cons b l => exact destutter'_concat l a b

end Destutter

/-! ### Accesses -/

/-- The address and the kind of the access of a load or store. -/
def Instruction.dataAccess (inst : Instruction) : Option (BitVec 64 × CacheOperation) :=
  if isLoad inst || isStore inst then some (inst.memAddress, inst.cacheOp) else none

/-- The accesses of the loads and stores that retire in the cycles from `visited`. -/
def retiredAccesses (visited : List LoopState) : List (BitVec 64 × CacheOperation) :=
  visited.filterMap fun u => u.wbCall.bind Instruction.dataAccess

/-- `getHits() + getMisses()`. -/
def Cache.accessCount (cache : Cache) : ℕ := cache.hits + cache.misses

/-- An access is counted once. -/
theorem Cache.accessCount_access (cache : Cache) (address : BitVec 64) (op : CacheOperation) :
    (cache.access address op).2.accessCount = cache.accessCount + 1 := by
  rw [Cache.access]
  dsimp only [Cache.accessCount]
  cases (CacheSet.access _ _).1 <;> simp <;> omega

/-- Leaving `runCycles` parks the miss state, and accesses nothing. -/
theorem accessCount_leave (s : LoopState) :
    (leave s).dCache.hits + (leave s).dCache.misses = s.dCache.accessCount := rfl

namespace LoopState

variable {s : LoopState} {visited : List LoopState}

/-- The last access on record. -/
def lastAccess (s : LoopState) : Option (BitVec 64 × CacheOperation) :=
  if s.prevDValid then some (s.prevDAddr, s.prevDOp) else none

/-- The D-cache has been accessed for `keys`, but not for immediate repetitions. -/
structure AccessedFor (keys : List (BitVec 64 × CacheOperation)) (s : LoopState) : Prop where
  count : s.dCache.accessCount = (keys.destutter (· ≠ ·)).length
  last : s.lastAccess = keys.getLast?

/-- The test of `runCycles`: "only access dCache if the address or operation type has
changed in MEM instr". -/
theorem newAccess_iff (address : BitVec 64) (op : CacheOperation) :
    (!s.prevDValid || address != s.prevDAddr || op != s.prevDOp) = true ↔
      s.lastAccess ≠ some (address, op) := by
  rw [lastAccess]
  cases s.prevDValid
  · simp
  · simp only [Bool.not_true, Bool.false_or, if_true, ne_eq, Option.some.injEq, Prod.mk.injEq,
      not_and_or, Bool.or_eq_true, bne_iff_ne]
    rw [eq_comm (a := address), eq_comm (a := op)]

/-- An access that is on record, or none at all, leaves the cache as it is. -/
theorem accessDCache_of_known
    (hknown : ∀ key, s.memInst.dataAccess = some key → s.lastAccess = some key) :
    (accessDCache s).dCache = s.dCache ∧ (accessDCache s).lastAccess = s.lastAccess := by
  rw [accessDCache_eq]
  by_cases haccess : (!s.dataFetchMiss && (isLoad s.memInst || isStore s.memInst)) = true
  · rw [Bool.and_eq_true] at haccess
    have hlast := hknown _ (if_pos haccess.2)
    rw [if_pos (Bool.and_eq_true _ _ ▸ haccess),
      if_neg fun hnew => (newAccess_iff _ _).mp hnew hlast]
    exact ⟨rfl, rfl⟩
  · rw [if_neg haccess]
    split <;> exact ⟨rfl, rfl⟩

/-- An access that is not on record is made, and recorded. -/
theorem accessDCache_of_new {key : BitVec 64 × CacheOperation} (hmiss : s.dataFetchMiss = false)
    (hkey : s.memInst.dataAccess = some key) (hnew : s.lastAccess ≠ some key) :
    (accessDCache s).dCache.accessCount = s.dCache.accessCount + 1 ∧
      (accessDCache s).lastAccess = some key := by
  rw [Instruction.dataAccess] at hkey
  split at hkey
  · rename_i haccess
    obtain rfl := Option.some.inj hkey
    rw [accessDCache_eq, hmiss, Bool.not_false, Bool.true_and, if_pos haccess,
      if_pos ((newAccess_iff _ _).mpr hnew)]
    exact ⟨s.dCache.accessCount_access s.memInst.memAddress s.memInst.cacheOp, rfl⟩
  · exact absurd hkey nofun

/-- **One access for each retired instruction that is not an immediate repetition.** The
access of this cycle adds that of the instruction in MEM, unless an earlier cycle did. -/
theorem AccessedFor.accessDCache {keys : List (BitVec 64 × CacheOperation)}
    (h : AccessedFor keys s ∧ s.dataFetchMiss = false ∨
      AccessedFor (keys ++ s.memInst.dataAccess.toList) s) :
    AccessedFor (keys ++ s.memInst.dataAccess.toList) (accessDCache s) := by
  rcases h with ⟨h, hmiss⟩ | h
  · cases hkey : s.memInst.dataAccess with
    | none =>
        obtain ⟨hcache, hlast⟩ := accessDCache_of_known (s := s) fun key hkey' =>
          absurd (hkey.symm.trans hkey') nofun
        rw [Option.toList_none, List.append_nil]
        exact ⟨hcache ▸ h.count, hlast.trans h.last⟩
    | some key =>
        rw [Option.toList_some]
        by_cases hold : s.lastAccess = some key
        · -- the instruction before it made this access
          obtain ⟨hcache, hlast⟩ := accessDCache_of_known (s := s) fun key' hkey' =>
            hold.trans (hkey.symm.trans hkey')
          refine ⟨?_, by rw [hlast, hold, List.getLast?_concat]⟩
          rw [hcache, destutter_concat, if_pos (h.last.symm.trans hold)]
          exact h.count
        · obtain ⟨hcount, hlast⟩ := accessDCache_of_new hmiss hkey hold
          refine ⟨?_, by rw [hlast, List.getLast?_concat]⟩
          rw [hcount, destutter_concat, if_neg fun h' => hold (h.last.trans h'),
            List.length_append, h.count]
          rfl
  · obtain ⟨hcache, hlast⟩ := accessDCache_of_known (s := s) fun key hkey => by
      rw [h.last, hkey, Option.toList_some, List.getLast?_concat]
    exact ⟨hcache ▸ h.count, hlast.trans h.last⟩

/-- The loads and stores that left MEM in `visited` have made their accesses, and the one in
MEM may have. -/
def Accounted (visited : List LoopState) (s : LoopState) : Prop :=
  AccessedFor (retiredAccesses visited) s ∧ s.dataFetchMiss = false ∨
    AccessedFor (retiredAccesses visited ++ s.memInst.dataAccess.toList) s

/-- A cycle that is not frozen retires what is in MEM, with its access. -/
theorem retiredAccesses_concat (visited : List LoopState) (s : LoopState) :
    retiredAccesses (visited ++ [s]) =
      retiredAccesses visited ++ if s.frozen then [] else s.memInst.dataAccess.toList := by
  rw [retiredAccesses, List.filterMap_append, List.filterMap_cons, List.filterMap_nil, wbCall]
  cases s.frozen
  · rw [if_neg Bool.false_ne_true, if_neg Bool.false_ne_true, Option.bind_some]
    cases s.memInst.dataAccess <;> rfl
  · rfl

/-- What a cycle leaves on record of the D-cache is what its access left. -/
theorem AccessedFor.cycle (fault : Fault) {keys : List (BitVec 64 × CacheOperation)}
    (h : AccessedFor keys (RvPipeSim.accessDCache s)) :
    AccessedFor keys (RvPipeSim.cycle fault s) := by
  obtain ⟨-, -, hvalid, haddr, hop, -⟩ := cycle_data fault s
  refine ⟨(congrArg Cache.accessCount (dCache_cycle fault s)).trans h.count, ?_⟩
  rw [lastAccess, hvalid, haddr, hop]
  exact h.last

/-- In each cycle the access of MEM is counted or was counted before; when the instruction leaves
MEM, it has been. -/
theorem Accounted.cycle (hs : Steady s) (h : Accounted visited s) :
    Accounted (visited ++ [s]) (RvPipeSim.cycle accessFault s) := by
  have hnext := (AccessedFor.accessDCache h).cycle accessFault
  rw [Accounted, retiredAccesses_concat]
  cases hz : s.frozen
  · exact .inl ⟨hnext, dataFetchMiss_cycle accessFault hz⟩
  · rw [if_pos rfl, List.append_nil, memInst_cycle_of_frozen hs.shape hz]
    exact .inr hnext

/-- The D-cache is accounted for in every run. -/
theorem accounted_of_run {ok : LoopState → Prop} {iCacheConfig dCacheConfig : CacheConfig}
    {mem : MemoryStore}
    (h : PipelineRun accessFault ok iCacheConfig dCacheConfig mem visited s) :
    Accounted visited s := by
  refine (h.historical (fun visited s => Steady s ∧ Accounted visited s)
    ⟨.init iCacheConfig dCacheConfig mem, .inl ⟨⟨rfl, rfl⟩, rfl⟩⟩ ?_ ?_).2
  · rintro visited s ⟨hs, hacc⟩ -
    exact ⟨hs.cycle, hacc.cycle hs⟩
  · rintro visited s ⟨hs, hacc⟩
    exact ⟨hs.reenter, hacc.imp (fun ⟨h, hmiss⟩ => ⟨⟨h.count, h.last⟩, hmiss⟩)
      fun h => ⟨h.count, h.last⟩⟩

end LoopState

/-- **A run accesses the D-cache once for each retired load or store that does not repeat
the one before it.** When `runTillHalt` halts, `getHits() + getMisses()` is the number of
retired loads and stores without those of the same address and kind as the retired load or
store before; it is the number of all of them exactly if no two neighbours are alike. -/
theorem dCache_accesses {iCacheConfig dCacheConfig : CacheConfig} {mem : MemoryStore}
    {fuel : ℕ} {m : Machine}
    (h : runTillHalt accessFault fuel (initSimulator iCacheConfig dCacheConfig mem) = some m) :
    let retired := retiredAccesses
      (haltTrace accessFault fuel (initSimulator iCacheConfig dCacheConfig mem))
    m.dCache.hits + m.dCache.misses = (retired.destutter (· ≠ ·)).length ∧
      (m.dCache.hits + m.dCache.misses = retired.length ↔ retired.IsChain (· ≠ ·)) := by
  obtain ⟨visited, s, hrun, hhalts, rfl, htrace⟩ := run_of_runTillHalt h
  have hs := (Steady.of_run hrun).1
  have hz := LoopState.not_frozen_of_halts hhalts
  have hcount : (leave (cycle accessFault s)).dCache.hits +
      (leave (cycle accessFault s)).dCache.misses =
        ((retiredAccesses (visited ++ [s])).destutter (· ≠ ·)).length := by
    have hnext := (LoopState.AccessedFor.accessDCache
      (LoopState.accounted_of_run hrun)).cycle accessFault
    rw [accessCount_leave, LoopState.retiredAccesses_concat, hz]
    exact hnext.count
  intro retired
  have hretired : retired = retiredAccesses (visited ++ [s]) := congrArg retiredAccesses htrace
  rw [hcount, hretired]
  refine ⟨rfl, ?_⟩
  rw [← List.destutter_eq_self_iff]
  exact ⟨(List.destutter_sublist _ _).eq_of_length, congrArg List.length⟩

/-- `lw x1, 256(x0); lw x2, 256(x0); HALT`: the two loads retire, and share one access. -/
theorem dCache_access_shared :
    let m := initSimulator (.oneBlock 64) (.oneBlock 64)
      (.image fun | 0 => 0x10002083 | 1 => 0x10002103 | 2 => 0xfeedfeed | _ => 0x00000013)
    (runTillHalt accessFault 10 m).map (fun m' => m'.dCache.hits + m'.dCache.misses) = some 1 ∧
      (retiredAccesses (haltTrace accessFault 10 m)).length = 2 := by
  decide +kernel

/-- `lw x1, 256(x0); sd x1, 256(x0); HALT`: a store to the address of a load makes its own
access. -/
theorem dCache_accesses_two :
    let m := initSimulator (.oneBlock 64) (.oneBlock 64)
      (.image fun | 0 => 0x10002083 | 1 => 0x10103023 | 2 => 0xfeedfeed | _ => 0x00000013)
    ∃ m', runTillHalt accessFault 10 m = some m' ∧ m'.dCache.hits + m'.dCache.misses = 2 := by
  intro m
  obtain ⟨m', h⟩ := Option.isSome_iff_exists.mp
    (by decide +kernel : (runTillHalt accessFault 10 m).isSome = true)
  refine ⟨m', h, (dCache_accesses h).1.trans ?_⟩
  decide +kernel

end RvPipeSim
