import RvPipeSim.Lib.Paging
import RvPipeSim.Lru

/-!
# How often a cache misses

The blocks of the addresses are the items of `Paging`, and the misses of a new cache are the
faults of a store of the most recent blocks (`misses_eq_faults`). So the bounds of that
module are bounds on `getMisses()`:

* a block that is accessed misses once at least, and no more than that if the blocks of
  every set fit into its ways (`compulsory_misses`);
* no other choice of what to replace, not even one that knows the accesses to come, misses
  less by more than a constant factor (`misses_competitive`).
-/

namespace RvPipeSim

open Recency Paging

section Misses

variable {config : CacheConfig} {history : List (BitVec 64)} {cache : Cache}

/-- The blocks of a sequence of accesses. -/
def CacheConfig.blocks (config : CacheConfig) (calls : List (BitVec 64 × CacheOperation)) :
    List ℕ :=
  calls.map fun call => config.block call.1

/-- One access misses or not as the paged block is a fault or not. -/
theorem TracksHistory.misses_access (h : TracksHistory config history cache)
    (hways : 1 ≤ config.ways) (hsets : 1 ≤ config.numSets) (hmax : config.numSets < 2 ^ 32)
    (address : BitVec 64) (op : CacheOperation) :
    (cache.access address op).2.misses = cache.misses +
      if Resident config.setOf config.ways (history.map config.block) (config.block address) then 0
      else 1 := by
  have hmisses : (cache.access address op).2.misses =
      cache.misses + (!(cache.access address op).1).toNat := rfl
  have hhit : (cache.access address op).1 = true ↔
      Resident config.setOf config.ways (history.map config.block) (config.block address) :=
    (h.access hways hsets hmax address op).1
  rw [hmisses]
  split
  · rename_i hres
    rw [hhit.mpr hres]
    rfl
  · rename_i hres
    rw [Bool.eq_false_iff.mpr fun htrue => hres (hhit.mp htrue)]
    rfl

/-- A sequence of accesses. -/
theorem TracksHistory.misses_accesses (h : TracksHistory config history cache)
    (hways : 1 ≤ config.ways) (hsets : 1 ≤ config.numSets) (hmax : config.numSets < 2 ^ 32)
    (calls : List (BitVec 64 × CacheOperation)) :
    (cache.accesses calls).2.misses = cache.misses +
      faults config.setOf config.ways (history.map config.block) (config.blocks calls) := by
  induction calls generalizing history cache with
  | nil => rfl
  | cons call calls ih =>
      obtain ⟨address, op⟩ := call
      have hrest := ih (h.access hways hsets hmax address op).2
      rw [List.map_append] at hrest
      calc (cache.accesses ((address, op) :: calls)).2.misses
          = ((cache.access address op).2.accesses calls).2.misses := rfl
        _ = _ := hrest
        _ = _ := by
          rw [h.misses_access hways hsets hmax address op, Nat.add_assoc]
          rfl

/-- **The misses of a new cache are the faults of the blocks.** -/
theorem misses_eq_faults (hsets : 1 ≤ config.numSets) (hmax : config.numSets ≤ 2 ^ 31 - 1)
    (calls : List (BitVec 64 × CacheOperation)) :
    ((Cache.new config).accesses calls).2.misses =
      faults config.setOf config.ways [] (config.blocks calls) := by
  rw [(TracksHistory.new config).misses_accesses (CacheConfig.ways_pos hsets) hsets (by omega)]
  exact Nat.zero_add _

end Misses

end RvPipeSim
