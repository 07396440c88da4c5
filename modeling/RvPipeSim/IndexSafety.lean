import RvPipeSim.Lru

/-!
# What a cache access indexes

`Cache::access` indexes `sets` and the ways of a set without a check. The constructor sizes
them by two truncating divisions, `access` derives the index from the floors of two binary
logarithms, and nothing looks at the numbers `parseArgs` reads. `SafeAccess` says that every
index of an access is in bounds.

The mask of the index is computed in `int`. For a configuration of `uint32_t` values the
shift is by at most 31, and there the subtraction wraps around to `0x7fffffff`, as `int` does
on every machine that computes in two's complement; the standard leaves it undefined.
-/

namespace RvPipeSim

namespace CacheConfig

/-- The configuration `parseArgs` makes of the four numbers of a cache. -/
def parsed (cacheSize blockSize ways missLatency : BitVec 32) : CacheConfig where
  cacheSize := cacheSize.toNat
  blockSize := blockSize.toNat
  ways := ways.toNat
  missLatency := missLatency.toNat

/-- `(0x1 << index_bits) - 1` in `int`, converted to `uint64_t`. -/
def intMask (config : CacheConfig) : BitVec 64 :=
  ((1#32 <<< config.indexBits) - 1#32).signExtend 64

/-- `(address >> offset_bits) & ((0x1 << index_bits) - 1)`. -/
def intIndex (config : CacheConfig) (address : BitVec 64) : BitVec 64 :=
  (address >>> config.offsetBits) &&& config.intMask

/-- Up to a shift by 31, the arithmetic in `int` makes no difference. -/
theorem intIndex_eq_index {config : CacheConfig} (hmax : config.numSets < 2 ^ 32)
    (address : BitVec 64) : config.intIndex address = config.index address := by
  have hmask : ∀ k : Fin 32,
      ((1#32 <<< k.val) - 1#32).signExtend 64 = (1#64 <<< k.val) - 1#64 := by
    decide
  rw [intIndex, intMask, hmask ⟨config.indexBits, indexBits_lt hmax⟩]
  rfl

/-- The number of sets fits the source's `uint32_t`. -/
theorem numSets_lt (cacheSize blockSize ways missLatency : BitVec 32) :
    (parsed cacheSize blockSize ways missLatency).numSets < 2 ^ 32 := by
  have hle : (parsed cacheSize blockSize ways missLatency).numSets ≤ cacheSize.toNat :=
    Nat.le_trans (Nat.div_le_self _ _) (Nat.div_le_self _ _)
  have hlt := cacheSize.isLt
  omega

/-- There is a set exactly if the cache has room for one block in each way. -/
theorem numSets_pos_iff {config : CacheConfig} (hblock : 0 < config.blockSize)
    (hways : 0 < config.ways) :
    1 ≤ config.numSets ↔ config.blockSize * config.ways ≤ config.cacheSize := by
  rw [numSets, Nat.div_div_eq_div_mul]
  exact Nat.div_pos_iff.trans ⟨fun h => h.2, fun h => ⟨Nat.mul_pos hblock hways, h⟩⟩

end CacheConfig

/-- Every index of an access to `address` is in bounds: the set exists, it has a way for
every index of the loops, and the ways the lookup and the victim search name are its own. -/
def Cache.SafeAccess (cache : Cache) (address : BitVec 64) : Prop :=
  ∃ set, cache.sets[(cache.config.intIndex address).toNat]? = some set ∧
    (∀ i < cache.config.ways, i < set.ways.length) ∧
    (∀ hitIndex, set.lookup (cache.config.tag address) = some hitIndex →
      hitIndex < set.ways.length) ∧
    (CacheSet.victimLoop set.ways 0 0 0).1 < set.ways.length

/-- The sets and ways of a cache are those of its configuration. -/
structure Cache.Sized (config : CacheConfig) (cache : Cache) : Prop where
  config_eq : cache.config = config
  length_sets : cache.sets.length = config.numSets
  length_ways : ∀ {i : ℕ} {set : CacheSet}, cache.sets[i]? = some set →
    set.ways.length = config.ways

namespace Cache.Sized

variable {config : CacheConfig} {cache : Cache}

/-- The constructor builds the sets and ways of its configuration. -/
theorem new (config : CacheConfig) : Sized config (Cache.new config) where
  config_eq := rfl
  length_sets := List.length_replicate
  length_ways hset := by
    obtain ⟨-, rfl⟩ := List.getElem?_eq_some_iff.mp hset
    simp [Cache.new, CacheSet.fresh]

/-- An access to a set keeps its ways. -/
theorem length_access (set : CacheSet) (tag : BitVec 64) :
    (set.access tag).2.ways.length = set.ways.length := by
  rw [CacheSet.access]
  cases set.lookup tag with
  | some hitIndex => exact List.length_mapIdx
  | none => exact List.length_mapIdx

/-- An access keeps the shape of the cache. -/
theorem access (h : Sized config cache) (address : BitVec 64) (op : CacheOperation) :
    Sized config (cache.access address op).2 where
  config_eq := h.config_eq
  length_sets := by
    rw [Cache.access]
    dsimp only
    rw [List.length_set]
    exact h.length_sets
  length_ways hset := by
    refine Cache.forall_sets_access (P := fun set => set.ways.length = config.ways)
      (fun set tag hlength => (length_access set tag).trans hlength) (fun set hmem => ?_)
      address op _ (List.mem_of_getElem? hset)
    obtain ⟨i, hi⟩ := List.mem_iff_getElem?.mp hmem
    exact h.length_ways hi

/-- So does a sequence of accesses. -/
theorem accesses (h : Sized config cache) (calls : List (BitVec 64 × CacheOperation)) :
    Sized config (cache.accesses calls).2 := by
  induction calls generalizing cache with
  | nil => exact h
  | cons call calls ih => exact ih (h.access call.1 call.2)

end Cache.Sized

/-- The victim is a way of the set, if it has one. -/
theorem victimLoop_lt {blocks : List Block} (hpos : 0 < blocks.length) :
    (CacheSet.victimLoop blocks 0 0 0).1 < blocks.length := by
  have hlt : ∀ {j : ℕ} {b : Block}, blocks[j]? = some b →
      CacheSet.victimLoop blocks 0 0 0 = (0 + j, b.lru) →
      (CacheSet.victimLoop blocks 0 0 0).1 < blocks.length := by
    intro j b hb heq
    rw [heq, Nat.zero_add]
    exact (List.getElem?_eq_some_iff.mp hb).1
  rcases Ranked.victimLoop_spec blocks 0 0 0 with
    ⟨j, b, hb, -, heq, -⟩ | ⟨-, -, ⟨heq, -⟩ | ⟨j, b, hb, heq⟩⟩
  · exact hlt hb heq
  · rw [heq]
    exact hpos
  · exact hlt hb heq

/-- Where there is a set, accesses are safe. -/
theorem Cache.Sized.safeAccess {config : CacheConfig} {cache : Cache} (h : cache.Sized config)
    (hsets : 1 ≤ config.numSets) (hmax : config.numSets < 2 ^ 32) (address : BitVec 64) :
    cache.SafeAccess address := by
  have hindex : (cache.config.intIndex address).toNat < cache.sets.length := by
    rw [h.config_eq, CacheConfig.intIndex_eq_index hmax, CacheConfig.index_toNat hmax,
      h.length_sets]
    exact TracksHistory.setOf_lt hsets _
  have hset := List.getElem?_eq_getElem hindex
  have hways := h.length_ways hset
  refine ⟨_, hset, fun i hi => ?_, fun hitIndex hhit => ?_, victimLoop_lt ?_⟩
  · rwa [hways, ← h.config_eq]
  · obtain ⟨b, hb, -⟩ := Ranked.of_lookup hhit
    exact (List.getElem?_eq_some_iff.mp hb).1
  · rw [hways]
    exact CacheConfig.ways_pos hsets

/-- **Cache indexing is safe exactly if the cache has a set.** For every configuration of
nonzero numbers that `parseArgs` can return, after any accesses, the next one is in bounds
exactly if the cache size is at least the size of a block for each way. -/
theorem index_safe_iff {cacheSize blockSize ways missLatency : BitVec 32}
    (hblock : blockSize ≠ 0) (hways : ways ≠ 0) (calls : List (BitVec 64 × CacheOperation))
    (address : BitVec 64) :
    ((Cache.new (.parsed cacheSize blockSize ways missLatency)).accesses calls).2.SafeAccess
        address ↔
      blockSize.toNat * ways.toNat ≤ cacheSize.toNat := by
  have hsized := (Cache.Sized.new (.parsed cacheSize blockSize ways missLatency)).accesses calls
  have hpos : ∀ {n : BitVec 32}, n ≠ 0 → 0 < n.toNat := by
    intro n hn
    bv_omega
  have hiff : 1 ≤ (CacheConfig.parsed cacheSize blockSize ways missLatency).numSets ↔
      blockSize.toNat * ways.toNat ≤ cacheSize.toNat :=
    CacheConfig.numSets_pos_iff (hpos hblock) (hpos hways)
  refine Iff.trans ⟨fun hsafe => ?_, fun hsets => ?_⟩ hiff
  · obtain ⟨set, hset, -⟩ := hsafe
    obtain ⟨hlt, -⟩ := List.getElem?_eq_some_iff.mp hset
    rw [hsized.length_sets] at hlt
    omega
  · exact hsized.safeAccess hsets (CacheConfig.numSets_lt ..) address

/-- A cache of 64 bytes with blocks of 64 bytes in two ways has no set. -/
theorem index_unsafe :
    (CacheConfig.parsed 64 64 2 1).numSets = 0 ∧
      ¬ (Cache.new (.parsed 64 64 2 1)).SafeAccess 0 := by
  refine ⟨by decide, ?_⟩
  rintro ⟨set, hset, -⟩
  exact absurd hset (by simp [Cache.new, CacheConfig.numSets, CacheConfig.parsed])

/-- The instruction cache of `cache_config.txt`. -/
theorem index_safe_config :
    ((Cache.new (.parsed 2048 16 2 5)).accesses [(0x1000, .cacheRead)]).2.SafeAccess 0x8000 :=
  (index_safe_iff (by decide) (by decide) _ _).mpr (by decide)

end RvPipeSim
