import RvPipeSim.Utilities

/-!
# The cache

`cache.cpp`: a set-associative cache whose ways carry a valid bit, a tag and an LRU rank.
`Cache.access` splits the address, looks the tag up in the selected set, and updates the
ranks by one of two loops, one for hits and one for misses; the miss loop first picks a
victim, an invalid way if there is one.

The quantities of a `CacheConfig` and the counters are natural numbers. The conversion of
`log2` to `uint64_t` is taken to be the floor of the binary logarithm, `Nat.log2`.
-/

namespace RvPipeSim

/-- A cache configuration. -/
structure CacheConfig where
  cacheSize : ℕ
  blockSize : ℕ
  ways : ℕ
  missLatency : ℕ
  deriving DecidableEq, Repr

namespace CacheConfig

/-- `(cacheSize / blockSize) / ways`. A division by zero is zero here, where the source dies of
it: a configuration without blocks or ways has no set. -/
def numSets (config : CacheConfig) : ℕ :=
  (config.cacheSize / config.blockSize) / config.ways

/-- `index_bits` of `Cache::access`. -/
def indexBits (config : CacheConfig) : ℕ := Nat.log2 config.numSets

/-- `offset_bits` of `Cache::access`. -/
def offsetBits (config : CacheConfig) : ℕ := Nat.log2 config.blockSize

/-- `(address >> offset_bits) & ((0x1 << index_bits) - 1)`. The source shifts an `int`: this
is its value for `index_bits ≤ 30`, and for 31 if `int` wraps around; from 32 on the shift is
undefined there. -/
def index (config : CacheConfig) (address : BitVec 64) : BitVec 64 :=
  (address >>> config.offsetBits) &&& ((1#64 <<< config.indexBits) - 1#64)

/-- `address >> (offset_bits + index_bits)`. -/
def tag (config : CacheConfig) (address : BitVec 64) : BitVec 64 :=
  address >>> (config.offsetBits + config.indexBits)

/-- A cache of one block, where a miss costs one cycle. -/
def oneBlock (bytes : ℕ) : CacheConfig where
  cacheSize := bytes
  blockSize := bytes
  ways := 1
  missLatency := 1

end CacheConfig

/-- One way of a set. -/
structure Block where
  isValid : Bool
  tag : BitVec 64
  lru : ℕ
  deriving DecidableEq, Repr, Inhabited

/-- One set of the cache (`struct Set`). -/
structure CacheSet where
  ways : List Block
  deriving DecidableEq, Repr, Inhabited

/-- Whether an access reads or writes. -/
inductive CacheOperation
  | cacheRead
  | cacheWrite
  deriving DecidableEq, Repr

/-- A cache, with the miss state `runCycles` parks in it between two calls. -/
structure Cache where
  hits : ℕ
  misses : ℕ
  sets : List CacheSet
  config : CacheConfig
  fetchMiss : Bool := false
  fetchStalls : ℕ := 0

/-- A fresh set: every way invalid, way `j` of rank `j`. -/
def CacheSet.fresh (ways : ℕ) : CacheSet where
  ways := (List.range ways).map fun j => { isValid := false, tag := 0, lru := j }

namespace CacheSet

/-- The lookup loop: the first valid way holding `tag`. -/
def lookup (set : CacheSet) (tag : BitVec 64) : Option ℕ :=
  set.ways.findIdx? fun block => block.isValid && block.tag == tag

/-- The hit loop: way `hitIndex` gets rank 0, ranks below its old rank move up. -/
def touch (set : CacheSet) (hitIndex oldLRU : ℕ) : CacheSet where
  ways := set.ways.mapIdx fun i block =>
    if i = hitIndex then { block with lru := 0 }
    else if block.lru < oldLRU then { block with lru := block.lru + 1 }
    else block

/-- The victim loop from way `i` on: the first invalid way, else the last way of the
largest rank. The result is the pair `(victimIndex, maxLRU)`. -/
def victimLoop : List Block → (i victimIndex maxLRU : ℕ) → ℕ × ℕ
  | [], _, victimIndex, maxLRU => (victimIndex, maxLRU)
  | block :: blocks, i, victimIndex, maxLRU =>
      if !block.isValid then (i, block.lru)
      else if block.lru ≥ maxLRU then victimLoop blocks (i + 1) i block.lru
      else victimLoop blocks (i + 1) victimIndex maxLRU

/-- The miss loop: the victim way takes the tag and rank 0, smaller ranks move up. -/
def replace (set : CacheSet) (victimIndex maxLRU : ℕ) (tag : BitVec 64) : CacheSet where
  ways := set.ways.mapIdx fun i block =>
    if i = victimIndex then { isValid := true, tag := tag, lru := 0 }
    else if block.lru < maxLRU then { block with lru := block.lru + 1 }
    else block

/-- What `Cache::access` does to the selected set, and whether it hits. -/
def access (set : CacheSet) (tag : BitVec 64) : Bool × CacheSet :=
  match set.lookup tag with
  | some hitIndex => (true, set.touch hitIndex (set.ways[hitIndex]?.map Block.lru |>.getD 0))
  | none =>
      let (victimIndex, maxLRU) := victimLoop set.ways 0 0 0
      (false, set.replace victimIndex maxLRU tag)

end CacheSet

namespace Cache

/-- `Cache::Cache`. -/
def new (config : CacheConfig) : Cache where
  hits := 0
  misses := 0
  sets := List.replicate config.numSets (CacheSet.fresh config.ways)
  config := config

/-- `Cache::access`: whether the access hits, and the cache after it. The operation is
an argument of the source that its body does not look at.

An access to a set that is not there finds the default one, without ways, and misses, where the
source reads out of bounds. In a cache that has a set no access does (`Cache.SafeAccess`). What
is true of the source only there asks for `1 ≤ numSets`: that accesses are exact LRU (`Lru`), how
many of them miss (`CacheMisses`, `DataTrace`), and that a run comes to its HALT (`Termination`,
`Contract`, `IsaRefinement`, `Programs`). The other results say what holds where a run has come
to, and no access of such a run was out of bounds. -/
def access (cache : Cache) (address : BitVec 64) (_readWrite : CacheOperation) : Bool × Cache :=
  let index := (cache.config.index address).toNat
  let (hit, currentSet) := (cache.sets.getD index default).access (cache.config.tag address)
  (hit, { cache with
    sets := cache.sets.set index currentSet
    hits := cache.hits + hit.toNat
    misses := cache.misses + (!hit).toNat })

end Cache

end RvPipeSim
