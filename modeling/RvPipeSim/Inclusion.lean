import RvPipeSim.Lru

/-!
# More ways keep more blocks

Two caches that select sets and cut tags alike, one with fewer ways, go through the same
accesses. In every set both then hold the first entries of one recency list, each as many as
it has ways (`Coupled`), so what the smaller one holds the larger one holds too.

Nothing is used of the index and the tag of an address but that the two caches agree on
them.
-/

namespace RvPipeSim

open Recency

/-- A valid way of a set holds a tag. -/
def Cache.Holds (cache : Cache) (set : ℕ) (tag : BitVec 64) : Prop :=
  ∃ s, cache.sets[set]? = some s ∧ ∃ b ∈ s.ways, b.isValid = true ∧ b.tag = tag

/-- The two caches have seen the same accesses, and the second has at least the ways of the
first. -/
structure Coupled (small large : Cache) : Prop where
  index_eq : ∀ address, small.config.index address = large.config.index address
  tag_eq : ∀ address, small.config.tag address = large.config.tag address
  ways_pos : 1 ≤ small.config.ways
  ways_le : small.config.ways ≤ large.config.ways
  length_eq : small.sets.length = large.sets.length
  ranked : ∀ {i : ℕ} {s l : CacheSet}, small.sets[i]? = some s → large.sets[i]? = some l →
    ∃ r, Ranked small.config.ways r s.ways ∧ Ranked large.config.ways r l.ways

namespace Coupled

variable {small large : Cache}

/-- What the smaller cache holds the larger one holds. -/
theorem holds (h : Coupled small large) {set : ℕ} {tag : BitVec 64} (hs : small.Holds set tag) :
    large.Holds set tag := by
  obtain ⟨s, hset, b, hmem, hvalid, htag⟩ := hs
  obtain ⟨hlt, -⟩ := List.getElem?_eq_some_iff.mp hset
  obtain ⟨l, hset'⟩ : ∃ l, large.sets[set]? = some l :=
    ⟨_, List.getElem?_eq_getElem (h.length_eq ▸ hlt)⟩
  obtain ⟨r, hsmall, hlarge⟩ := h.ranked hset hset'
  obtain ⟨j, hb⟩ := List.mem_iff_getElem?.mp hmem
  obtain ⟨hrank, hentry⟩ := hsmall.rank hb hvalid
  -- its rank is small enough for the larger cache
  obtain ⟨j', b', hb', hvalid', htag'⟩ :=
    hlarge.cover (Nat.lt_of_lt_of_le hrank h.ways_le) hentry
  exact ⟨l, hset', b', List.mem_of_getElem? hb', hvalid', htag'.trans htag⟩

/-- **One access**: a hit in the smaller cache is a hit in the larger one, and both move the
tag to the front. -/
theorem access (h : Coupled small large) (address : BitVec 64) (op op' : CacheOperation) :
    ((small.access address op).1 = true → (large.access address op').1 = true) ∧
      Coupled (small.access address op).2 (large.access address op').2 := by
  have hpos : 1 ≤ large.config.ways := Nat.le_trans h.ways_pos h.ways_le
  rw [Cache.access_eq, Cache.access_eq, ← h.index_eq address, ← h.tag_eq address]
  dsimp only
  by_cases hlt : (small.config.index address).toNat < small.sets.length
  · obtain ⟨s, hset⟩ : ∃ s, small.sets[(small.config.index address).toNat]? = some s :=
      ⟨_, List.getElem?_eq_getElem hlt⟩
    obtain ⟨l, hset'⟩ : ∃ l, large.sets[(small.config.index address).toNat]? = some l :=
      ⟨_, List.getElem?_eq_getElem (h.length_eq ▸ hlt)⟩
    obtain ⟨r, hsmall, hlarge⟩ := h.ranked hset hset'
    obtain ⟨hhit, hsmall'⟩ := hsmall.access h.ways_pos (small.config.tag address)
    obtain ⟨hhit', hlarge'⟩ := hlarge.access hpos (small.config.tag address)
    rw [List.getD_eq_getElem?_getD, List.getD_eq_getElem?_getD, hset, hset', Option.getD_some,
      Option.getD_some]
    refine ⟨fun hs => ?_, h.index_eq, h.tag_eq, h.ways_pos, h.ways_le, ?_, ?_⟩
    · obtain ⟨i, hi, hentry⟩ := hhit.mp hs
      exact hhit'.mpr ⟨i, Nat.lt_of_lt_of_le hi h.ways_le, hentry⟩
    · simpa using h.length_eq
    · intro i s' l' hs' hl'
      by_cases hi : (small.config.index address).toNat = i
      · subst hi
        rw [List.getElem?_set_self hlt] at hs'
        rw [List.getElem?_set_self (h.length_eq ▸ hlt)] at hl'
        obtain rfl := Option.some.inj hs'
        obtain rfl := Option.some.inj hl'
        exact ⟨_, hsmall', hlarge'⟩
      · rw [List.getElem?_set_ne hi] at hs' hl'
        exact h.ranked hs' hl'
  · -- no set is selected: both miss and stay as they are
    have hlt' : ¬ (small.config.index address).toNat < large.sets.length := h.length_eq ▸ hlt
    have hnone := List.getElem?_eq_none (Nat.le_of_not_lt hlt)
    rw [List.set_eq_of_length_le (Nat.le_of_not_lt hlt),
      List.set_eq_of_length_le (Nat.le_of_not_lt hlt'), List.getD_eq_getElem?_getD, hnone]
    exact ⟨fun hs => Bool.noConfusion hs, h.index_eq, h.tag_eq, h.ways_pos, h.ways_le,
      h.length_eq, h.ranked⟩

/-- Fresh caches. -/
theorem new {small large : CacheConfig} (hblock : small.blockSize = large.blockSize)
    (hsets : small.numSets = large.numSets) (hpos : 1 ≤ small.ways)
    (hways : small.ways ≤ large.ways) : Coupled (Cache.new small) (Cache.new large) where
  index_eq address := by
    simp only [Cache.new, CacheConfig.index, CacheConfig.offsetBits, CacheConfig.indexBits, hblock,
      hsets]
  tag_eq address := by
    simp only [Cache.new, CacheConfig.tag, CacheConfig.offsetBits, CacheConfig.indexBits, hblock,
      hsets]
  ways_pos := hpos
  ways_le := hways
  length_eq := by
    rw [Cache.new, Cache.new, List.length_replicate, List.length_replicate, hsets]
  ranked hs hl := by
    obtain ⟨-, rfl⟩ := List.getElem?_eq_some_iff.mp hs
    obtain ⟨-, rfl⟩ := List.getElem?_eq_some_iff.mp hl
    refine ⟨[], ?_, ?_⟩
    · simpa [Cache.new] using Ranked.fresh_set small.ways
    · simpa [Cache.new] using Ranked.fresh_set large.ways

/-- **A sequence of accesses.** -/
theorem accesses (h : Coupled small large) (calls : List (BitVec 64 × CacheOperation)) :
    (∀ i : ℕ, (small.accesses calls).1[i]? = some true → (large.accesses calls).1[i]? = some true) ∧
      Coupled (small.accesses calls).2 (large.accesses calls).2 := by
  induction calls generalizing small large with
  | nil => exact ⟨fun i hi => hi, h⟩
  | cons call calls ih =>
      obtain ⟨address, op⟩ := call
      obtain ⟨hhit, hnext⟩ := h.access address op op
      obtain ⟨hhits, hcoupled⟩ := ih hnext
      refine ⟨fun i hi => ?_, hcoupled⟩
      cases i with
      | zero => exact congrArg some (hhit (Option.some.inj hi))
      | succ i => exact hhits i hi

end Coupled

/-- **More ways never hurt.** Let two configurations have the same block size and the same
number of sets, at least one, and the second at least the ways of the first. Through any
sequence of accesses from fresh caches, every access that hits in the first hits in the
second, and what the first holds after it the second holds too. -/
theorem lru_inclusion {small large : CacheConfig} (hblock : small.blockSize = large.blockSize)
    (hsets : small.numSets = large.numSets) (hpos : 1 ≤ small.numSets)
    (hways : small.ways ≤ large.ways) (calls : List (BitVec 64 × CacheOperation)) :
    (∀ i : ℕ, ((Cache.new small).accesses calls).1[i]? = some true →
        ((Cache.new large).accesses calls).1[i]? = some true) ∧
      ∀ set tag, ((Cache.new small).accesses calls).2.Holds set tag →
        ((Cache.new large).accesses calls).2.Holds set tag := by
  obtain ⟨hhits, hcoupled⟩ :=
    (Coupled.new hblock hsets (CacheConfig.ways_pos hpos) hways).accesses calls
  exact ⟨hhits, fun set tag hs => hcoupled.holds hs⟩

/-- One way against two, two sets: the blocks 1 and 3 share a set, and only the larger cache
keeps both. -/
theorem lru_inclusion_two_ways :
    let small : CacheConfig := { cacheSize := 16, blockSize := 8, ways := 1, missLatency := 1 }
    let large : CacheConfig := { cacheSize := 32, blockSize := 8, ways := 2, missLatency := 1 }
    let calls := [(8, .cacheRead), (16, .cacheWrite), (24, .cacheRead), (16, .cacheRead),
      (8, .cacheRead)]
    ((Cache.new small).accesses calls).1 = [false, false, false, true, false] ∧
      ((Cache.new large).accesses calls).1 = [false, false, false, true, true] ∧
      ∀ set tag, ((Cache.new small).accesses calls).2.Holds set tag →
        ((Cache.new large).accesses calls).2.Holds set tag := by
  intro small large calls
  obtain ⟨-, hholds⟩ := @lru_inclusion small large rfl (by decide) (by decide) (by decide) calls
  exact ⟨by decide, by decide, hholds⟩

end RvPipeSim
