import Mathlib.Data.List.Perm.Subperm
import RvPipeSim.Lru

/-!
# The representation of a cache set

What the ways of a set look like after any sequence of accesses: the `lru` fields are a
permutation of the numbers below the associativity, the valid ways come first and have the
smallest ranks, and no tag is in two of them (`CacheSet.WellFormed`).

This is no invariant that an access keeps by itself. The miss loop moves the ranks below
that of the first invalid way, which are those of the valid ways only because an invalid way
`j` still has rank `j`. What an access keeps is `Ranked`, and `Ranked.wellFormed` reads the
representation off it.
-/

namespace RvPipeSim

/-- The representation of a set of associativity `ways`. -/
structure CacheSet.WellFormed (ways : ℕ) (set : CacheSet) : Prop where
  /-- The ranks are the numbers below `ways`, each once. -/
  ranks : (set.ways.map Block.lru).Perm (List.range ways)
  /-- The valid ways are the first `k`, and have the ranks below `k`. -/
  filled : ∃ k ≤ ways,
    (∀ {i : ℕ} {b : Block}, set.ways[i]? = some b → (b.isValid = true ↔ i < k)) ∧
      ((set.ways.take k).map Block.lru).Perm (List.range k)
  /-- No tag is in two valid ways. -/
  tags : ∀ {i j : ℕ} {b b' : Block}, set.ways[i]? = some b → set.ways[j]? = some b' →
    b.isValid = true → b'.isValid = true → b.tag = b'.tag → i = j

/-- Numbers below the length of a list that has none of them twice are a permutation. -/
theorem perm_range {l : List ℕ} {n : ℕ} (hlength : l.length = n) (hnodup : l.Nodup)
    (hlt : ∀ x ∈ l, x < n) : l.Perm (List.range n) := by
  have hsub : l.Subperm (List.range n) :=
    List.subperm_of_subset hnodup fun x hx => List.mem_range.mpr (hlt x hx)
  exact hsub.perm_of_length_le (Nat.le_of_eq (List.length_range.trans hlength.symm))

namespace Ranked

variable {ways : ℕ} {r : List (BitVec 64)} {blocks : List Block}

/-- Ranks stay below the associativity. -/
theorem lru_lt (h : Ranked ways r blocks) {j : ℕ} {b : Block} (hb : blocks[j]? = some b) :
    b.lru < ways := by
  cases hvalid : b.isValid with
  | true => exact (h.rank hb hvalid).1
  | false =>
      rw [h.fresh hb hvalid]
      exact h.lt_ways_of_getElem? hb

/-- A valid way has a rank below the number of entries. -/
theorem lru_lt_length (h : Ranked ways r blocks) {j : ℕ} {b : Block} (hb : blocks[j]? = some b)
    (hvalid : b.isValid = true) : b.lru < r.length :=
  (List.getElem?_eq_some_iff.mp (h.rank hb hvalid).2).1

/-- No rank is given twice: the ranks of the invalid ways are at least the number of
entries. -/
theorem lru_injective (h : Ranked ways r blocks) {j j' : ℕ} {b b' : Block}
    (hb : blocks[j]? = some b) (hb' : blocks[j']? = some b') (hlru : b.lru = b'.lru) :
    j = j' := by
  cases hvalid : b.isValid with
  | true =>
      cases hvalid' : b'.isValid with
      | true => exact h.eq_of_lru_eq hb hb' hvalid hvalid' hlru
      | false =>
          have hlt := h.lru_lt_length hb hvalid
          have hge := h.length_le_of_invalid hb' hvalid'
          have hown := h.fresh hb' hvalid'
          omega
  | false =>
      have hown := h.fresh hb hvalid
      cases hvalid' : b'.isValid with
      | true =>
          have hlt := h.lru_lt_length hb' hvalid'
          have hge := h.length_le_of_invalid hb hvalid
          omega
      | false =>
          have hown' := h.fresh hb' hvalid'
          omega

/-- No two ways have the same rank. -/
theorem lru_nodup (h : Ranked ways r blocks) : (blocks.map Block.lru).Nodup := by
  rw [List.Nodup, List.pairwise_map, List.pairwise_iff_getElem]
  intro i j hi hj hij hlru
  have heq := h.lru_injective (List.getElem?_eq_getElem hi) (List.getElem?_eq_getElem hj) hlru
  omega

/-- **The ways of a set in use have the representation.** -/
theorem wellFormed (h : Ranked ways r blocks) : CacheSet.WellFormed ways ⟨blocks⟩ where
  ranks := by
    refine perm_range ?_ h.lru_nodup fun x hx => ?_
    · rw [List.length_map, h.length]
    · obtain ⟨b, hmem, rfl⟩ := List.mem_map.mp hx
      obtain ⟨j, hb⟩ := List.mem_iff_getElem?.mp hmem
      exact h.lru_lt hb
  filled := by
    refine ⟨min r.length ways, Nat.min_le_right _ _, fun hb => ?_, perm_range ?_ ?_ fun x hx => ?_⟩
    · have hlt := h.lt_ways_of_getElem? hb
      rw [h.valid_iff hb]
      omega
    · rw [List.length_map, List.length_take, h.length]
      omega
    · exact h.lru_nodup.sublist ((List.take_sublist _ _).map _)
    · obtain ⟨b, hmem, rfl⟩ := List.mem_map.mp hx
      obtain ⟨j, hb⟩ := List.mem_iff_getElem?.mp hmem
      rw [List.getElem?_take] at hb
      split at hb
      · rename_i hlt
        have hvalid := (h.valid_iff hb).mpr (by omega)
        exact Nat.lt_min.mpr ⟨h.lru_lt_length hb hvalid, h.lru_lt hb⟩
      · exact absurd hb (by simp)
  tags := h.inj

end Ranked

/-! ### Every set of a cache -/

/-- **The representation invariant.** In a cache with at least one way, after any sequence of
accesses, every set has ranks that are a permutation of the numbers below the associativity,
valid ways that come first with the smallest ranks, and no tag twice. -/
theorem set_representation {config : CacheConfig} (hways : 1 ≤ config.ways)
    (calls : List (BitVec 64 × CacheOperation)) :
    ∀ set ∈ ((Cache.new config).accesses calls).2.sets, set.WellFormed config.ways := by
  intro set hset
  obtain ⟨r, hranked⟩ : ∃ r, Ranked config.ways r set.ways := by
    refine Cache.forall_sets_accesses (P := fun set => ∃ r, Ranked config.ways r set.ways)
      ?_ ?_ calls set hset
    · rintro set tag ⟨r, hr⟩
      exact ⟨_, (hr.access hways tag).2⟩
    · intro set hmem
      rw [Cache.new, List.mem_replicate] at hmem
      rw [hmem.2]
      exact ⟨[], Ranked.fresh_set config.ways⟩
  exact hranked.wellFormed

/-- Three tags in a set of two ways, the first of them used again in between. -/
theorem set_representation_two_ways :
    let config : CacheConfig := { cacheSize := 32, blockSize := 8, ways := 2, missLatency := 1 }
    let calls := [(0, .cacheRead), (16, .cacheWrite), (0, .cacheRead), (32, .cacheRead)]
    ((Cache.new config).accesses calls).2.sets.map (fun set => set.ways.map Block.lru) =
        [[1, 0], [0, 1]] ∧
      ∀ set ∈ ((Cache.new config).accesses calls).2.sets, set.WellFormed config.ways := by
  intro config calls
  exact ⟨by decide, set_representation (by decide) calls⟩

end RvPipeSim
