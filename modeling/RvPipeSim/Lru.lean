import RvPipeSim.Cache
import RvPipeSim.Lib.Recency

/-!
# The cache is set-associative LRU

`Ranked` relates the ways of one set to the recency list of the tags accessed in it: the
valid ways are the first ones, each holds the tag whose rank in the recency list is the
way's `lru` field, and every one of the first `ways` tags of the list is in some way. An
access keeps the relation (`Ranked.touch` for the hit loop, `Ranked.replace` for the miss
loop), and hits exactly when the tag is among the first `ways` of the list.

`access_exact_lru` lifts this to a whole cache and a whole sequence of accesses, stated in
terms of block addresses.

## Main results

* `Ranked.touch`, `Ranked.replace` — the two loops move the tag to the front of the recency
  list;
* `access_exact_lru` — after any accesses a block hits exactly if it is among the `ways` most
  recent ones of its set, and the counters count.
-/

namespace RvPipeSim

open Recency

/-! ### One set -/

/-- The ways `blocks` of a set of associativity `ways` hold the most recent entries of the
recency list `r`. -/
structure Ranked (ways : ℕ) (r : List (BitVec 64)) (blocks : List Block) : Prop where
  length : blocks.length = ways
  nodup : r.Nodup
  /-- The valid ways come first, and there is one for every entry of `r`. -/
  valid_iff : ∀ {j : ℕ} {b : Block}, blocks[j]? = some b → (b.isValid = true ↔ j < r.length)
  /-- A valid way holds the entry of `r` at its rank. -/
  rank : ∀ {j : ℕ} {b : Block}, blocks[j]? = some b → b.isValid = true →
    b.lru < ways ∧ r[b.lru]? = some b.tag
  /-- No tag is in two ways. -/
  inj : ∀ {j j' : ℕ} {b b' : Block}, blocks[j]? = some b → blocks[j']? = some b' →
    b.isValid = true → b'.isValid = true → b.tag = b'.tag → j = j'
  /-- The first `ways` entries of `r` are all there. -/
  cover : ∀ {i : ℕ} {t : BitVec 64}, i < ways → r[i]? = some t →
    ∃ (j : ℕ) (b : Block), blocks[j]? = some b ∧ b.isValid = true ∧ b.tag = t
  /-- An invalid way still has the rank it was built with. -/
  fresh : ∀ {j : ℕ} {b : Block}, blocks[j]? = some b → b.isValid = false → b.lru = j

namespace Ranked

variable {ways : ℕ} {r : List (BitVec 64)} {blocks : List Block} {tag : BitVec 64}

/-- A way that holds the entry of rank `i` has rank `i`. -/
theorem lru_eq (h : Ranked ways r blocks) {j i : ℕ} {b : Block} (hb : blocks[j]? = some b)
    (hvalid : b.isValid = true) (hi : r[i]? = some b.tag) : b.lru = i := by
  rw [← idxOf_eq_of_getElem? h.nodup (h.rank hb hvalid).2, idxOf_eq_of_getElem? h.nodup hi]

/-- Two valid ways of one rank are one. -/
theorem eq_of_lru_eq (h : Ranked ways r blocks) {j j' : ℕ} {b b' : Block}
    (hb : blocks[j]? = some b) (hb' : blocks[j']? = some b') (hvalid : b.isValid = true)
    (hvalid' : b'.isValid = true) (hlru : b.lru = b'.lru) : j = j' := by
  have htag := (h.rank hb hvalid).2
  rw [hlru, (h.rank hb' hvalid').2] at htag
  exact h.inj hb hb' hvalid hvalid' (Option.some.inj htag).symm

/-- A fresh set holds nothing. -/
theorem fresh_set (ways : ℕ) : Ranked ways [] (CacheSet.fresh ways).ways := by
  have hget : ∀ {j : ℕ} {b : Block}, (CacheSet.fresh ways).ways[j]? = some b →
      b.isValid = false ∧ b.lru = j := by
    intro j b hb
    simp only [CacheSet.fresh, List.getElem?_map, Option.map_eq_some_iff] at hb
    obtain ⟨i, hi, rfl⟩ := hb
    obtain ⟨hlt, hij⟩ := List.getElem?_eq_some_iff.mp hi
    rw [List.getElem_range] at hij
    exact ⟨rfl, hij.symm⟩
  refine ⟨by simp [CacheSet.fresh], .nil, fun hb => ?_, fun hb hvalid => ?_,
    fun hb _ hvalid => ?_, fun _ hi => ?_, fun hb _ => (hget hb).2⟩
  · simp [(hget hb).1]
  · simp [(hget hb).1] at hvalid
  · simp [(hget hb).1] at hvalid
  · simp at hi

/-- The lookup loop finds the tag exactly when it is among the first `ways` entries. -/
theorem lookup_isSome_iff (h : Ranked ways r blocks) :
    (CacheSet.lookup ⟨blocks⟩ tag).isSome = true ↔ ∃ i < ways, r[i]? = some tag := by
  rw [CacheSet.lookup, List.findIdx?_isSome, List.any_eq_true]
  simp only [Bool.and_eq_true, beq_iff_eq]
  constructor
  · rintro ⟨b, hmem, hvalid, rfl⟩
    obtain ⟨j, hb⟩ := List.mem_iff_getElem?.mp hmem
    exact ⟨b.lru, h.rank hb hvalid⟩
  · rintro ⟨i, hlt, hi⟩
    obtain ⟨j, b, hb, hvalid, htag⟩ := h.cover hlt hi
    exact ⟨b, List.mem_of_getElem? hb, hvalid, htag⟩

/-- What the lookup loop returns is a valid way holding the tag. -/
theorem of_lookup {j : ℕ} (hj : CacheSet.lookup ⟨blocks⟩ tag = some j) :
    ∃ b, blocks[j]? = some b ∧ b.isValid = true ∧ b.tag = tag := by
  rw [CacheSet.lookup, List.findIdx?_eq_some_iff_getElem] at hj
  obtain ⟨hlt, hp, -⟩ := hj
  rw [Bool.and_eq_true, beq_iff_eq] at hp
  exact ⟨_, List.getElem?_eq_getElem hlt, hp⟩

/-- What both loops do to way `i`: way `v` takes the tag to the front, and smaller ranks
than `m` move up. -/
def promoted (tag : BitVec 64) (v m i : ℕ) (block : Block) : Block :=
  if i = v then { isValid := true, tag := tag, lru := 0 }
  else if block.lru < m then { block with lru := block.lru + 1 }
  else block

/-- A replacement promotes every way as the recency rule says. -/
theorem replace_ways (blocks : List Block) (v m : ℕ) (tag : BitVec 64) :
    (CacheSet.replace ⟨blocks⟩ v m tag).ways = blocks.mapIdx (promoted tag v m) := rfl

/-- The hit loop writes what is there into the way that holds the tag. -/
theorem touch_ways {j : ℕ} {hit : Block} (hj : blocks[j]? = some hit)
    (hvalid : hit.isValid = true) :
    (CacheSet.touch ⟨blocks⟩ j hit.lru).ways = blocks.mapIdx (promoted hit.tag j hit.lru) := by
  refine List.ext_getElem? fun i => ?_
  rw [CacheSet.touch, List.getElem?_mapIdx, List.getElem?_mapIdx]
  by_cases hij : i = j
  · subst hij
    rw [hj, Option.map_some, Option.map_some, promoted, if_pos rfl, if_pos rfl, ← hvalid]
  · cases blocks[i]? with
    | none => rfl
    | some b => rw [Option.map_some, Option.map_some, promoted, if_neg hij, if_neg hij]

/-- Way `v`, with all ranks below `m` moved up, can take the tag to the front. -/
structure Promotable (ways : ℕ) (r : List (BitVec 64)) (blocks : List Block) (tag : BitVec 64)
    (v m : ℕ) : Prop where
  lt_ways : m < ways
  le_length : m ≤ r.length
  /-- The old place of the tag, if it has one, is not in front of rank `m`. -/
  le_idxOf : m ≤ r.idxOf tag
  /-- No other way has a rank between the two. -/
  apart : ∀ {j : ℕ} {b : Block}, blocks[j]? = some b → j ≠ v → b.isValid = true →
    b.lru < m ∨ r.idxOf tag < b.lru
  /-- The valid ways come first again. -/
  filled : v < (moveToFront tag r).length
  same : ∀ i < ways, i ≠ v → (i < r.length ↔ i < (moveToFront tag r).length)
  /-- What way `v` held does not belong to the first `ways` any more. -/
  dropped : ∀ {b : Block}, blocks[v]? = some b → b.isValid = true → b.tag ≠ tag →
    ∀ i < ways, (moveToFront tag r)[i]? ≠ some b.tag

/-- No other way holds the tag. -/
theorem Promotable.tag_ne (h : Ranked ways r blocks) {v m : ℕ}
    (hpro : Promotable ways r blocks tag v m) {j : ℕ} {b : Block} (hb : blocks[j]? = some b)
    (hne : j ≠ v) (hvalid : b.isValid = true) : b.tag ≠ tag := by
  intro htag
  have hidx : r.idxOf tag = b.lru := by
    rw [← htag]
    exact idxOf_eq_of_getElem? h.nodup (h.rank hb hvalid).2
  have hle := hpro.le_idxOf
  rcases hpro.apart hb hne hvalid with hlt | hlt <;> omega

/-- An entry of the first `ways` after the move was among them before it. -/
theorem before_of_moveToFront {i : ℕ} {t : BitVec 64} (hne : t ≠ tag) (hi : i < ways)
    (ht : (moveToFront tag r)[i]? = some t) : ∃ i' < ways, r[i']? = some t := by
  cases i with
  | zero => exact absurd (Option.some.inj ht).symm hne
  | succ i =>
      rw [moveToFront_getElem?_succ] at ht
      split_ifs at ht
      · exact ⟨i, by omega, ht⟩
      · exact ⟨i + 1, hi, ht⟩

/-- An invalid way comes behind all entries. -/
theorem length_le_of_invalid (h : Ranked ways r blocks) {j : ℕ} {b : Block}
    (hb : blocks[j]? = some b) (hinvalid : b.isValid = false) : r.length ≤ j := by
  by_contra hlt
  have hvalid := (h.valid_iff hb).mpr (by omega)
  exact Bool.noConfusion (hinvalid.symm.trans hvalid)

/-- A way that is there has an index below the number of ways. -/
theorem lt_ways_of_getElem? (h : Ranked ways r blocks) {j : ℕ} {b : Block}
    (hb : blocks[j]? = some b) : j < ways := by
  rw [← h.length]
  exact (List.getElem?_eq_some_iff.mp hb).1

/-- The way `i` after a replacement is the old way `i`, promoted. -/
theorem promoted_getElem? {v m i : ℕ} {old : Block} (hold : blocks[i]? = some old) :
    (blocks.mapIdx (promoted tag v m))[i]? = some (promoted tag v m i old) := by
  rw [List.getElem?_mapIdx, hold, Option.map_some]

/-- A new way is the one that takes the tag, or comes from a way that keeps its tag. -/
theorem of_promoted {v m i : ℕ} {b : Block}
    (hb : (blocks.mapIdx (promoted tag v m))[i]? = some b) :
    i = v ∧ b = { isValid := true, tag := tag, lru := 0 } ∨
      i ≠ v ∧ ∃ old, blocks[i]? = some old ∧ b.isValid = old.isValid ∧ b.tag = old.tag ∧
        b.lru = if old.lru < m then old.lru + 1 else old.lru := by
  rw [List.getElem?_mapIdx, Option.map_eq_some_iff] at hb
  obtain ⟨old, hold, rfl⟩ := hb
  rw [promoted]
  by_cases hiv : i = v
  · rw [if_pos hiv]
    exact .inl ⟨hiv, rfl⟩
  · rw [if_neg hiv]
    refine .inr ⟨hiv, old, hold, ?_⟩
    split_ifs <;> exact ⟨rfl, rfl, rfl⟩

/-- **Both loops move the tag to the front.** -/
theorem promote (h : Ranked ways r blocks) {v m : ℕ} {bv : Block} (hbv : blocks[v]? = some bv)
    (hpro : Promotable ways r blocks tag v m) :
    Ranked ways (moveToFront tag r) (blocks.mapIdx (promoted tag v m)) := by
  constructor
  case length =>
    rw [List.length_mapIdx]
    exact h.length
  case nodup => exact moveToFront_nodup h.nodup
  case valid_iff =>
    intro i b hb
    rcases of_promoted hb with ⟨rfl, rfl⟩ | ⟨hiv, old, hold, hval, -⟩
    · exact ⟨fun _ => hpro.filled, fun _ => rfl⟩
    · rw [hval, h.valid_iff hold]
      exact hpro.same i (h.lt_ways_of_getElem? hold) hiv
  case rank =>
    intro i b hb hvalid
    rcases of_promoted hb with ⟨rfl, rfl⟩ | ⟨hiv, old, hold, hval, htag, hlru⟩
    · exact ⟨Nat.lt_of_le_of_lt (Nat.zero_le _) hpro.lt_ways, rfl⟩
    · rw [hval] at hvalid
      obtain ⟨hlt, hrank⟩ := h.rank hold hvalid
      have hways := hpro.lt_ways
      have hidx := hpro.le_idxOf
      rw [hlru, htag]
      rcases hpro.apart hold hiv hvalid with hfront | hbehind
      · rw [if_pos hfront, moveToFront_getElem?_of_lt (by omega)]
        exact ⟨by omega, hrank⟩
      · rw [if_neg (by omega), moveToFront_getElem?_of_gt hbehind]
        exact ⟨hlt, hrank⟩
  case inj =>
    intro i i' b b' hb hb' hvalid hvalid' heq
    rcases of_promoted hb with ⟨rfl, rfl⟩ | ⟨hiv, old, hold, hval, htag, -⟩
    · rcases of_promoted hb' with ⟨rfl, rfl⟩ | ⟨hiv', old', hold', hval', htag', -⟩
      · rfl
      · rw [hval'] at hvalid'
        rw [htag'] at heq
        exact absurd heq.symm (hpro.tag_ne h hold' hiv' hvalid')
    · rw [hval] at hvalid
      rw [htag] at heq
      rcases of_promoted hb' with ⟨rfl, rfl⟩ | ⟨-, old', hold', hval', htag', -⟩
      · exact absurd heq (hpro.tag_ne h hold hiv hvalid)
      · rw [hval'] at hvalid'
        rw [htag'] at heq
        exact h.inj hold hold' hvalid hvalid' heq
  case cover =>
    intro i t hi ht
    by_cases htag : t = tag
    · refine ⟨v, _, promoted_getElem? hbv, ?_⟩
      rw [promoted, if_pos rfl]
      exact ⟨rfl, htag.symm⟩
    · obtain ⟨i', hi', ht'⟩ := before_of_moveToFront htag hi ht
      obtain ⟨k, old, hold, hval, hkt⟩ := h.cover hi' ht'
      have hkv : k ≠ v := by
        rintro rfl
        rw [← hkt] at ht htag
        exact hpro.dropped hold hval htag i hi ht
      refine ⟨k, _, promoted_getElem? hold, ?_⟩
      rw [promoted, if_neg hkv]
      split_ifs <;> exact ⟨hval, hkt⟩
  case fresh =>
    intro i b hb hinvalid
    rcases of_promoted hb with ⟨rfl, rfl⟩ | ⟨-, old, hold, hval, -, hlru⟩
    · exact Bool.noConfusion hinvalid
    · rw [hval] at hinvalid
      have hlen := h.length_le_of_invalid hold hinvalid
      have hle := hpro.le_length
      rw [hlru, h.fresh hold hinvalid, if_neg (by omega)]

/-- **Hit.** The hit loop moves the tag to the front. -/
theorem touch (h : Ranked ways r blocks) {j : ℕ} {hit : Block} (hj : blocks[j]? = some hit)
    (hvalid : hit.isValid = true) (htag : hit.tag = tag) :
    Ranked ways (moveToFront tag r) (CacheSet.touch ⟨blocks⟩ j hit.lru).ways := by
  subst htag
  obtain ⟨hlt, hrank⟩ := h.rank hj hvalid
  have hidx : r.idxOf hit.tag = hit.lru := idxOf_eq_of_getElem? h.nodup hrank
  have hlen : (moveToFront hit.tag r).length = r.length := by
    rw [moveToFront_length, if_pos (List.mem_of_getElem? hrank)]
  rw [touch_ways hj hvalid]
  refine h.promote hj ⟨hlt, ?_, Nat.le_of_eq hidx.symm, fun {i b} hb hne hval => ?_, ?_,
    fun i _ _ => ?_, fun {b} hb _ hne => ?_⟩
  · exact Nat.le_of_lt (List.getElem?_eq_some_iff.mp hrank).1
  · have hneq : b.lru ≠ hit.lru := fun heq => hne (h.eq_of_lru_eq hb hj hval hvalid heq)
    omega
  · rw [hlen]
    exact (h.valid_iff hj).mp hvalid
  · rw [hlen]
  · obtain rfl : hit = b := Option.some.inj (hj.symm.trans hb)
    exact absurd rfl hne

/-- What the victim loop chooses: the first invalid way, or the way of the last rank that
still fits. -/
structure Victim (ways : ℕ) (r : List (BitVec 64)) (blocks : List Block) (v m : ℕ) : Prop where
  getElem : ∃ b, blocks[v]? = some b ∧ b.lru = m
  /-- Every other valid way has a smaller rank. -/
  below : ∀ {j : ℕ} {b : Block}, blocks[j]? = some b → j ≠ v → b.isValid = true → b.lru < m
  place : (v = r.length ∧ m = r.length ∧ r.length < ways) ∨ (m + 1 = ways ∧ ways ≤ r.length)

/-- The victim loop stops at the first invalid way, or runs through and keeps a maximum. -/
theorem victimLoop_spec (blocks : List Block) (i v m : ℕ) :
    (∃ j b, blocks[j]? = some b ∧ b.isValid = false ∧
        CacheSet.victimLoop blocks i v m = (i + j, b.lru) ∧
        ∀ j' < j, ∀ b', blocks[j']? = some b' → b'.isValid = true) ∨
      ((∀ b ∈ blocks, b.isValid = true ∧ b.lru ≤ (CacheSet.victimLoop blocks i v m).2) ∧
        m ≤ (CacheSet.victimLoop blocks i v m).2 ∧
        (CacheSet.victimLoop blocks i v m = (v, m) ∧ (∀ b ∈ blocks, b.lru < m) ∨
          ∃ j b, blocks[j]? = some b ∧ CacheSet.victimLoop blocks i v m = (i + j, b.lru))) := by
  induction blocks generalizing i v m with
  | nil => exact .inr ⟨by simp, Nat.le_refl _, .inl ⟨rfl, by simp⟩⟩
  | cons block blocks ih =>
      cases hvalid : block.isValid with
      | false =>
          refine .inl ⟨0, block, rfl, hvalid, ?_, fun j' hj' => absurd hj' (Nat.not_lt_zero _)⟩
          rw [CacheSet.victimLoop, hvalid]
          rfl
      | true =>
          -- the loop goes on with a running maximum, this way's rank or the old one
          obtain ⟨v', m', hloop, hrank, hold, hfrom⟩ : ∃ v' m',
              CacheSet.victimLoop (block :: blocks) i v m =
                CacheSet.victimLoop blocks (i + 1) v' m' ∧ block.lru ≤ m' ∧ m ≤ m' ∧
              ((v', m') = (i, block.lru) ∨ (v', m') = (v, m) ∧ block.lru < m) := by
            rw [CacheSet.victimLoop, hvalid, if_neg (by decide)]
            split_ifs with hge
            · exact ⟨i, block.lru, rfl, Nat.le_refl _, hge, .inl rfl⟩
            · exact ⟨v, m, rfl, by omega, Nat.le_refl _, .inr ⟨rfl, by omega⟩⟩
          rw [hloop]
          rcases ih (i + 1) v' m' with ⟨j, b, hb, hinv, heq, hbefore⟩ | ⟨hall, hm, hres⟩
          · refine .inl ⟨j + 1, b, hb, hinv, ?_, fun j' hj' b' hb' => ?_⟩
            · rw [heq, Nat.add_right_comm]
              rfl
            · cases j' with
              | zero => exact Option.some.inj hb' ▸ hvalid
              | succ j' => exact hbefore j' (by omega) b' hb'
          · refine .inr ⟨fun b hb => ?_, Nat.le_trans hold hm, ?_⟩
            · rcases List.mem_cons.mp hb with rfl | hb
              · exact ⟨hvalid, Nat.le_trans hrank hm⟩
              · exact hall b hb
            · rcases hres with ⟨heq, hlt⟩ | ⟨j, b, hb, heq⟩
              · rcases hfrom with hfrom | ⟨hfrom, hlt'⟩
                · exact .inr ⟨0, block, rfl, heq.trans hfrom⟩
                · obtain ⟨rfl, rfl⟩ := Prod.mk.inj hfrom
                  refine .inl ⟨heq, fun b hb => ?_⟩
                  rcases List.mem_cons.mp hb with rfl | hb
                  · exact hlt'
                  · exact hlt b hb
              · refine .inr ⟨j + 1, b, hb, ?_⟩
                rw [heq, Nat.add_right_comm]
                rfl

/-- The victim loop chooses a victim. -/
theorem victim (h : Ranked ways r blocks) (hways : 1 ≤ ways) :
    Victim ways r blocks (CacheSet.victimLoop blocks 0 0 0).1
      (CacheSet.victimLoop blocks 0 0 0).2 := by
  rcases victimLoop_spec blocks 0 0 0 with ⟨v, bv, hbv, hinv, heq, hbefore⟩ | ⟨hall, -, hres⟩
  · -- the first invalid way is the way number `r.length`
    rw [heq, Nat.zero_add]
    have hge : r.length ≤ v := h.length_le_of_invalid hbv hinv
    have hle : v ≤ r.length := by
      refine Nat.le_of_not_lt fun hlt => ?_
      have hlt' : r.length < blocks.length := by
        rw [h.length]
        exact Nat.lt_trans hlt (h.lt_ways_of_getElem? hbv)
      obtain ⟨b, hb⟩ : ∃ b, blocks[r.length]? = some b := ⟨_, List.getElem?_eq_getElem hlt'⟩
      have := (h.valid_iff hb).mp (hbefore _ hlt b hb)
      omega
    have hv : v = r.length := Nat.le_antisymm hle hge
    have hm : bv.lru = r.length := (h.fresh hbv hinv).trans hv
    refine ⟨⟨bv, hbv, rfl⟩, fun hb _ hvalid => ?_, .inl ⟨hv, hm, hv ▸ h.lt_ways_of_getElem? hbv⟩⟩
    rw [hm]
    exact (List.getElem?_eq_some_iff.mp (h.rank hb hvalid).2).1
  · -- all ways are valid, so their ranks are the numbers below `ways`
    have hvalid : ∀ {j : ℕ} {b : Block}, blocks[j]? = some b → b.isValid = true :=
      fun hb => (hall _ (List.mem_of_getElem? hb)).1
    have hget : ∀ j < ways, ∃ b, blocks[j]? = some b := fun j hj =>
      ⟨_, List.getElem?_eq_getElem (by rw [h.length]; exact hj)⟩
    have hfull : ways ≤ r.length := by
      obtain ⟨b, hb⟩ := hget (ways - 1) (by omega)
      have := (h.valid_iff hb).mp (hvalid hb)
      omega
    obtain ⟨v, bv, hbv, heq⟩ : ∃ j b, blocks[j]? = some b ∧
        CacheSet.victimLoop blocks 0 0 0 = (0 + j, b.lru) := by
      rcases hres with ⟨-, hnone⟩ | hsome
      · obtain ⟨b, hb⟩ := hget 0 hways
        exact absurd (hnone b (List.mem_of_getElem? hb)) (Nat.not_lt_zero _)
      · exact hsome
    rw [heq, Nat.zero_add] at hall ⊢
    have hlast : bv.lru + 1 = ways := by
      obtain ⟨j, b, hb, hval, htag⟩ := h.cover (i := ways - 1) (by omega)
        (List.getElem?_eq_getElem (by omega))
      have hlru : b.lru = ways - 1 := by
        refine h.lru_eq hb hval ?_
        rw [htag]
        exact List.getElem?_eq_getElem (by omega)
      have hle : b.lru ≤ bv.lru := (hall b (List.mem_of_getElem? hb)).2
      have hlt := (h.rank hbv (hvalid hbv)).1
      omega
    refine ⟨⟨bv, hbv, rfl⟩, fun {j b} hb hne hval => ?_, .inr ⟨hlast, hfull⟩⟩
    have hle : b.lru ≤ bv.lru := (hall b (List.mem_of_getElem? hb)).2
    have hne' : b.lru ≠ bv.lru := fun heq => hne (h.eq_of_lru_eq hb hbv hval (hvalid hbv) heq)
    omega

/-- The victim can take a tag that is not among the first `ways`. -/
theorem Victim.promotable (h : Ranked ways r blocks) (hmiss : ∀ i < ways, r[i]? ≠ some tag)
    {v m : ℕ} (hvic : Victim ways r blocks v m) : Promotable ways r blocks tag v m := by
  obtain ⟨bv, hbv, hlru⟩ := hvic.getElem
  -- the old rank of the tag, if it has one, does not fit
  have hold : tag ∈ r → ways ≤ r.idxOf tag := fun hmem =>
    Nat.le_of_not_lt fun hlt => hmiss _ hlt (List.getElem?_idxOf hmem)
  have hidx : m ≤ r.idxOf tag := by
    by_cases hmem : tag ∈ r
    · have hge := hold hmem
      rcases hvic.place with ⟨-, hm, hlt⟩ | ⟨hm, -⟩ <;> omega
    · rw [List.idxOf_eq_length hmem]
      rcases hvic.place with ⟨-, hm, -⟩ | ⟨hm, hle⟩ <;> omega
  have hlen : v < (moveToFront tag r).length ∧
      ∀ i < ways, i ≠ v → (i < r.length ↔ i < (moveToFront tag r).length) := by
    rw [moveToFront_length]
    rcases hvic.place with ⟨hv, -, hlt⟩ | ⟨-, hfull⟩
    · have hmem : tag ∉ r := fun hmem => by
        have hge := hold hmem
        have hle := List.idxOf_lt_length_of_mem hmem
        omega
      rw [if_neg hmem]
      exact ⟨by omega, fun i _ hne => by omega⟩
    · have hv := h.lt_ways_of_getElem? hbv
      split_ifs <;> exact ⟨by omega, fun i hi _ => by omega⟩
  constructor
  case lt_ways => rcases hvic.place with ⟨-, hm, hlt⟩ | ⟨hm, -⟩ <;> omega
  case le_length => rcases hvic.place with ⟨-, hm, -⟩ | ⟨hm, hfull⟩ <;> omega
  case le_idxOf => exact hidx
  case apart => exact fun hb hne hval => .inl (hvic.below hb hne hval)
  case filled => exact hlen.1
  case same => exact hlen.2
  case dropped =>
    intro b hb hval hne i hi ht
    obtain rfl : bv = b := Option.some.inj (hbv.symm.trans hb)
    have hlt := (h.valid_iff hb).mp hval
    rcases hvic.place with ⟨hv, -, -⟩ | ⟨hm, -⟩
    · omega
    · cases i with
      | zero => exact hne (Option.some.inj ht).symm
      | succ i =>
          rw [moveToFront_getElem?_of_lt (by omega)] at ht
          have hrank := h.lru_eq hb hval ht
          omega

/-- **Miss.** The miss loop puts the tag in front and drops what does not fit. -/
theorem replace (h : Ranked ways r blocks) (hmiss : ∀ i < ways, r[i]? ≠ some tag) {v m : ℕ}
    (hvic : Victim ways r blocks v m) :
    Ranked ways (moveToFront tag r) (CacheSet.replace ⟨blocks⟩ v m tag).ways := by
  obtain ⟨bv, hbv, -⟩ := hvic.getElem
  rw [replace_ways]
  exact h.promote hbv (hvic.promotable h hmiss)

/-- **One access to a set.** It hits exactly when the tag is among the first `ways` of the
recency list, and moves the tag to the front. -/
theorem access (h : Ranked ways r blocks) (hways : 1 ≤ ways) (tag : BitVec 64) :
    ((CacheSet.access ⟨blocks⟩ tag).1 = true ↔ ∃ i < ways, r[i]? = some tag) ∧
      Ranked ways (moveToFront tag r) (CacheSet.access ⟨blocks⟩ tag).2.ways := by
  rw [← h.lookup_isSome_iff]
  cases hlookup : CacheSet.lookup ⟨blocks⟩ tag with
  | some j =>
      obtain ⟨b, hb, hvalid, htag⟩ := of_lookup hlookup
      rw [CacheSet.access, hlookup]
      refine ⟨by simp, ?_⟩
      simpa [hb] using h.touch hb hvalid htag
  | none =>
      rw [CacheSet.access, hlookup]
      refine ⟨by simp, h.replace (fun i hi hget => ?_) (h.victim hways)⟩
      have := h.lookup_isSome_iff.mpr ⟨i, hi, hget⟩
      rw [hlookup] at this
      exact Bool.noConfusion this

end Ranked

/-! ### Addresses -/

namespace CacheConfig

/-- The block an address is in. -/
def block (config : CacheConfig) (address : BitVec 64) : ℕ :=
  address.toNat >>> Nat.log2 config.blockSize

/-- The set a block belongs to. -/
def setOf (config : CacheConfig) (block : ℕ) : ℕ := block % 2 ^ Nat.log2 config.numSets

variable {config : CacheConfig}

/-- A cache with a set has ways. -/
theorem ways_pos (hsets : 1 ≤ config.numSets) : 1 ≤ config.ways := by
  refine Nat.one_le_iff_ne_zero.mpr fun hzero => ?_
  rw [numSets, hzero, Nat.div_zero] at hsets
  exact absurd hsets (by decide)

/-- The index of a set takes fewer than 32 bits. -/
theorem indexBits_lt (hmax : config.numSets < 2 ^ 32) : config.indexBits < 32 := by
  by_cases hzero : config.numSets = 0
  · rw [indexBits, hzero]
    decide
  · exact (Nat.log2_lt hzero).mpr (by omega)

/-- The index field selects the set of the block. -/
theorem index_toNat (hmax : config.numSets < 2 ^ 32) (address : BitVec 64) :
    (config.index address).toNat = config.setOf (config.block address) := by
  have hbits := indexBits_lt hmax
  have hpow : 2 ^ config.indexBits < 2 ^ 64 := Nat.pow_lt_pow_right (by decide) (by omega)
  have hpos : 0 < 2 ^ config.indexBits := Nat.two_pow_pos _
  have hmask : ((1#64 <<< config.indexBits) - 1#64).toNat = 2 ^ config.indexBits - 1 := by
    have hone : (1#64 <<< config.indexBits).toNat = 2 ^ config.indexBits := by
      rw [BitVec.toNat_shiftLeft, Nat.shiftLeft_eq, BitVec.toNat_ofNat,
        Nat.one_mod_two_pow (by omega), Nat.one_mul, Nat.mod_eq_of_lt hpow]
    rw [BitVec.toNat_sub_of_le (by rw [BitVec.le_def, hone]; exact hpos), hone]
    rfl
  rw [index, BitVec.toNat_and, hmask, Nat.and_two_pow_sub_one_eq_mod, BitVec.toNat_ushiftRight]
  rfl

/-- Tag and set together are the block. -/
theorem block_eq (config : CacheConfig) (address : BitVec 64) :
    config.block address =
      (config.tag address).toNat * 2 ^ config.indexBits +
        config.setOf (config.block address) := by
  have htag : (config.tag address).toNat = config.block address / 2 ^ config.indexBits := by
    rw [tag, BitVec.toNat_ushiftRight, Nat.shiftRight_add, Nat.shiftRight_eq_div_pow]
    rfl
  rw [htag, Nat.mul_comm, setOf, indexBits]
  exact (Nat.div_add_mod _ _).symm

/-- In one set, the tags name the blocks. -/
theorem blocks_of_set (set : ℕ) (addresses : List (BitVec 64)) :
    (addresses.map config.block).filter (fun b => config.setOf b = set) =
      ((addresses.filter fun a => config.setOf (config.block a) = set).map config.tag).map
        fun t => t.toNat * 2 ^ config.indexBits + set := by
  rw [List.filter_map, List.map_map]
  refine List.map_congr_left fun a ha => ?_
  have hset : config.setOf (config.block a) = set := by simpa using (List.mem_filter.mp ha).2
  rw [Function.comp_apply, ← hset, ← config.block_eq a]

/-- In one set, different tags are different blocks of memory. -/
theorem tag_to_block_injective (config : CacheConfig) (set : ℕ) : Function.Injective
    fun t : BitVec 64 => t.toNat * 2 ^ config.indexBits + set := by
  intro t t' h
  have hmul : t.toNat * 2 ^ config.indexBits = t'.toNat * 2 ^ config.indexBits :=
    Nat.add_right_cancel h
  exact BitVec.eq_of_toNat_eq (Nat.eq_of_mul_eq_mul_right (Nat.two_pow_pos _) hmul)

end CacheConfig

/-! ### The whole cache -/

/-- One access, in the set the index selects. -/
theorem Cache.access_eq (cache : Cache) (address : BitVec 64) (op : CacheOperation) :
    cache.access address op =
      ((((cache.sets.getD (cache.config.index address).toNat default).access
          (cache.config.tag address)).1),
        { cache with
          sets := cache.sets.set (cache.config.index address).toNat
            ((cache.sets.getD (cache.config.index address).toNat default).access
              (cache.config.tag address)).2
          hits := cache.hits + ((cache.sets.getD (cache.config.index address).toNat
            default).access (cache.config.tag address)).1.toNat
          misses := cache.misses + (!((cache.sets.getD (cache.config.index address).toNat
            default).access (cache.config.tag address)).1).toNat }) := rfl

/-- The results of a sequence of accesses, and the cache after it. -/
def Cache.accesses (cache : Cache) : List (BitVec 64 × CacheOperation) → List Bool × Cache
  | [] => ([], cache)
  | (address, op) :: calls =>
      let (hit, cache) := cache.access address op
      let (hits, cache) := cache.accesses calls
      (hit :: hits, cache)

section Sets

variable {P : CacheSet → Prop} {cache : Cache}

/-- What an access to a set keeps, an access to the cache keeps in every set. -/
theorem Cache.forall_sets_access (hstep : ∀ set tag, P set → P (set.access tag).2)
    (h : ∀ set ∈ cache.sets, P set) (address : BitVec 64) (op : CacheOperation) :
    ∀ set ∈ (cache.access address op).2.sets, P set := by
  rw [Cache.access_eq]
  dsimp only
  intro set hset
  rw [List.getD_eq_getElem?_getD] at hset
  cases hold : cache.sets[(cache.config.index address).toNat]? with
  | some old =>
      rw [hold, Option.getD_some] at hset
      rcases List.mem_or_eq_of_mem_set hset with hmem | rfl
      · exact h set hmem
      · exact hstep old _ (h old (List.mem_of_getElem? hold))
  | none =>
      -- no set is selected, and none is changed
      rw [List.set_eq_of_length_le (List.getElem?_eq_none_iff.mp hold)] at hset
      exact h set hset

/-- So does a sequence of accesses. -/
theorem Cache.forall_sets_accesses (hstep : ∀ set tag, P set → P (set.access tag).2)
    (h : ∀ set ∈ cache.sets, P set) (calls : List (BitVec 64 × CacheOperation)) :
    ∀ set ∈ (cache.accesses calls).2.sets, P set := by
  induction calls generalizing cache with
  | nil => exact h
  | cons call calls ih => exact ih (Cache.forall_sets_access hstep h call.1 call.2)

end Sets

/-- The state of the cache after accesses to `history`. -/
structure TracksHistory (config : CacheConfig) (history : List (BitVec 64)) (cache : Cache) :
    Prop where
  config_eq : cache.config = config
  length : cache.sets.length = config.numSets
  ranked : ∀ {i : ℕ} {set : CacheSet}, cache.sets[i]? = some set →
    Ranked config.ways
      (recency ((history.filter fun a => config.setOf (config.block a) = i).map config.tag))
      set.ways

namespace TracksHistory

variable {config : CacheConfig} {history : List (BitVec 64)} {cache : Cache}

/-- A new cache has seen nothing. -/
theorem new (config : CacheConfig) : TracksHistory config [] (Cache.new config) where
  config_eq := rfl
  length := List.length_replicate
  ranked hset := by
    obtain ⟨hlt, rfl⟩ := List.getElem?_eq_some_iff.mp hset
    simpa [Cache.new] using Ranked.fresh_set config.ways

/-- The set of an address exists: the index is below the largest power of two that is at
most `numSets`. -/
theorem setOf_lt (hsets : 1 ≤ config.numSets) (b : ℕ) : config.setOf b < config.numSets :=
  Nat.lt_of_lt_of_le (Nat.mod_lt _ (Nat.two_pow_pos _)) (Nat.log2_self_le (by omega))

/-- **One access.** -/
theorem access (h : TracksHistory config history cache) (hways : 1 ≤ config.ways)
    (hsets : 1 ≤ config.numSets) (hmax : config.numSets < 2 ^ 32) (address : BitVec 64)
    (op : CacheOperation) :
    ((cache.access address op).1 = true ↔
        config.block address ∈ mostRecent config.ways ((history.map config.block).filter
          fun b => config.setOf b = config.setOf (config.block address))) ∧
      TracksHistory config (history ++ [address]) (cache.access address op).2 := by
  obtain ⟨set, hset⟩ : ∃ set, cache.sets[config.setOf (config.block address)]? = some set :=
    ⟨_, List.getElem?_eq_getElem (by rw [h.length]; exact setOf_lt hsets _)⟩
  have haccess : cache.access address op =
      ((set.access (config.tag address)).1, { cache with
        sets := cache.sets.set (config.setOf (config.block address))
          (set.access (config.tag address)).2
        hits := cache.hits + (set.access (config.tag address)).1.toNat
        misses := cache.misses + (!(set.access (config.tag address)).1).toNat }) := by
    rw [Cache.access, h.config_eq, CacheConfig.index_toNat hmax, List.getD_eq_getElem?_getD, hset]
    rfl
  obtain ⟨hhit, hranked⟩ := (h.ranked hset).access hways (config.tag address)
  rw [haccess]
  refine ⟨?_, h.config_eq, by simpa using h.length, fun {i set'} hset' => ?_⟩
  · rw [hhit, ← mem_mostRecent_iff, CacheConfig.blocks_of_set,
      ← mem_mostRecent_map (config.tag_to_block_injective _)]
    rw [← config.block_eq address]
  · rw [List.filter_append]
    by_cases hi : i = config.setOf (config.block address)
    · subst hi
      have hlen : config.setOf (config.block address) < cache.sets.length :=
        (List.getElem?_eq_some_iff.mp hset).1
      rw [List.getElem?_set_self hlen] at hset'
      obtain rfl := Option.some.inj hset'
      simpa [recency_concat] using hranked
    · rw [List.getElem?_set_ne (Ne.symm hi)] at hset'
      simpa [Ne.symm hi] using h.ranked hset'

/-- A sequence of accesses. -/
theorem accesses (h : TracksHistory config history cache) (hways : 1 ≤ config.ways)
    (hsets : 1 ≤ config.numSets) (hmax : config.numSets < 2 ^ 32)
    (calls : List (BitVec 64 × CacheOperation)) :
    TracksHistory config (history ++ calls.map Prod.fst) (cache.accesses calls).2 := by
  induction calls generalizing history cache with
  | nil => simpa [Cache.accesses] using h
  | cons call calls ih =>
      obtain ⟨address, op⟩ := call
      have hnext := ih (h.access hways hsets hmax address op).2
      simpa [Cache.accesses, List.append_assoc] using hnext

end TracksHistory

/-- The counters count the results. -/
theorem Cache.accesses_counters (cache : Cache) (calls : List (BitVec 64 × CacheOperation)) :
    (cache.accesses calls).2.hits = cache.hits + (cache.accesses calls).1.count true ∧
      (cache.accesses calls).2.misses = cache.misses + (cache.accesses calls).1.count false := by
  induction calls generalizing cache with
  | nil => simp [Cache.accesses]
  | cons call calls ih =>
      obtain ⟨address, op⟩ := call
      obtain ⟨hhits, hmisses⟩ := ih (cache.access address op).2
      have hstep : (cache.access address op).2.hits =
            cache.hits + (cache.access address op).1.toNat ∧
          (cache.access address op).2.misses =
            cache.misses + (!(cache.access address op).1).toNat := ⟨rfl, rfl⟩
      rw [Cache.accesses]
      dsimp only
      rw [hhits, hmisses, hstep.1, hstep.2]
      cases (cache.access address op).1 <;> simp <;> omega

/-- **The cache is exactly set-associative LRU.** After any sequence of calls, an access
hits exactly when its block is among the `ways` most recently accessed distinct blocks of
its set, and the counters are the numbers of calls that hit and missed. That `numSets` is
positive includes that neither `blockSize` nor `ways` is zero. -/
theorem access_exact_lru {config : CacheConfig} (hsets : 1 ≤ config.numSets)
    (hmax : config.numSets ≤ 2 ^ 31 - 1) (calls : List (BitVec 64 × CacheOperation))
    (address : BitVec 64) (op : CacheOperation) :
    ((((Cache.new config).accesses calls).2.access address op).1 = true ↔
        config.block address ∈ mostRecent config.ways
          ((calls.map fun call => config.block call.1).filter
            fun b => config.setOf b = config.setOf (config.block address))) ∧
      ((Cache.new config).accesses calls).2.hits =
        ((Cache.new config).accesses calls).1.count true ∧
      ((Cache.new config).accesses calls).2.misses =
        ((Cache.new config).accesses calls).1.count false := by
  have hways := CacheConfig.ways_pos hsets
  have htracks := (TracksHistory.new config).accesses hways hsets (by omega) calls
  obtain ⟨hhit, -⟩ := htracks.access hways hsets (by omega) address op
  obtain ⟨hhits, hmisses⟩ := (Cache.new config).accesses_counters calls
  refine ⟨?_, hhits.trans (Nat.zero_add _), hmisses.trans (Nat.zero_add _)⟩
  rw [hhit, List.nil_append, List.map_map]
  rfl

/-- Two ways of one set: after blocks 1, 2, 1 and 3, block 2 has been replaced. -/
theorem access_exact_lru_two_ways :
    let config : CacheConfig := ⟨16, 8, 2, 1⟩
    let calls := [(8, .cacheRead), (16, .cacheRead), (8, .cacheWrite), (24, .cacheRead)]
    ((((Cache.new config).accesses calls).2.access 16 .cacheRead).1 = true ↔
        config.block 16 ∈ mostRecent config.ways
          ((calls.map fun call => config.block call.1).filter
            fun b => config.setOf b = config.setOf (config.block 16))) ∧
      ((Cache.new config).accesses calls).2.hits =
        ((Cache.new config).accesses calls).1.count true ∧
      ((Cache.new config).accesses calls).2.misses =
        ((Cache.new config).accesses calls).1.count false :=
  access_exact_lru (by decide) (by decide) _ _ _

end RvPipeSim
