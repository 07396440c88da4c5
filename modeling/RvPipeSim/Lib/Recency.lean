import Mathlib.Data.List.Dedup
import Mathlib.Data.List.Nodup
import Mathlib.Data.Nat.Notation

/-!
# Recency of accesses

The recency list of a history of accesses lists the distinct items of the history, the
most recently accessed first; `mostRecent k` is its first `k` entries. One more access
moves its item to the front (`recency_concat`), and `moveToFront_getElem?_succ` says what
that does to the rank of everything else: items in front of the old place of the moved
item fall back by one, items behind it keep their rank.
-/

namespace Recency

variable {α β : Type*} [DecidableEq α] [DecidableEq β]

/-- The distinct items of a history, most recent first. -/
def recency (history : List α) : List α := history.dedup.reverse

/-- The `k` most recently accessed distinct items. -/
def mostRecent (k : ℕ) (history : List α) : List α := (recency history).take k

/-- Put `x` in front, and take it out of its old place if it has one. -/
def moveToFront (x : α) (l : List α) : List α := x :: l.erase x

/-- Nothing has been used in an empty history. -/
@[simp] theorem recency_nil : recency ([] : List α) = [] := rfl

/-- `dedup` keeps the last occurrence, so a new last item replaces the old occurrence. -/
theorem dedup_concat (history : List α) (x : α) :
    (history ++ [x]).dedup = history.dedup.erase x ++ [x] := by
  induction history with
  | nil => rfl
  | cons y history ih =>
      rw [List.cons_append]
      by_cases hyx : y = x
      · subst hyx
        rw [List.dedup_cons_of_mem (by simp), ih]
        by_cases hmem : y ∈ history
        · rw [List.dedup_cons_of_mem hmem]
        · have hmem' : y ∉ history.dedup := by rwa [List.mem_dedup]
          rw [List.dedup_cons_of_notMem hmem, List.erase_cons_head,
            List.erase_of_not_mem hmem']
      · by_cases hmem : y ∈ history
        · rw [List.dedup_cons_of_mem (by simp [hmem]), ih, List.dedup_cons_of_mem hmem]
        · rw [List.dedup_cons_of_notMem (by simp [hmem, hyx]), ih,
            List.dedup_cons_of_notMem hmem, List.erase_cons_tail (by simpa using hyx),
            List.cons_append]

/-- One more access moves its item to the front. -/
theorem recency_concat (history : List α) (x : α) :
    recency (history ++ [x]) = moveToFront x (recency history) := by
  have herase : (history.dedup.erase x).reverse = history.dedup.reverse.erase x := by
    rw [(List.nodup_dedup history).erase_eq_filter,
      (List.nodup_reverse.mpr (List.nodup_dedup history)).erase_eq_filter, List.filter_reverse]
  rw [recency, dedup_concat, List.reverse_append, moveToFront, recency, ← herase]
  rfl

/-- The ranks after a move to the front: items in front of the old place of `x` (all of
them, if it had none) fall back by one, items behind it keep their rank. -/
theorem moveToFront_getElem?_succ (x : α) (l : List α) (i : ℕ) :
    (moveToFront x l)[i + 1]? = if i < l.idxOf x then l[i]? else l[i + 1]? := by
  rw [moveToFront, List.getElem?_cons_succ, List.erase_eq_eraseIdx_of_idxOf rfl,
    List.getElem?_eraseIdx]

/-- In front of the old place of `x`, ranks fall back by one. -/
theorem moveToFront_getElem?_of_lt {x : α} {l : List α} {i : ℕ} (h : i < l.idxOf x) :
    (moveToFront x l)[i + 1]? = l[i]? := by
  rw [moveToFront_getElem?_succ, if_pos h]

/-- Behind the old place of `x`, ranks stay. -/
theorem moveToFront_getElem?_of_gt {x : α} {l : List α} {i : ℕ} (h : l.idxOf x < i) :
    (moveToFront x l)[i]? = l[i]? := by
  obtain ⟨j, rfl⟩ : ∃ j, i = j + 1 := ⟨i - 1, by omega⟩
  rw [moveToFront_getElem?_succ, if_neg (by omega)]

/-- A new item makes the list longer, an old one does not. -/
theorem moveToFront_length (x : α) (l : List α) :
    (moveToFront x l).length = if x ∈ l then l.length else l.length + 1 := by
  rw [moveToFront, List.length_cons]
  by_cases hmem : x ∈ l
  · have hpos : 0 < l.length := List.length_pos_of_mem hmem
    rw [List.length_erase_of_mem hmem, if_pos hmem]
    omega
  · rw [List.erase_of_not_mem hmem, if_neg hmem]

/-- Moving an item to the front keeps each item once. -/
theorem moveToFront_nodup {x : α} {l : List α} (h : l.Nodup) : (moveToFront x l).Nodup :=
  List.nodup_cons.mpr ⟨h.not_mem_erase, h.erase x⟩

/-- In a list without duplicates an item sits at one rank only. -/
theorem idxOf_eq_of_getElem? {l : List α} (h : l.Nodup) {i : ℕ} {x : α}
    (hi : l[i]? = some x) : l.idxOf x = i := by
  obtain ⟨hlt, rfl⟩ := List.getElem?_eq_some_iff.mp hi
  exact h.idxOf_getElem i hlt

/-- Renaming the items injectively renames the recency list. -/
theorem recency_map {f : α → β} (hf : Function.Injective f) (history : List α) :
    recency (history.map f) = (recency history).map f := by
  rw [recency, recency, List.dedup_map_of_injective hf, List.map_reverse]

/-- Membership in `mostRecent` is a bound on the rank. -/
theorem mem_mostRecent_iff {k : ℕ} {history : List α} {x : α} :
    x ∈ mostRecent k history ↔ ∃ i < k, (recency history)[i]? = some x := by
  rw [mostRecent, List.mem_iff_getElem?]
  constructor
  · rintro ⟨i, hi⟩
    rw [List.getElem?_take] at hi
    split_ifs at hi with hlt
    exact ⟨i, hlt, hi⟩
  · rintro ⟨i, hlt, hi⟩
    exact ⟨i, by rw [List.getElem?_take, if_pos hlt, hi]⟩

/-- An injective renaming of the items renames the most recent ones. -/
theorem mem_mostRecent_map {f : α → β} (hf : Function.Injective f) {k : ℕ}
    {history : List α} {x : α} :
    f x ∈ mostRecent k (history.map f) ↔ x ∈ mostRecent k history := by
  rw [mostRecent, recency_map hf, ← List.map_take, List.mem_map_of_injective hf, mostRecent]

end Recency
