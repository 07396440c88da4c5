import Mathlib.Data.List.Forall2

/-!
# Conditions on near neighbours of a list

`Apart R n l` says that no element of `l` is related by `R` to one of the `n` behind it. With
a transitive order of time in `l`, that is a minimal distance between the two ends of a
dependency. It is decided along the list, used by position (`Apart.not_rel`), and carried
from one list to another that runs alongside (`Apart.of_forall₂`).

`adjacent r l` counts the elements of `l` that are related to the one in front of them, and is
kept up to date from the last element (`adjacent_concat`).
-/

variable {α β : Type*} {R : α → α → Prop} {S : β → β → Prop} {n : ℕ}

/-- No element of the list is related to one of the `n` behind it. -/
def Apart (R : α → α → Prop) (n : ℕ) : List α → Prop
  | [] => True
  | a :: l => (∀ b ∈ l.take n, ¬ R a b) ∧ Apart R n l

namespace Apart

instance decidable (R : α → α → Prop) [DecidableRel R] (n : ℕ) :
    ∀ l : List α, Decidable (Apart R n l)
  | [] => isTrue trivial
  | a :: l =>
      have := decidable R n l
      inferInstanceAs (Decidable ((∀ b ∈ l.take n, ¬ R a b) ∧ Apart R n l))

/-- Elements at a distance of at most `n` are not related. -/
theorem not_rel {l : List α} (h : Apart R n l) {i j : ℕ} {a b : α} (ha : l[i]? = some a)
    (hb : l[j]? = some b) (hij : i < j) (hjn : j ≤ i + n) : ¬ R a b := by
  induction l generalizing i j with
  | nil => exact absurd ha (by simp)
  | cons c l ih =>
      obtain ⟨hc, hl⟩ := h
      cases j with
      | zero => exact absurd hij (Nat.not_lt_zero i)
      | succ j =>
          cases i with
          | zero =>
              obtain rfl := Option.some.inj ha
              refine hc b (List.mem_of_getElem? (i := j) ?_)
              rw [List.getElem?_take, if_pos (by omega)]
              exact hb
          | succ i => exact ih hl ha hb (by omega) (by omega)

/-- An element of the first of two lists side by side has a counterpart. -/
theorem exists_counterpart {P : α → β → Prop} {l : List α} {l' : List β}
    (hl : List.Forall₂ P l l') {a : α} (ha : a ∈ l) : ∃ a' ∈ l', P a a' := by
  induction hl with
  | nil => exact absurd ha List.not_mem_nil
  | cons hP _ ih =>
      rcases List.mem_cons.mp ha with rfl | ha
      · exact ⟨_, List.mem_cons_self, hP⟩
      · obtain ⟨a', ha', hP⟩ := ih ha
        exact ⟨a', List.mem_cons_of_mem _ ha', hP⟩

/-- A list that runs alongside one whose near neighbours are not related has none either, if
related elements have related counterparts. -/
theorem of_forall₂ {P : α → β → Prop} {l : List α} {l' : List β} (hl : List.Forall₂ P l l')
    (hrel : ∀ a a' b b', P a a' → P b b' → R a b → S a' b') (h : Apart S n l') : Apart R n l := by
  induction hl with
  | nil => trivial
  | @cons a a' l l' ha hl ih =>
      refine ⟨fun b hb hR => ?_, ih h.2⟩
      obtain ⟨b', hb', hP⟩ := exists_counterpart (List.forall₂_take n hl) hb
      exact h.1 b' hb' (hrel a a' b b' ha hP hR)

end Apart

/-- How many elements of the list are related to the one in front of them. -/
def adjacent (r : α → α → Bool) (l : List α) : ℕ := (l.zip l.tail).countP fun p => r p.1 p.2

/-- One element more adds a pair with the last one, if the relation holds of it. -/
theorem adjacent_concat (r : α → α → Bool) (l : List α) (a : α) :
    adjacent r (l ++ [a]) = adjacent r l + (l.getLast?.any (r · a)).toNat := by
  induction l with
  | nil => rfl
  | cons b l ih =>
      cases l with
      | nil => cases h : r b a <;> simp [adjacent, h]
      | cons c l =>
          have hcons : ∀ l', adjacent r (b :: c :: l') = adjacent r (c :: l') + (r b c).toNat := by
            intro l'
            rw [adjacent, List.tail_cons, List.zip_cons_cons, List.countP_cons]
            cases r b c <;> rfl
          have hlast : (b :: c :: l).getLast? = (c :: l).getLast? := rfl
          rw [List.cons_append, List.cons_append, hcons, hcons, hlast, ← List.cons_append, ih]
          omega
