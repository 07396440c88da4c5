import RvPipeSim.Lib.InputStream

/-!
# Formatted output

The text of a number inserted into a stream: `hexField width n` is
`os << std::hex << std::setfill('0') << std::setw(width) << n`, `decField n` is `os << n`.

* `numeral_hexField`: a hexadecimal field is a numeral for its number, so an extraction reads
  the number back; `hexField_inj` and `decField_inj` follow the same way.
* `append_stop_inj` and `flatMap_lines_inj`: fields that a character closes which none of them
  has can be told apart in a text, one after the other.
-/

namespace OutputStream

open InputStream

/-! ### Fields -/

/-- `std::right << std::setfill(fill) << std::setw(width) << text`. -/
def rightAligned (fill : Char) (width : ℕ) (text : List Char) : List Char :=
  List.replicate (width - text.length) fill ++ text

/-- `std::left << std::setw(width) << text`. -/
def leftAligned (width : ℕ) (text : List Char) : List Char :=
  text ++ List.replicate (width - text.length) ' '

/-- A number in hexadecimal, with zeros in front up to the width. -/
def hexField (width n : ℕ) : List Char := rightAligned '0' width (Nat.toDigits 16 n)

/-- A number in decimal. -/
def decField (n : ℕ) : List Char := Nat.toDigits 10 n

/-- Different numbers are printed differently in decimal. -/
theorem decField_inj {n m : ℕ} (h : decField n = decField m) : n = m := by
  have hread := congrArg (fun text => Nat.ofDigitChars 10 text 0) h
  simpa [decField] using hread

/-- The digits a number is printed with, without a prefix. -/
theorem spells_toDigits (n : ℕ) :
    ∃ digits, Spells (Nat.toDigits 16 n) digits ∧ Nat.ofDigits 16 digits.reverse = n := by
  induction n using Nat.strong_induction_on with
  | h n ih =>
      by_cases hlt : n < 16
      · rw [Nat.toDigits_of_lt_base hlt]
        exact ⟨[n], .cons (hexDigit_digitChar hlt) .nil, Nat.ofDigits_singleton⟩
      · have hlow : hexDigit (n % 16).digitChar = some (n % 16) :=
          hexDigit_digitChar (Nat.mod_lt n (by decide))
        obtain ⟨digits, hspells, hvalue⟩ := ih (n / 16) (by omega)
        rw [Nat.toDigits_of_base_le (by decide) (by omega)]
        refine ⟨digits ++ [n % 16], List.rel_append hspells (.cons hlow .nil), ?_⟩
        rw [List.reverse_append, List.reverse_singleton, List.singleton_append,
          Nat.ofDigits_cons, hvalue]
        exact Nat.mod_add_div n 16

/-- Zeros spell zeros. -/
theorem spells_replicate (k : ℕ) : Spells (List.replicate k '0') (List.replicate k 0) := by
  induction k with
  | zero => exact .nil
  | succ k ih => exact .cons (by decide) ih

/-- The digits of a field. -/
theorem spells_hexField (width n : ℕ) :
    ∃ digits, Spells (hexField width n) digits ∧ Nat.ofDigits 16 digits.reverse = n := by
  obtain ⟨digits, hspells, hvalue⟩ := spells_toDigits n
  refine ⟨_, List.rel_append (spells_replicate _) hspells, ?_⟩
  rw [List.reverse_append, List.reverse_replicate, Nat.ofDigits_append_replicate_zero, hvalue]

/-- A field is never empty. -/
theorem hexField_ne_nil (width n : ℕ) : hexField width n ≠ [] := fun h =>
  Nat.toDigits_ne_nil (List.append_eq_nil_iff.mp h).2

/-- **A hexadecimal field reads back.** -/
theorem numeral_hexField (width n : ℕ) : Numeral (hexField width n) n := by
  obtain ⟨digits, hspells, hvalue⟩ := spells_hexField width n
  refine ⟨[], by simp, hexField width n, digits, rfl, hspells, ?_, hvalue⟩
  rintro rfl
  cases h : hexField width n with
  | nil => exact hexField_ne_nil width n h
  | cons c text =>
      rw [h] at hspells
      cases hspells

/-- A text is a numeral for one number only. -/
theorem numeral_unique {text : List Char} {n m : ℕ} (h : Numeral text n)
    (h' : Numeral text m) : n = m := by
  have hend : StartsBlank [] := fun c hc => absurd hc (by simp)
  obtain ⟨c, body, digits, htext, -, -, -, htaken, -, hvalue⟩ := h.scan hend
  obtain ⟨c', body', digits', htext', -, -, -, htaken', -, hvalue'⟩ := h'.scan hend
  rw [← htext, htext', htaken'] at htaken
  rw [← hvalue, ← hvalue', (Prod.mk.inj htaken).1]

/-- Different numbers are printed differently in fields of one width. -/
theorem hexField_inj {width n m : ℕ} (h : hexField width n = hexField width m) : n = m :=
  numeral_unique (numeral_hexField width n) (h ▸ numeral_hexField width m)

/-- A number that fits its field fills it exactly. -/
theorem length_hexField {width n : ℕ} (hwidth : 0 < width) (h : n < 16 ^ width) :
    (hexField width n).length = width := by
  have hle := (Nat.length_toDigits_le_iff (by decide) hwidth).mpr h
  rw [hexField, rightAligned, List.length_append, List.length_replicate]
  omega

/-- A field has digits only. -/
theorem isSome_hexDigit_of_mem {width n : ℕ} {c : Char} (h : c ∈ hexField width n) :
    (hexDigit c).isSome = true := by
  obtain ⟨digits, hspells, -⟩ := spells_hexField width n
  generalize hexField width n = text at h hspells
  induction hspells with
  | nil => exact absurd h List.not_mem_nil
  | cons hdigit _ ih =>
      rcases List.mem_cons.mp h with rfl | h
      · rw [hdigit]
        rfl
      · exact ih h

/-- A hexadecimal field is on one line. -/
theorem newline_notMem_hexField (width n : ℕ) : '\n' ∉ hexField width n := fun h =>
  absurd (isSome_hexDigit_of_mem h) (by decide)

/-- A decimal field is on one line. -/
theorem newline_notMem_decField (n : ℕ) : '\n' ∉ decField n := fun h =>
  absurd (Nat.isDigit_of_mem_toDigits (by decide) (by decide) h) (by decide)

/-! ### One field after the other -/

/-- A field ends at the first of the characters that close it. -/
theorem append_stop_inj {stop : Char} {field field' rest rest' : List Char}
    (hfield : stop ∉ field) (hfield' : stop ∉ field')
    (h : field ++ stop :: rest = field' ++ stop :: rest') : field = field' ∧ rest = rest' := by
  induction field generalizing field' with
  | nil =>
      cases field' with
      | nil => exact ⟨rfl, List.tail_eq_of_cons_eq h⟩
      | cons c field' =>
          obtain rfl := List.head_eq_of_cons_eq h
          exact absurd List.mem_cons_self hfield'
  | cons c field ih =>
      cases field' with
      | nil =>
          obtain rfl := List.head_eq_of_cons_eq h
          exact absurd List.mem_cons_self hfield
      | cons c' field' =>
          obtain ⟨rfl, htail⟩ := List.cons.inj h
          obtain ⟨rfl, hrest⟩ := ih (fun hc => hfield (List.mem_cons_of_mem _ hc))
            (fun hc => hfield' (List.mem_cons_of_mem _ hc)) htail
          exact ⟨rfl, hrest⟩

/-- Lines with the same labels are the same text only if their fields are. -/
theorem flatMap_lines_inj {α : Type*} {l : List α} {label field field' : α → List Char}
    {stop : Char} {rest rest' : List Char} (hfield : ∀ a ∈ l, stop ∉ field a)
    (hfield' : ∀ a ∈ l, stop ∉ field' a)
    (h : l.flatMap (fun a => label a ++ (field a ++ [stop])) ++ rest =
      l.flatMap (fun a => label a ++ (field' a ++ [stop])) ++ rest') :
    (∀ a ∈ l, field a = field' a) ∧ rest = rest' := by
  induction l with
  | nil => exact ⟨fun a ha => absurd ha List.not_mem_nil, h⟩
  | cons a l ih =>
      simp only [List.flatMap_cons, List.append_assoc, List.append_cancel_left_eq,
        List.cons_append, List.nil_append] at h
      obtain ⟨ha, hrest⟩ := append_stop_inj (hfield a List.mem_cons_self)
        (hfield' a List.mem_cons_self) h
      obtain ⟨hl, hrest⟩ := ih (fun b hb => hfield b (List.mem_cons_of_mem _ hb))
        (fun b hb => hfield' b (List.mem_cons_of_mem _ hb)) hrest
      refine ⟨fun b hb => ?_, hrest⟩
      rcases List.mem_cons.mp hb with rfl | hb
      · exact ha
      · exact hl b hb

end OutputStream
