import Mathlib.Data.List.Forall2
import Mathlib.Data.List.TakeWhile
import Mathlib.Data.Nat.Digits.Defs

/-!
# Formatted input

`IStream` is a text stream open for reading: the characters to come, and the two state bits
that an extraction sets. `extractHex` is `is >> std::hex >> target` for an unsigned target of
`w` bits, with the documented steps of the standard library: a stream that is not good is not
read; blanks are skipped; then a sign, a prefix `0x` and digits are taken as long as they go.

* `extractHex_of_exhausted`: at the end of the text, or once the stream has failed, an
  extraction fails and leaves its target as it is.
* `extractHex_numeral`: in front of a numeral it gives the number, and the stream has come to
  its end exactly if the numeral ends the text.
* `left_extractHex`: an extraction takes characters or fails, so a loop of extractions ends.

The bit for a broken device, `badbit`, is never set here and left out.
-/

namespace InputStream

/-! ### Characters -/

/-- `std::isspace` in the classic locale. -/
def isSpace (c : Char) : Bool := c = ' ' || ('\t'.toNat ≤ c.toNat && c.toNat ≤ '\r'.toNat)

/-- The value of a hexadecimal digit. -/
def hexDigit (c : Char) : Option ℕ :=
  if '0'.toNat ≤ c.toNat ∧ c.toNat ≤ '9'.toNat then some (c.toNat - '0'.toNat)
  else if 'a'.toNat ≤ c.toNat ∧ c.toNat ≤ 'f'.toNat then some (c.toNat - 'a'.toNat + 10)
  else if 'A'.toNat ≤ c.toNat ∧ c.toNat ≤ 'F'.toNat then some (c.toNat - 'A'.toNat + 10)
  else none

/-- A blank is no digit. -/
theorem hexDigit_of_isSpace {c : Char} (h : isSpace c = true) : hexDigit c = none := by
  rw [isSpace, Bool.or_eq_true, decide_eq_true_iff, Bool.and_eq_true, decide_eq_true_iff,
    decide_eq_true_iff] at h
  rcases h with rfl | ⟨-, hle⟩
  · decide
  · have hlow : c.toNat ≤ 13 := hle
    simp only [hexDigit, Char.reduceToNat]
    rw [if_neg (by omega), if_neg (by omega), if_neg (by omega)]

/-- Blanks only. -/
def Blank (text : List Char) : Prop := ∀ c ∈ text, isSpace c = true

instance (text : List Char) : Decidable (Blank text) :=
  List.decidableBAll (fun c => isSpace c = true) text

/-- The text is at its end or goes on with a blank. -/
def StartsBlank (text : List Char) : Prop := ∀ c ∈ text.head?, isSpace c = true

/-- What begins with blanks ends the number in front of it. -/
theorem Blank.startsBlank {gap : List Char} (h : Blank gap) (hne : gap ≠ [])
    (text : List Char) : StartsBlank (gap ++ text) := by
  cases gap with
  | nil => exact absurd rfl hne
  | cons c gap =>
      intro c' hc'
      obtain rfl := Option.some.inj hc'
      exact h c (List.mem_cons_self ..)

/-! ### Extraction -/

/-- A stream: what is to come, and the state bits. -/
structure IStream where
  rest : List Char
  eofbit : Bool := false
  failbit : Bool := false
  deriving DecidableEq, Repr

/-- An optional sign; whether it is a minus. -/
def takeSign : List Char → Bool × List Char
  | [] => (false, [])
  | c :: text =>
      if c = '-' then (true, text) else if c = '+' then (false, text) else (false, c :: text)

/-- An optional `0x`. -/
def dropPrefix : List Char → List Char
  | c :: c' :: text => if c = '0' ∧ (c' = 'x' ∨ c' = 'X') then text else c :: c' :: text
  | text => text

/-- The digits in front. -/
def takeDigits : List Char → List ℕ × List Char
  | [] => ([], [])
  | c :: text =>
      match hexDigit c with
      | none => ([], c :: text)
      | some digit => (digit :: (takeDigits text).1, (takeDigits text).2)

/-- The value of the digits taken. -/
def accumulate (digits : List ℕ) : ℕ := digits.foldl (fun value digit => 16 * value + digit) 0

/-! ### Numerals -/

/-- Characters that are the digits given. -/
abbrev Spells : List Char → List ℕ → Prop := List.Forall₂ fun c digit => hexDigit c = some digit

/-- A hexadecimal numeral for `n`: digits in either case, zeros or `0x` in front or not. -/
def Numeral (text : List Char) (n : ℕ) : Prop :=
  ∃ front ∈ [[], ['0', 'x'], ['0', 'X']], ∃ field digits, text = front ++ field ∧
    Spells field digits ∧ digits ≠ [] ∧ Nat.ofDigits 16 digits.reverse = n

/-- The digits that are printed are read back. -/
theorem hexDigit_digitChar {n : ℕ} (h : n < 16) : hexDigit n.digitChar = some n := by
  revert h
  revert n
  decide

/-- One digit more behind a numeral. -/
theorem numeral_snoc {text : List Char} {c : Char} {n digit : ℕ} (h : Numeral text n)
    (hdigit : hexDigit c = some digit) : Numeral (text ++ [c]) (16 * n + digit) := by
  obtain ⟨front, hfront, field, digits, rfl, hspells, -, rfl⟩ := h
  refine ⟨front, hfront, field ++ [c], digits ++ [digit], List.append_assoc .., ?_, by simp, ?_⟩
  · exact List.rel_append hspells (.cons hdigit .nil)
  · rw [List.reverse_append, List.reverse_singleton, List.singleton_append, Nat.ofDigits_cons,
      Nat.add_comm]

/-- Every number has a numeral: the digits it is printed with. -/
theorem numeral_toDigits (n : ℕ) : Numeral (Nat.toDigits 16 n) n := by
  induction n using Nat.strong_induction_on with
  | h n ih =>
      by_cases hlt : n < 16
      · rw [Nat.toDigits_of_lt_base hlt]
        exact ⟨[], by simp, [n.digitChar], [n], rfl, .cons (hexDigit_digitChar hlt) .nil,
          by simp, Nat.ofDigits_singleton⟩
      · have hlow : hexDigit (n % 16).digitChar = some (n % 16) :=
          hexDigit_digitChar (Nat.mod_lt n (by decide))
        have hhigh := numeral_snoc (ih (n / 16) (by omega)) hlow
        rwa [Nat.div_add_mod, ← Nat.toDigits_of_base_le (by decide) (by omega)] at hhigh

/-- Reading from the left is positional notation. -/
theorem accumulate_eq (digits : List ℕ) : accumulate digits = Nat.ofDigits 16 digits.reverse := by
  rw [accumulate, Nat.ofDigits_eq_foldr, List.foldr_reverse]
  simp only [Nat.cast_id, Nat.add_comm]

/-- The digits go as far as the numeral does. -/
theorem takeDigits_append {field rest : List Char} {digits : List ℕ} (h : Spells field digits)
    (hrest : StartsBlank rest) : takeDigits (field ++ rest) = (digits, rest) := by
  induction h with
  | nil =>
      cases rest with
      | nil => rfl
      | cons c rest =>
          have hblank : isSpace c = true := hrest c rfl
          rw [List.nil_append, takeDigits, hexDigit_of_isSpace hblank]
  | cons hdigit _ ih =>
      rw [List.cons_append, takeDigits, hdigit]
      dsimp only
      rw [ih]

/-- A digit is neither a blank, nor a sign, nor the `x` of a prefix. -/
theorem hexDigit_ne {c : Char} {digit : ℕ} (h : hexDigit c = some digit) :
    isSpace c = false ∧ c ≠ '-' ∧ c ≠ '+' ∧ c ≠ 'x' ∧ c ≠ 'X' := by
  refine ⟨?_, ?_, ?_, ?_, ?_⟩
  · rw [← Bool.not_eq_true]
    intro hspace
    rw [hexDigit_of_isSpace hspace] at h
    exact absurd h (by simp)
  all_goals
    rintro rfl
    exact absurd h (by simp [hexDigit])

/-- Where there is no sign, none is taken. -/
theorem takeSign_of_ne {c : Char} {text : List Char} (hminus : c ≠ '-') (hplus : c ≠ '+') :
    takeSign (c :: text) = (false, c :: text) := by
  rw [takeSign, if_neg hminus, if_neg hplus]

/-- A numeral without a prefix is left whole: the second character is a digit or a blank. -/
theorem dropPrefix_append {field rest : List Char} {digits : List ℕ} (h : Spells field digits)
    (hne : digits ≠ []) (hrest : StartsBlank rest) :
    dropPrefix (field ++ rest) = field ++ rest := by
  have hkept : ∀ c (text : List Char), (∀ c' ∈ text.head?, c' ≠ 'x' ∧ c' ≠ 'X') →
      dropPrefix (c :: text) = c :: text := by
    intro c text hsecond
    cases text with
    | nil => rfl
    | cons c' text =>
        obtain ⟨hlower, hupper⟩ := hsecond c' rfl
        rw [dropPrefix, if_neg]
        rintro ⟨-, rfl | rfl⟩
        · exact hlower rfl
        · exact hupper rfl
  cases h with
  | nil => exact absurd rfl hne
  | cons _ htail =>
      refine hkept _ _ fun c' hc' => ?_
      cases htail with
      | nil =>
          have hspace := hrest c' hc'
          constructor <;>
          · rintro rfl
            exact absurd hspace (by decide)
      | cons hdigit' _ =>
          obtain rfl := Option.some.inj hc'
          obtain ⟨-, -, -, hlower, hupper⟩ := hexDigit_ne hdigit'
          exact ⟨hlower, hupper⟩

/-- What an extraction meets in front of a numeral: no blank and no sign, then the digits. -/
theorem Numeral.scan {text rest : List Char} {n : ℕ} (h : Numeral text n)
    (hrest : StartsBlank rest) :
    ∃ c body digits, text ++ rest = c :: body ∧ isSpace c = false ∧ c ≠ '-' ∧ c ≠ '+' ∧
      takeDigits (dropPrefix (c :: body)) = (digits, rest) ∧ digits ≠ [] ∧
      accumulate digits = n := by
  obtain ⟨front, hfront, field, digits, rfl, hspells, hne, hvalue⟩ := h
  rw [← accumulate_eq] at hvalue
  have htaken := takeDigits_append hspells hrest
  simp only [List.mem_cons, List.not_mem_nil, or_false] at hfront
  rcases hfront with rfl | rfl | rfl
  · rw [List.nil_append]
    have hkept := dropPrefix_append hspells hne hrest
    cases hspells with
    | nil => exact absurd rfl hne
    | cons hdigit _ =>
        obtain ⟨hspace, hminus, hplus, -, -⟩ := hexDigit_ne hdigit
        exact ⟨_, _, _, rfl, hspace, hminus, hplus, (congrArg takeDigits hkept).trans htaken, hne,
          hvalue⟩
  · exact ⟨_, _, digits, rfl, by decide, by decide, by decide, htaken, hne, hvalue⟩
  · exact ⟨_, _, digits, rfl, by decide, by decide, by decide, htaken, hne, hvalue⟩

/-- A numeral has a digit. -/
theorem Numeral.ne_nil {text : List Char} {n : ℕ} (h : Numeral text n) : text ≠ [] := by
  obtain ⟨front, -, field, digits, rfl, hspells, hne, -⟩ := h
  intro hnil
  obtain ⟨-, rfl⟩ := List.append_eq_nil_iff.mp hnil
  cases hspells
  exact hne rfl

namespace IStream

variable {w : ℕ}

/-- `is.good()`. -/
def good (is : IStream) : Bool := !is.eofbit && !is.failbit

/-- `open`: a file that cannot be opened leaves the stream failed. -/
def openFile : Option (List Char) → IStream
  | none => { rest := [], failbit := true }
  | some text => { rest := text }

/-- `is >> std::hex >> target`: the stream after it, and the value of the target. A field
without digits gives 0, one that does not fit the largest value, and both fail. -/
def extractHex (is : IStream) (target : BitVec w) : IStream × BitVec w :=
  if !is.good then ({ is with failbit := true }, target)
  else
    match is.rest.dropWhile isSpace with
    | [] => ({ rest := [], eofbit := true, failbit := true }, target)
    | c :: text =>
        let (negative, field) := takeSign (c :: text)
        let (digits, rest) := takeDigits (dropPrefix field)
        let value := accumulate digits
        if digits = [] then ({ rest, eofbit := rest.isEmpty, failbit := true }, 0)
        else if 2 ^ w ≤ value then
          ({ rest, eofbit := rest.isEmpty, failbit := true }, BitVec.allOnes w)
        else
          ({ rest, eofbit := rest.isEmpty },
            if negative then -BitVec.ofNat w value else BitVec.ofNat w value)

/-- Nothing more will be extracted: the stream has failed, or only blanks are to come. -/
def Exhausted (is : IStream) : Prop := is.failbit = true ∨ Blank is.rest

/-- **An extraction from an exhausted stream fails and leaves its target alone.** -/
theorem extractHex_of_exhausted {is : IStream} (h : is.Exhausted) (target : BitVec w) :
    (is.extractHex target).1.failbit = true ∧ (is.extractHex target).2 = target := by
  rw [extractHex]
  by_cases hgood : is.good = true
  · have hblank : Blank is.rest := by
      refine h.resolve_left fun hfail => ?_
      rw [good, hfail, Bool.not_true, Bool.and_false] at hgood
      exact Bool.noConfusion hgood
    rw [hgood, List.dropWhile_eq_nil_iff.mpr hblank]
    exact ⟨rfl, rfl⟩
  · rw [Bool.not_eq_true] at hgood
    rw [hgood]
    exact ⟨rfl, rfl⟩

/-- **An extraction in front of a numeral gives the number.** -/
theorem extractHex_numeral {is : IStream} {blank text rest : List Char} {n : ℕ}
    (hgood : is.good = true) (hcome : is.rest = blank ++ (text ++ rest)) (hblank : Blank blank)
    (hnumeral : Numeral text n) (hrest : StartsBlank rest) (hfits : n < 2 ^ w)
    (target : BitVec w) :
    is.extractHex target = ({ rest, eofbit := rest.isEmpty }, BitVec.ofNat w n) := by
  obtain ⟨c, body, digits, htext, hspace, hminus, hplus, htaken, hne, hvalue⟩ :=
    hnumeral.scan hrest
  have hskip : is.rest.dropWhile isSpace = c :: body := by
    rw [hcome, htext, List.dropWhile_append_of_pos hblank,
      List.dropWhile_cons_of_neg (by rw [hspace]; exact Bool.false_ne_true)]
  rw [extractHex, hgood, hskip, if_neg (by decide)]
  dsimp only
  rw [takeSign_of_ne hminus hplus]
  dsimp only
  rw [htaken]
  dsimp only
  rw [hvalue, if_neg hne, if_neg (Nat.not_le.mpr hfits)]
  rfl

/-! ### Streams run dry -/

/-- How far the stream is from having failed. -/
def left (is : IStream) : ℕ := if is.failbit then 0 else is.rest.length + 1

/-- Taking a sign never lengthens the rest. -/
theorem length_takeSign (text : List Char) : (takeSign text).2.length ≤ text.length := by
  cases text with
  | nil => exact Nat.le_refl _
  | cons c text =>
      rw [takeSign]
      split
      · exact Nat.le_succ _
      split
      · exact Nat.le_succ _
      · exact Nat.le_refl _

/-- Dropping `0x` never lengthens the rest. -/
theorem length_dropPrefix (text : List Char) : (dropPrefix text).length ≤ text.length := by
  rw [dropPrefix.eq_def]
  split
  · split
    · exact Nat.le_add_right _ 2
    · exact Nat.le_refl _
  · exact Nat.le_refl _

/-- Every digit taken is a character less. -/
theorem length_takeDigits (text : List Char) :
    (takeDigits text).1.length + (takeDigits text).2.length = text.length := by
  induction text with
  | nil => rfl
  | cons c text ih =>
      cases hdigit : hexDigit c with
      | none =>
          rw [takeDigits, hdigit]
          exact Nat.zero_add _
      | some digit =>
          simp only [takeDigits, hdigit, List.length_cons]
          omega

/-- **An extraction takes characters or fails.** -/
theorem left_extractHex {is : IStream} (h : is.failbit = false) (target : BitVec w) :
    (is.extractHex target).1.left < is.left := by
  have hfailed : ∀ rest eofbit, ({ rest, eofbit, failbit := true } : IStream).left < is.left := by
    intro rest eofbit
    rw [left, if_pos rfl, left, h]
    exact Nat.succ_pos _
  rw [extractHex]
  split
  · exact hfailed _ _
  split
  · exact hfailed _ _
  rename_i c text hskip
  have hsign := length_takeSign (c :: text)
  have hprefix := length_dropPrefix (takeSign (c :: text)).2
  have hdigits := length_takeDigits (dropPrefix (takeSign (c :: text)).2)
  have hle : (c :: text).length ≤ is.rest.length := by
    rw [← hskip]
    exact (List.dropWhile_suffix _).length_le
  dsimp only
  split
  · exact hfailed _ _
  split
  · exact hfailed _ _
  rename_i hne _
  have hpos := List.length_pos_iff.mpr hne
  simp only [left, h, if_neg Bool.false_ne_true]
  omega

/-- Reading a number takes from the stream and puts nothing back. -/
theorem left_extractHex_le (is : IStream) (target : BitVec w) :
    (is.extractHex target).1.left ≤ is.left := by
  cases hfail : is.failbit with
  | true =>
      rw [left, (extractHex_of_exhausted (.inl hfail) target).1]
      exact Nat.zero_le _
  | false => exact Nat.le_of_lt (left_extractHex hfail target)

end IStream

end InputStream
