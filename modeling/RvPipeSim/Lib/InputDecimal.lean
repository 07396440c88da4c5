import RvPipeSim.Lib.InputStream

/-!
# Decimal input, line by line

`extractDec` is `is >> target` for an unsigned target of `w` bits in the default base, and
`getline` is `std::getline` into a string that is thrown away.

* `extractDec_numeral`: in front of a decimal numeral an extraction gives the number.
* `getline_of_line`: behind the numeral of a line, `getline` goes to the next one.
-/

namespace InputStream

/-- A decimal numeral for `n`: digits, with zeros in front or not. -/
structure DecNumeral (text : List Char) (n : ℕ) : Prop where
  ne_nil : text ≠ []
  digits : ∀ c ∈ text, c.isDigit = true
  value : Nat.ofDigitChars 10 text 0 = n

/-- The text is at its end or goes on with something else than a digit. -/
def StartsOther (text : List Char) : Prop := ∀ c ∈ text.head?, c.isDigit = false

instance : (text : List Char) → Decidable (StartsOther text)
  | [] => isTrue fun _ hc => absurd hc (Option.not_mem_none _)
  | c :: _ => decidable_of_iff (c.isDigit = false)
      ⟨fun h _ hc => Option.some.inj hc ▸ h, fun h => h c rfl⟩

/-- Every number has a numeral: the digits it is printed with. -/
theorem decNumeral_toDigits (n : ℕ) : DecNumeral (Nat.toDigits 10 n) n where
  ne_nil := Nat.toDigits_ne_nil
  digits _ hc := Nat.isDigit_of_mem_toDigits (by decide) (by decide) hc
  value := Nat.ofDigitChars_ten_toDigits

/-- A digit is neither a blank nor a sign. -/
theorem isDigit_ne {c : Char} (h : c.isDigit = true) :
    isSpace c = false ∧ c ≠ '-' ∧ c ≠ '+' := by
  refine ⟨?_, ?_, ?_⟩
  · rw [← Bool.not_eq_true]
    intro hspace
    rw [isSpace, Bool.or_eq_true, decide_eq_true_iff, Bool.and_eq_true, decide_eq_true_iff,
      decide_eq_true_iff] at hspace
    rcases hspace with rfl | ⟨-, hle⟩
    · exact absurd h (by decide)
    · have hlow : c.toNat ≤ 13 := hle
      have hhigh : 48 ≤ c.toNat := (Char.isDigit_iff_toNat.mp h).1
      omega
  all_goals
    rintro rfl
    exact absurd h (by decide)

namespace IStream

variable {w : ℕ}

/-- `is >> target` in base 10: the stream after it, and the value of the target. -/
def extractDec (is : IStream) (target : BitVec w) : IStream × BitVec w :=
  if !is.good then ({ is with failbit := true }, target)
  else
    match is.rest.dropWhile isSpace with
    | [] => ({ rest := [], eofbit := true, failbit := true }, target)
    | c :: text =>
        let (negative, field) := takeSign (c :: text)
        let digits := field.takeWhile Char.isDigit
        let rest := field.dropWhile Char.isDigit
        let value := Nat.ofDigitChars 10 digits 0
        if digits = [] then ({ rest, eofbit := rest.isEmpty, failbit := true }, 0)
        else if 2 ^ w ≤ value then
          ({ rest, eofbit := rest.isEmpty, failbit := true }, BitVec.allOnes w)
        else
          ({ rest, eofbit := rest.isEmpty },
            if negative then -BitVec.ofNat w value else BitVec.ofNat w value)

/-- `std::getline(is, discard)`: a stream that is not good fails, and so does one that is at its
end. -/
def getline (is : IStream) : IStream :=
  if !is.good then { is with failbit := true }
  else
    match is.rest.dropWhile (· != '\n') with
    | [] => { rest := [], eofbit := true, failbit := is.rest.isEmpty }
    | _ :: rest => { rest }

/-- **An extraction in front of a decimal numeral gives the number.** -/
theorem extractDec_numeral {is : IStream} {blank text rest : List Char} {n : ℕ}
    (hgood : is.good = true) (hcome : is.rest = blank ++ (text ++ rest)) (hblank : Blank blank)
    (hnumeral : DecNumeral text n) (hrest : StartsOther rest) (hfits : n < 2 ^ w)
    (target : BitVec w) :
    is.extractDec target = ({ rest, eofbit := rest.isEmpty }, BitVec.ofNat w n) := by
  obtain ⟨hne, hdigits, hvalue⟩ := hnumeral
  cases text with
  | nil => exact absurd rfl hne
  | cons c text =>
      obtain ⟨hspace, hminus, hplus⟩ := isDigit_ne (hdigits c List.mem_cons_self)
      have hskip : is.rest.dropWhile isSpace = c :: (text ++ rest) := by
        rw [hcome, List.dropWhile_append_of_pos hblank, List.cons_append,
          List.dropWhile_cons_of_neg (by rw [hspace]; exact Bool.false_ne_true)]
      have hother : rest.takeWhile Char.isDigit = [] ∧ rest.dropWhile Char.isDigit = rest := by
        cases rest with
        | nil => exact ⟨rfl, rfl⟩
        | cons c' rest =>
            have hc' : ¬ c'.isDigit = true := by rw [hrest c' rfl]; exact Bool.false_ne_true
            exact ⟨List.takeWhile_cons_of_neg hc', List.dropWhile_cons_of_neg hc'⟩
      have htaken : (c :: (text ++ rest)).takeWhile Char.isDigit = c :: text := by
        rw [← List.cons_append, List.takeWhile_append_of_pos hdigits, hother.1, List.append_nil]
      have hleft : (c :: (text ++ rest)).dropWhile Char.isDigit = rest := by
        rw [← List.cons_append, List.dropWhile_append_of_pos hdigits, hother.2]
      rw [extractDec, hgood, hskip, if_neg (by decide)]
      dsimp only
      rw [takeSign_of_ne hminus hplus]
      dsimp only
      rw [htaken, hleft, hvalue, if_neg (List.cons_ne_nil c text), if_neg (Nat.not_le.mpr hfits)]
      rfl

/-- `getline` goes behind the end of the line. -/
theorem getline_of_line {is : IStream} {tail rest : List Char} (hgood : is.good = true)
    (hcome : is.rest = tail ++ '\n' :: rest) (htail : '\n' ∉ tail) : is.getline = { rest } := by
  have hskip : is.rest.dropWhile (· != '\n') = '\n' :: rest := by
    rw [hcome, List.dropWhile_append_of_pos, List.dropWhile_cons_of_neg (by decide)]
    intro c hc
    rw [bne_iff_ne]
    rintro rfl
    exact htail hc
  rw [getline, hgood, hskip, if_neg (by decide)]

end IStream

end InputStream
