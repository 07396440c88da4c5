import RvPipeSim.MemoryAccess
import RvPipeSim.Lib.OutputStream

/-!
# The memory dump

`printMemArray` prints a range of memory in rows, `dumpMemoryState` the range that the file
`print_mem_range` asks for, or the default one.

A row is left in the middle where the range ends and where `at` throws. The last entry is
printed whole, so the range is rounded up to entries: `printMemArray_spec` says that the
loops end, and that they report success exactly if all those entries are inside the memory,
`printMemArray_eq_iff` that two memories give the same dump exactly if they hold the same bytes
there.

## Main results

* `printMemArray_spec` — the dump ends, and reports success exactly if its range is inside the
  memory;
* `printMemArray_eq_iff` — two dumps are the same text exactly if the bytes of the range are
  the same;
* `dumpMemoryState_eq_iff` — so are two files.
-/

namespace RvPipeSim

open InputStream OutputStream

namespace MemoryStore

/-! ### The loops -/

/-- The loop over the bytes of an entry, with `remaining` bytes to go from byte `j` on: what it
prints, and whether `at` found them all. -/
def printBytes (mem : MemoryStore) (relStart : BitVec 64) :
    (remaining j : ℕ) → List Char × Bool
  | 0, _ => ([], true)
  | remaining + 1, j =>
      match mem.byteAt (relStart + BitVec.ofNat 64 j) with
      | none => ([], false)
      | some byte =>
          let (text, found) := printBytes mem relStart remaining (j + 1)
          (hexField 2 byte.toNat ++ text, found)

/-- How the loop over a row ends: behind the row, or with a return from `printMemArray`. -/
inductive RowEnd
  | full (relStart : BitVec 64)
  | returned (code : ℤ)
  deriving DecidableEq

/-- The loop over the entries of a row. -/
def printRow (mem : MemoryStore) (entrySize : ℕ) (relEnd : BitVec 64) :
    (entries : ℕ) → (relStart : BitVec 64) → List Char × RowEnd
  | 0, relStart => ([], .full relStart)
  | entries + 1, relStart =>
      if relStart < relEnd then
        let (bytes, found) := mem.printBytes relStart entrySize 0
        if found then
          let (text, rowEnd) :=
            printRow mem entrySize relEnd entries (relStart + BitVec.ofNat 64 entrySize)
          (['0', 'x'] ++ (bytes ++ (' ' :: text)), rowEnd)
        else (['0', 'x'] ++ bytes, .returned (-einval))
      else (['\n'], .returned 0)

/-- The label of a row. -/
def rowLabel (curAddr : BitVec 64) : List Char :=
  ['0', 'x'] ++ (hexField 8 curAddr.toNat ++ [':', ' '])

/-- The loop over the rows, `none` if it is not through after `fuel` of them. -/
def printRows (mem : MemoryStore) (entrySize entriesPerRow : ℕ) (relEnd : BitVec 64) :
    (fuel : ℕ) → (relStart curAddr : BitVec 64) → Option (List Char × ℤ)
  | 0, _, _ => none
  | fuel + 1, relStart, curAddr =>
      if relStart < relEnd then
        match mem.printRow entrySize relEnd entriesPerRow relStart with
        | (row, .returned code) => some (rowLabel curAddr ++ row, code)
        | (row, .full relStart) =>
            (printRows mem entrySize entriesPerRow relEnd fuel relStart
              (curAddr + BitVec.ofNat 64 (entrySize * entriesPerRow))).map fun rows =>
                (rowLabel curAddr ++ (row ++ ('\n' :: rows.1)), rows.2)
      else some ([], 0)

/-- The sizes that `printMemArray` accepts. -/
abbrev ValidSize (entrySize : ℕ) : Prop :=
  entrySize = 1 ∨ entrySize = 2 ∨ entrySize = 4 ∨ entrySize = 8

/-- `printMemArray`: what it prints and returns. -/
def printMemArray (mem : MemoryStore) (fuel : ℕ) (startAddr endAddr : BitVec 64)
    (entrySize entriesPerRow : ℕ) : Option (List Char × ℤ) :=
  if ValidSize entrySize then
    mem.printRows entrySize entriesPerRow (endAddr - mem.startAddr) fuel
      (startAddr - mem.startAddr) startAddr
  else some ([], -einval)

/-- The range to dump: the default, or what the text of `print_mem_range` asks for. -/
def dumpRange : Option (List Char) → BitVec 64 × BitVec 64
  | none => (0, 0x1f4)
  | some text =>
      let startAddr := IStream.extractHex { rest := text } 0#64
      let endAddr := startAddr.1.extractHex 0x1f4#64
      (startAddr.2, endAddr.2)

/-- The line around the dump and its title. -/
def rule : List Char := "---------------------\n".toList

/-- `dumpMemoryState` for the text of `print_mem_range`, `none` if it cannot be opened: the
content of the file it writes. -/
def dumpMemoryState (mem : MemoryStore) (fuel : ℕ) (memRange : Option (List Char)) :
    Option (List Char) :=
  (mem.printMemArray fuel (dumpRange memRange).1 (dumpRange memRange).2 4 5).map fun rows =>
    rule ++ ("Begin Memory State\n".toList ++ (rule ++ (rows.1 ++
      (rule ++ ("End Memory State\n".toList ++ rule)))))

/-! ### When a dump succeeds -/

section Spec

variable {mem : MemoryStore} {entrySize : ℕ} {relStart relEnd : BitVec 64}

/-- There is a byte at an index iff it is inside the memory. -/
theorem byteAt_isSome_iff {index : BitVec 64} :
    (mem.byteAt index).isSome = true ↔ index.toNat < mem.numEntries := by
  rw [byteAt]
  split <;> simp [*]

/-- The bytes are found exactly if they are in memory. -/
theorem printBytes_snd {remaining j : ℕ} (hj : j + remaining ≤ 8)
    (hsize : mem.numEntries ≤ 2 ^ 63) (hstart : relStart.toNat + j ≤ mem.numEntries) :
    (mem.printBytes relStart remaining j).2 = true ↔
      relStart.toNat + j + remaining ≤ mem.numEntries := by
  induction remaining generalizing j with
  | zero => exact ⟨fun _ => hstart, fun _ => rfl⟩
  | succ remaining ih =>
      have hindex : (relStart + BitVec.ofNat 64 j).toNat = relStart.toNat + j := by
        rw [BitVec.toNat_add, BitVec.toNat_ofNat, Nat.mod_eq_of_lt (by omega : j < 2 ^ 64),
          Nat.mod_eq_of_lt (by omega)]
      rw [printBytes]
      cases hbyte : mem.byteAt (relStart + BitVec.ofNat 64 j) with
      | none =>
          have hout := mt byteAt_isSome_iff.mpr (by rw [hbyte]; exact Bool.false_ne_true)
          rw [hindex] at hout
          exact ⟨fun h => Bool.noConfusion h, fun h => by omega⟩
      | some byte =>
          have hin := byteAt_isSome_iff.mp (by rw [hbyte]; rfl)
          rw [hindex] at hin
          exact (ih (by omega) (by omega)).trans (by omega)

/-- Every entry that starts in front of the end of the range is inside the memory. -/
def Covers (mem : MemoryStore) (entrySize start stop : ℕ) : Prop :=
  ∀ k, start + k * entrySize < stop → start + k * entrySize + entrySize ≤ mem.numEntries

/-- An empty range is covered. -/
theorem covers_of_le {start stop : ℕ} (h : stop ≤ start) : mem.Covers entrySize start stop :=
  fun k hk => absurd hk (by omega)

/-- Where one entry is inside, what is left to cover is behind it. -/
theorem covers_step {start stop : ℕ} (h : start + entrySize ≤ mem.numEntries) :
    mem.Covers entrySize start stop ↔ mem.Covers entrySize (start + entrySize) stop := by
  refine ⟨fun hcovers k hk => ?_, fun hcovers k hk => ?_⟩
  · have hnext := hcovers (k + 1)
    rw [Nat.succ_mul] at hnext
    omega
  · cases k with
    | zero => omega
    | succ k =>
        have hnext := hcovers k
        rw [Nat.succ_mul] at hk ⊢
        omega

/-- What a row comes to: it is full and the rest of the range is to come, or it is left with
the code for the whole range. -/
def RowSound (mem : MemoryStore) (entrySize entries start stop : ℕ) : RowEnd → Prop
  | .full relStart =>
      relStart.toNat = start + entries * entrySize ∧
        (0 < entries → relStart.toNat ≤ mem.numEntries) ∧
        (mem.Covers entrySize start stop ↔ mem.Covers entrySize relStart.toNat stop)
  | .returned code =>
      code = 0 ∧ mem.Covers entrySize start stop ∨
        code = -einval ∧ ¬ mem.Covers entrySize start stop

/-- One entry in front of a sound row makes a sound row. -/
theorem RowSound.succ {entries start stop : ℕ} {rowEnd : RowEnd}
    (h : mem.RowSound entrySize entries (start + entrySize) stop rowEnd)
    (hin : start + entrySize ≤ mem.numEntries) :
    mem.RowSound entrySize (entries + 1) start stop rowEnd := by
  cases rowEnd with
  | returned code =>
      rw [RowSound, ← covers_step hin] at h
      exact h
  | full relStart =>
      obtain ⟨hstart, hle, hiff⟩ := h
      refine ⟨by rw [hstart, Nat.succ_mul]; omega, fun _ => ?_, (covers_step hin).trans hiff⟩
      cases entries with
      | zero => omega
      | succ entries => exact hle (Nat.succ_pos _)

variable (hpos : 0 < entrySize) (hle : entrySize ≤ 8) (hsize : mem.numEntries ≤ 2 ^ 63)

include hpos hle hsize

/-- An entry is printed exactly if it is inside the memory. -/
theorem printBytes_found_iff (relStart : BitVec 64) :
    (mem.printBytes relStart entrySize 0).2 = true ↔
      relStart.toNat + entrySize ≤ mem.numEntries := by
  by_cases hstart : relStart.toNat ≤ mem.numEntries
  · exact printBytes_snd (by omega) hsize hstart
  · obtain ⟨remaining, rfl⟩ := Nat.exists_eq_succ_of_ne_zero (Nat.pos_iff_ne_zero.mp hpos)
    have hnone : mem.byteAt (relStart + BitVec.ofNat 64 0) = none := by
      rw [BitVec.add_zero, byteAt, dif_neg (by omega)]
    rw [Nat.succ_eq_add_one, printBytes, hnone]
    exact ⟨fun h => Bool.noConfusion h, fun h => by omega⟩

/-- The address of the next entry does not wrap around. -/
theorem toNat_next (hin : relStart.toNat + entrySize ≤ mem.numEntries) :
    (relStart + BitVec.ofNat 64 entrySize).toNat = relStart.toNat + entrySize := by
  rw [BitVec.toNat_add, BitVec.toNat_ofNat, Nat.mod_eq_of_lt (by omega : entrySize < 2 ^ 64),
    Nat.mod_eq_of_lt (by omega)]

/-- **A row is sound.** -/
theorem printRow_sound (relEnd : BitVec 64) (entries : ℕ) (relStart : BitVec 64) :
    mem.RowSound entrySize entries relStart.toNat relEnd.toNat
      (mem.printRow entrySize relEnd entries relStart).2 := by
  induction entries generalizing relStart with
  | zero =>
      exact ⟨by rw [Nat.zero_mul, Nat.add_zero], fun h => absurd h (Nat.lt_irrefl 0), Iff.rfl⟩
  | succ entries ih =>
      have hfound := printBytes_found_iff hpos hle hsize relStart
      rw [printRow]
      split
      · rename_i hlt
        cases hbytes : mem.printBytes relStart entrySize 0 with
        | mk bytes found =>
            rw [hbytes] at hfound
            cases found with
            | false =>
                refine .inr ⟨rfl, fun hcovers => ?_⟩
                have hfirst := hcovers 0
                rw [Nat.zero_mul, Nat.add_zero] at hfirst
                exact Bool.noConfusion (hfound.mpr (hfirst hlt))
            | true =>
                have hin := hfound.mp rfl
                have hrest := ih (relStart + BitVec.ofNat 64 entrySize)
                rw [toNat_next hpos hle hsize hin] at hrest
                exact hrest.succ hin
      · rename_i hge
        exact .inl ⟨rfl, covers_of_le (Nat.not_lt.mp hge)⟩

/-- **The loop over the rows ends**, and returns 0 exactly if all entries of the range are inside
the memory. -/
theorem printRows_spec {entriesPerRow fuel : ℕ} (hrow : 0 < entriesPerRow)
    (relStart curAddr : BitVec 64) (hfuel : mem.numEntries - relStart.toNat < fuel) :
    ∃ text code,
      mem.printRows entrySize entriesPerRow relEnd fuel relStart curAddr = some (text, code) ∧
      (code = 0 ∧ mem.Covers entrySize relStart.toNat relEnd.toNat ∨
        code = -einval ∧ ¬ mem.Covers entrySize relStart.toNat relEnd.toNat) := by
  induction fuel generalizing relStart curAddr with
  | zero => exact absurd hfuel (Nat.not_lt_zero _)
  | succ fuel ih =>
      rw [printRows]
      split
      · have hrowSound := printRow_sound hpos hle hsize relEnd entriesPerRow relStart
        cases hprinted : mem.printRow entrySize relEnd entriesPerRow relStart with
        | mk row rowEnd =>
            rw [hprinted] at hrowSound
            cases rowEnd with
            | returned code => exact ⟨_, code, rfl, hrowSound⟩
            | full relStart' =>
                obtain ⟨hstart, hin, hiff⟩ := hrowSound
                have hprogress := Nat.mul_pos hrow hpos
                have hin := hin hrow
                obtain ⟨text, code, htext, hcode⟩ := ih relStart'
                  (curAddr + BitVec.ofNat 64 (entrySize * entriesPerRow)) (by omega)
                refine ⟨rowLabel curAddr ++ (row ++ ('\n' :: text)), code, ?_, ?_⟩
                · dsimp only
                  rw [htext]
                  rfl
                · rw [hiff]
                  exact hcode
      · rename_i hge
        exact ⟨[], 0, rfl, .inl ⟨rfl, covers_of_le (Nat.not_lt.mp hge)⟩⟩

end Spec

/-! ### What a dump shows -/

section Same

variable {mem mem' : MemoryStore} {entrySize : ℕ} {relStart relEnd : BitVec 64}

/-- Of the first `entries` entries of a range, those that start in front of its end have the same
bytes. -/
def SameFirst (mem mem' : MemoryStore) (entrySize entries start stop : ℕ) : Prop :=
  ∀ k < entries, start + k * entrySize < stop → ∀ j < entrySize,
    mem.byteAt (BitVec.ofNat 64 (start + k * entrySize + j)) =
      mem'.byteAt (BitVec.ofNat 64 (start + k * entrySize + j))

/-- All entries that start in front of the end of the range have the same bytes. -/
def SameEntries (mem mem' : MemoryStore) (entrySize start stop : ℕ) : Prop :=
  ∀ k, start + k * entrySize < stop → ∀ j < entrySize,
    mem.byteAt (BitVec.ofNat 64 (start + k * entrySize + j)) =
      mem'.byteAt (BitVec.ofNat 64 (start + k * entrySize + j))

/-- In an empty range there is nothing to compare. -/
theorem sameFirst_of_le {entries start stop : ℕ} (h : stop ≤ start) :
    SameFirst mem mem' entrySize entries start stop := fun k _ hk => absurd hk (by omega)

/-- In an empty range there is nothing to compare. -/
theorem sameEntries_of_le {start stop : ℕ} (h : stop ≤ start) :
    SameEntries mem mem' entrySize start stop := fun k hk => absurd hk (by omega)

/-- The first entry, and the ones behind it. -/
theorem sameFirst_succ {entries start stop : ℕ} (h : start < stop) :
    SameFirst mem mem' entrySize (entries + 1) start stop ↔
      (∀ j < entrySize, mem.byteAt (BitVec.ofNat 64 (start + j)) =
        mem'.byteAt (BitVec.ofNat 64 (start + j))) ∧
      SameFirst mem mem' entrySize entries (start + entrySize) stop := by
  have hshift : ∀ k, start + (k + 1) * entrySize = start + entrySize + k * entrySize := by
    intro k
    rw [Nat.succ_mul]
    omega
  constructor
  · intro hsame
    refine ⟨fun j hj => ?_, fun k hk => ?_⟩
    · have hfirst := hsame 0 (Nat.succ_pos _)
      rw [Nat.zero_mul, Nat.add_zero] at hfirst
      exact hfirst h j hj
    · rw [← hshift]
      exact hsame (k + 1) (Nat.succ_lt_succ hk)
  · rintro ⟨hfirst, hrest⟩ k hk
    cases k with
    | zero =>
        rw [Nat.zero_mul, Nat.add_zero]
        exact fun _ => hfirst
    | succ k =>
        rw [hshift]
        exact hrest k (Nat.lt_of_succ_lt_succ hk)

/-- The entries of a row, and the rows behind it. -/
theorem sameEntries_iff {start stop : ℕ} (entries : ℕ) :
    SameEntries mem mem' entrySize start stop ↔
      SameFirst mem mem' entrySize entries start stop ∧
        SameEntries mem mem' entrySize (start + entries * entrySize) stop := by
  have hshift : ∀ k,
      start + (entries + k) * entrySize = start + entries * entrySize + k * entrySize := by
    intro k
    rw [Nat.add_mul, Nat.add_assoc]
  constructor
  · intro hsame
    refine ⟨fun k _ => hsame k, fun k => ?_⟩
    rw [← hshift]
    exact hsame (entries + k)
  · rintro ⟨hfirst, hrest⟩ k
    by_cases hk : k < entries
    · exact hfirst k hk
    · obtain ⟨k, rfl⟩ := Nat.exists_eq_add_of_le (Nat.not_lt.mp hk)
      rw [hshift]
      exact hrest k

/-- The bytes of an entry can be read off what is printed. -/
theorem printBytes_eq_iff {remaining j : ℕ} {rest rest' : List Char}
    (h : (mem.printBytes relStart remaining j).2 = true)
    (h' : (mem'.printBytes relStart remaining j).2 = true) :
    (mem.printBytes relStart remaining j).1 ++ rest =
        (mem'.printBytes relStart remaining j).1 ++ rest' ↔
      (∀ i < remaining, mem.byteAt (relStart + BitVec.ofNat 64 (j + i)) =
        mem'.byteAt (relStart + BitVec.ofNat 64 (j + i))) ∧ rest = rest' := by
  induction remaining generalizing j with
  | zero => simp [printBytes]
  | succ remaining ih =>
      rw [printBytes] at h h' ⊢
      rw [printBytes]
      cases hbyte : mem.byteAt (relStart + BitVec.ofNat 64 j) with
      | none =>
          rw [hbyte] at h
          exact Bool.noConfusion h
      | some byte =>
          cases hbyte' : mem'.byteAt (relStart + BitVec.ofNat 64 j) with
          | none =>
              rw [hbyte'] at h'
              exact Bool.noConfusion h'
          | some byte' =>
              rw [hbyte] at h
              rw [hbyte'] at h'
              have hlength : ∀ b : BitVec 8, (hexField 2 b.toNat).length = 2 :=
                fun b => length_hexField (by decide) b.isLt
              dsimp only
              rw [List.append_assoc, List.append_assoc]
              constructor
              · intro htext
                obtain ⟨hfield, htail⟩ :=
                  List.append_inj htext ((hlength byte).trans (hlength byte').symm)
                obtain ⟨hsame, hrest⟩ := (ih h h').mp htail
                refine ⟨fun i hi => ?_, hrest⟩
                cases i with
                | zero =>
                    rw [Nat.add_zero, hbyte, hbyte', BitVec.eq_of_toNat_eq (hexField_inj hfield)]
                | succ i =>
                    have hi := hsame i (Nat.lt_of_succ_lt_succ hi)
                    rwa [Nat.add_assoc, Nat.add_comm 1 i] at hi
              · rintro ⟨hsame, rfl⟩
                have hfirst := hsame 0 (Nat.succ_pos _)
                rw [Nat.add_zero, hbyte, hbyte', Option.some.injEq] at hfirst
                rw [hfirst]
                refine congrArg (hexField 2 byte'.toNat ++ ·) ((ih h h').mpr ⟨fun i hi => ?_, rfl⟩)
                have hi := hsame (i + 1) (Nat.succ_lt_succ hi)
                rwa [Nat.add_assoc, Nat.add_comm 1 i]

variable (hpos : 0 < entrySize) (hle : entrySize ≤ 8) (hsize : mem.numEntries ≤ 2 ^ 63)

include hpos hle hsize

/-- **Two rows without an error** end the same way, and are the same text exactly if their entries
have the same bytes. -/
theorem printRow_eq_iff (entries : ℕ) (relStart : BitVec 64)
    (h : (mem.printRow entrySize relEnd entries relStart).2 ≠ .returned (-einval))
    (h' : (mem'.printRow entrySize relEnd entries relStart).2 ≠ .returned (-einval)) :
    (mem'.printRow entrySize relEnd entries relStart).2 =
        (mem.printRow entrySize relEnd entries relStart).2 ∧
      ((mem.printRow entrySize relEnd entries relStart).2 = .returned 0 →
        relEnd.toNat ≤ relStart.toNat + entries * entrySize) ∧
      ∀ rest rest', (mem.printRow entrySize relEnd entries relStart).1 ++ rest =
          (mem'.printRow entrySize relEnd entries relStart).1 ++ rest' ↔
        SameFirst mem mem' entrySize entries relStart.toNat relEnd.toNat ∧ rest = rest' := by
  induction entries generalizing relStart with
  | zero =>
      refine ⟨rfl, fun hend => RowEnd.noConfusion hend, fun rest rest' => ?_⟩
      exact ⟨fun hrest => ⟨fun k hk => absurd hk (Nat.not_lt_zero k), hrest⟩, And.right⟩
  | succ entries ih =>
      have hfound := printBytes_found_iff hpos hle hsize relStart
      rw [printRow] at h h' ⊢
      rw [printRow]
      by_cases hlt : relStart < relEnd
      · rw [if_pos hlt] at h h' ⊢
        rw [if_pos hlt]
        have hbytes_iff := @printBytes_eq_iff mem mem' relStart entrySize 0
        cases hbytes : mem.printBytes relStart entrySize 0 with
        | mk bytes found =>
        cases hbytes' : mem'.printBytes relStart entrySize 0 with
        | mk bytes' found' =>
            rw [hbytes] at hfound
            rw [hbytes, hbytes'] at hbytes_iff
            rw [hbytes] at h
            rw [hbytes'] at h'
            cases found with
            | false => exact absurd rfl h
            | true =>
            cases found' with
            | false => exact absurd rfl h'
            | true =>
                have hnext := toNat_next hpos hle hsize (hfound.mp rfl)
                obtain ⟨hend, hstop, htext⟩ := ih _ h h'
                refine ⟨hend, fun hreturned => ?_, fun rest rest' => ?_⟩
                · have hle := hstop hreturned
                  rw [hnext] at hle
                  rw [Nat.succ_mul]
                  omega
                · have hposition : ∀ j, relStart + BitVec.ofNat 64 (0 + j) =
                      BitVec.ofNat 64 (relStart.toNat + j) := by
                    intro j
                    rw [Nat.zero_add, BitVec.ofNat_add, BitVec.ofNat_toNat, BitVec.setWidth_eq]
                  simp only [if_true, List.append_assoc, List.append_cancel_left_eq]
                  rw [hbytes_iff rfl rfl, sameFirst_succ hlt]
                  simp only [hposition, List.cons_append, List.cons.injEq, true_and]
                  rw [htext, hnext, and_assoc]
      · rw [if_neg hlt, if_neg hlt]
        have hge : relEnd.toNat ≤ relStart.toNat := Nat.not_lt.mp hlt
        refine ⟨rfl, fun _ => Nat.le_add_right_of_le hge, fun rest rest' => ?_⟩
        rw [List.append_cancel_left_eq, and_iff_right (sameFirst_of_le hge)]

/-- **Two dumps without an error** are the same text exactly if the entries of the range have the
same bytes. -/
theorem printRows_eq_iff {entriesPerRow fuel fuel' : ℕ} {relStart curAddr : BitVec 64}
    {text text' : List Char}
    (h : mem.printRows entrySize entriesPerRow relEnd fuel relStart curAddr = some (text, 0))
    (h' : mem'.printRows entrySize entriesPerRow relEnd fuel' relStart curAddr =
      some (text', 0)) :
    text = text' ↔ SameEntries mem mem' entrySize relStart.toNat relEnd.toNat := by
  have herror : (0 : ℤ) ≠ -einval := by decide
  induction fuel generalizing fuel' relStart curAddr text text' with
  | zero => exact absurd h (Option.some_ne_none _).symm
  | succ fuel ih =>
  cases fuel' with
  | zero => exact absurd h' (Option.some_ne_none _).symm
  | succ fuel' =>
      rw [printRows] at h h'
      by_cases hlt : relStart < relEnd
      · rw [if_pos hlt] at h h'
        have hrow :=
          @printRow_eq_iff mem mem' entrySize relEnd hpos hle hsize entriesPerRow relStart
        have hsound := printRow_sound hpos hle hsize relEnd entriesPerRow relStart
        cases hprinted : mem.printRow entrySize relEnd entriesPerRow relStart with
        | mk row rowEnd =>
        cases hprinted' : mem'.printRow entrySize relEnd entriesPerRow relStart with
        | mk row' rowEnd' =>
            rw [hprinted] at h hsound
            rw [hprinted'] at h'
            rw [hprinted, hprinted'] at hrow
            have hne : rowEnd ≠ .returned (-einval) := by
              rintro rfl
              exact herror (Prod.mk.inj (Option.some.inj h)).2.symm
            have hne' : rowEnd' ≠ .returned (-einval) := by
              rintro rfl
              exact herror (Prod.mk.inj (Option.some.inj h')).2.symm
            obtain ⟨hend, hstop, htext⟩ := hrow hne hne'
            obtain rfl : rowEnd' = rowEnd := hend
            rw [sameEntries_iff entriesPerRow]
            cases rowEnd' with
            | returned code =>
                obtain ⟨rfl, rfl⟩ := Prod.mk.inj (Option.some.inj h)
                obtain ⟨rfl, -⟩ := Prod.mk.inj (Option.some.inj h')
                have hsame := htext [] []
                rw [List.append_nil, List.append_nil, and_iff_left rfl] at hsame
                rw [List.append_cancel_left_eq, and_iff_left (sameEntries_of_le (hstop rfl))]
                exact hsame
            | full relStart' =>
                obtain ⟨⟨rows, code⟩, hrows, heq⟩ := Option.map_eq_some_iff.mp h
                obtain ⟨rfl, rfl⟩ := Prod.mk.inj heq
                obtain ⟨⟨rows', code'⟩, hrows', heq'⟩ := Option.map_eq_some_iff.mp h'
                obtain ⟨rfl, rfl⟩ := Prod.mk.inj heq'
                have hnext : relStart'.toNat = relStart.toNat + entriesPerRow * entrySize :=
                  hsound.1
                have hrest := ih hrows hrows'
                rw [hnext] at hrest
                rw [List.append_cancel_left_eq, htext, List.cons.injEq, and_iff_right rfl]
                exact and_congr_right fun _ => hrest
      · rw [if_neg hlt] at h h'
        obtain ⟨rfl, -⟩ := Prod.mk.inj (Option.some.inj h)
        obtain ⟨rfl, -⟩ := Prod.mk.inj (Option.some.inj h')
        exact ⟨fun _ => sameEntries_of_le (Nat.not_lt.mp hlt), fun _ => rfl⟩

end Same

/-! ### The dump of a range -/

/-- **`printMemArray` ends**, and prints the range without an error exactly if all entries of it
are inside the memory; otherwise it returns `-EINVAL`. -/
theorem printMemArray_spec {mem : MemoryStore} (hsize : mem.numEntries ≤ 2 ^ 63)
    {entrySize entriesPerRow fuel : ℕ} (hvalid : ValidSize entrySize) (hrow : 0 < entriesPerRow)
    (startAddr endAddr : BitVec 64) (hfuel : mem.numEntries < fuel) :
    ∃ text code,
      mem.printMemArray fuel startAddr endAddr entrySize entriesPerRow = some (text, code) ∧
      (code = 0 ∧ mem.Covers entrySize (startAddr - mem.startAddr).toNat
          (endAddr - mem.startAddr).toNat ∨
        code = -einval ∧ ¬ mem.Covers entrySize (startAddr - mem.startAddr).toNat
          (endAddr - mem.startAddr).toNat) := by
  have hpos : 0 < entrySize := by rcases hvalid with rfl | rfl | rfl | rfl <;> decide
  have hle : entrySize ≤ 8 := by rcases hvalid with rfl | rfl | rfl | rfl <;> decide
  rw [printMemArray, if_pos hvalid]
  exact printRows_spec hpos hle hsize hrow _ _ (by omega)

/-- **The dump of a range shows the range.** -/
theorem printMemArray_eq_iff {mem mem' : MemoryStore} (hsize : mem.numEntries ≤ 2 ^ 63)
    (hstart : mem'.startAddr = mem.startAddr) {entrySize entriesPerRow fuel fuel' : ℕ}
    (hvalid : ValidSize entrySize) {startAddr endAddr : BitVec 64} {text text' : List Char}
    (h : mem.printMemArray fuel startAddr endAddr entrySize entriesPerRow = some (text, 0))
    (h' : mem'.printMemArray fuel' startAddr endAddr entrySize entriesPerRow = some (text', 0)) :
    text = text' ↔ SameEntries mem mem' entrySize (startAddr - mem.startAddr).toNat
      (endAddr - mem.startAddr).toNat := by
  have hpos : 0 < entrySize := by rcases hvalid with rfl | rfl | rfl | rfl <;> decide
  have hle : entrySize ≤ 8 := by rcases hvalid with rfl | rfl | rfl | rfl <;> decide
  rw [printMemArray, if_pos hvalid] at h h'
  rw [hstart] at h'
  exact printRows_eq_iff hpos hle hsize h h'

/-- Two numerals in `print_mem_range` are the range. -/
theorem dumpRange_numerals {front first gap second rest : List Char} {startAddr endAddr : BitVec 64}
    (hfront : Blank front) (hfirst : Numeral first startAddr.toNat) (hne : gap ≠ [])
    (hgap : Blank gap) (hsecond : Numeral second endAddr.toNat) (hrest : StartsBlank rest) :
    dumpRange (some (front ++ (first ++ (gap ++ (second ++ rest))))) = (startAddr, endAddr) := by
  have hopen : (gap ++ (second ++ rest)).isEmpty = false := by simp [hne]
  have hstart := @IStream.extractHex_numeral 64 ⟨_, false, false⟩ front first _ _ rfl rfl hfront
    hfirst (hgap.startsBlank hne (second ++ rest)) startAddr.isLt 0#64
  rw [hopen, BitVec.ofNat_toNat, BitVec.setWidth_eq] at hstart
  have hend := @IStream.extractHex_numeral 64 ⟨_, false, false⟩ gap second rest _ rfl rfl hgap
    hsecond hrest endAddr.isLt 0x1f4#64
  rw [BitVec.ofNat_toNat, BitVec.setWidth_eq] at hend
  rw [dumpRange, hstart, hend]

/-- **The file of the memory dump shows the range**, where that is inside the memory. -/
theorem dumpMemoryState_eq_iff {mem mem' : MemoryStore} {memRange : Option (List Char)}
    {startAddr endAddr : BitVec 64} (hrange : dumpRange memRange = (startAddr, endAddr))
    (hstart : mem'.startAddr = mem.startAddr) (hentries : mem'.numEntries = mem.numEntries)
    (hsize : mem.numEntries ≤ 2 ^ 63)
    (hcovers : mem.Covers 4 (startAddr - mem.startAddr).toNat (endAddr - mem.startAddr).toNat)
    {fuel : ℕ} (hfuel : mem.numEntries < fuel) :
    ∃ file file', mem.dumpMemoryState fuel memRange = some file ∧
      mem'.dumpMemoryState fuel memRange = some file' ∧
      (file = file' ↔ SameEntries mem mem' 4 (startAddr - mem.startAddr).toNat
        (endAddr - mem.startAddr).toNat) := by
  have hvalid : ValidSize 4 := .inr (.inr (.inl rfl))
  obtain ⟨rows, code, hrows, hcode⟩ := printMemArray_spec hsize hvalid (Nat.succ_pos 4)
    startAddr endAddr hfuel
  obtain ⟨rows', code', hrows', hcode'⟩ := @printMemArray_spec mem' (hentries ▸ hsize) 4 5 fuel
    hvalid (Nat.succ_pos 4) startAddr endAddr (hentries ▸ hfuel)
  have hcovers' : mem'.Covers 4 (startAddr - mem'.startAddr).toNat
      (endAddr - mem'.startAddr).toNat := by
    rw [Covers, hentries, hstart]
    exact hcovers
  obtain ⟨rfl, -⟩ := hcode.resolve_right fun h => h.2 hcovers
  obtain ⟨rfl, -⟩ := hcode'.resolve_right fun h => h.2 hcovers'
  rw [dumpMemoryState, dumpMemoryState, hrange, hrows, hrows']
  refine ⟨_, _, rfl, rfl, ?_⟩
  rw [List.append_cancel_left_eq, List.append_cancel_left_eq, List.append_cancel_left_eq,
    List.append_cancel_right_eq]
  exact printMemArray_eq_iff hsize hstart hvalid hrows hrows'

end MemoryStore

end RvPipeSim
