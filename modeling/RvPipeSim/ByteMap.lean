import RvPipeSim.MemoryAccess

/-!
# Memory as a map from addresses to bytes

`Write.byteAt` and `lastWritten` say what a sequence of writes leaves at an address, in
terms of the calls alone: the byte that the last write covering the address put there.
`view_of_setAll` connects this to the byte loops of `MemoryStore.cpp`: a zeroed memory that
has gone through a sequence of successful calls of `setMemValue`, of any sizes, shows at
every address the byte last written there.

A call that fails is another matter. The loop checks each byte when it comes to it, so the
bytes in front of the end of the memory are written by then
(`failed_store_untouched_iff`).
-/

namespace RvPipeSim

open Rv64i

/-- An entry has one to eight bytes. -/
theorem MemEntrySize.bytes_bounds (size : MemEntrySize) : 0 < size.bytes ∧ size.bytes ≤ 8 := by
  cases size <;> decide

/-! ### The byte map -/

/-- A call of `setMemValue`. -/
structure Write where
  address : BitVec 64
  value : BitVec 64
  size : MemEntrySize
  deriving DecidableEq, Repr

/-- The byte a write leaves at an address, if it covers it. -/
def Write.byteAt (w : Write) (address : BitVec 64) : Option (BitVec 8) :=
  if (address - w.address).toNat < w.size.bytes then
    some ((w.value >>> ((address - w.address).toNat * 8)).setWidth 8)
  else none

/-- The byte last written at an address, zero if there is none. -/
def lastWritten (writes : List Write) (address : BitVec 64) : BitVec 8 :=
  ((writes.filterMap fun w => w.byteAt address).getLast?).getD 0

/-- One more write is a store to the byte map. -/
theorem lastWritten_concat (writes : List Write) (w : Write) :
    lastWritten (writes ++ [w]) =
      storeBytes (lastWritten writes) w.address w.value w.size.bytes := by
  funext address
  have hnew : [w].filterMap (fun w => w.byteAt address) = (w.byteAt address).toList := by
    cases h : w.byteAt address <;> simp [h]
  rw [lastWritten, List.filterMap_append, hnew, storeBytes]
  by_cases hcovered : (address - w.address).toNat < w.size.bytes
  · have hbyte : w.byteAt address =
        some ((w.value >>> ((address - w.address).toNat * 8)).setWidth 8) := if_pos hcovered
    rw [if_pos hcovered, hbyte, Option.toList_some, List.getLast?_concat]
    rfl
  · have hbyte : w.byteAt address = none := if_neg hcovered
    rw [if_neg hcovered, hbyte, Option.toList_none, List.append_nil]
    rfl

/-- An address no write covers reads as zero. -/
theorem lastWritten_of_uncovered {writes : List Write} {address : BitVec 64}
    (h : ∀ w ∈ writes, w.byteAt address = none) : lastWritten writes address = 0 := by
  rw [lastWritten, List.filterMap_eq_nil_iff.mpr h]
  rfl

/-! ### The memory -/

namespace MemoryStore

/-- The constructor, without an initial memory image: all bytes are zero. -/
def zeroed (startAddr : BitVec 64) (numEntries : ℕ) : MemoryStore where
  startAddr := startAddr
  numEntries := numEntries
  memArr := fun _ => 0

/-- Calls of `setMemValue` in a row, `none` when one of them fails. -/
def setAll : List Write → MemoryStore → Option MemoryStore
  | [], mem => some mem
  | w :: writes, mem =>
      let (result, mem) := mem.setMemValue w.address w.value w.size
      if result = 0 then setAll writes mem else none

/-- New memory holds what no write at all leaves. -/
theorem view_zeroed (startAddr : BitVec 64) (numEntries : ℕ) :
    (zeroed startAddr numEntries).view = lastWritten [] := by
  funext address
  rw [view, byteAt]
  split <;> rfl

variable {mem mem' : MemoryStore} {address value : BitVec 64} {size : MemEntrySize}

/-- A history of writes succeeds iff the first is in range and the rest succeeds behind it. -/
theorem setAll_cons {w : Write} {writes : List Write}
    (h : setAll (w :: writes) mem = some mem') :
    mem.InRange w.address w.size.bytes ∧
      setAll writes (mem.setMemValue w.address w.value w.size).2 = some mem' := by
  rw [setAll] at h
  dsimp only at h
  split at h
  · rename_i hresult
    exact ⟨setMemValue_fst_eq_zero_iff.mp hresult, h⟩
  · exact absurd h (by simp)

/-- Writes in range all succeed. -/
theorem setAll_of_inRange {writes : List Write}
    (h : ∀ w ∈ writes, mem.InRange w.address w.size.bytes) :
    ∃ mem', setAll writes mem = some mem' := by
  induction writes generalizing mem with
  | nil => exact ⟨mem, rfl⟩
  | cons w writes ih =>
      obtain ⟨hw, hwrites⟩ := List.forall_mem_cons.mp h
      obtain ⟨hstart, hsize, -⟩ := mem.setMemValue_byteAt w.address w.value w.size
      rw [setAll]
      dsimp only
      rw [if_pos (setMemValue_fst_eq_zero_iff.mpr hw)]
      refine ih fun w' hw' k hk => ?_
      rw [hstart, hsize]
      exact hwrites w' hw' k hk

/-- **Successful writes make the byte map of the last writes.** -/
theorem view_of_setAll {before writes : List Write} (hview : mem.view = lastWritten before)
    (h : setAll writes mem = some mem') :
    mem'.startAddr = mem.startAddr ∧ mem'.numEntries = mem.numEntries ∧
      mem'.view = lastWritten (before ++ writes) := by
  induction writes generalizing before mem with
  | nil =>
      obtain rfl := Option.some.inj h
      exact ⟨rfl, rfl, by rw [List.append_nil, hview]⟩
  | cons w writes ih =>
      obtain ⟨hrange, hrest⟩ := setAll_cons h
      obtain ⟨hstart, hsize, hstored⟩ := setMemValue_of_inRange hrange
      rw [hview, ← lastWritten_concat] at hstored
      obtain ⟨hstart', hsize', hview'⟩ := ih hstored hrest
      refine ⟨hstart'.trans hstart, hsize'.trans hsize, ?_⟩
      rw [hview', List.append_assoc]
      rfl

/-- The bounds of the bytes make one bound: below `2 ^ 63` entries no access wraps around
and comes back into the memory. -/
theorem inRange_iff_le (hsize : mem.numEntries < 2 ^ 63) :
    mem.InRange address size.bytes ↔
      (address - mem.startAddr).toNat + size.bytes ≤ mem.numEntries := by
  obtain ⟨hpos, hle⟩ := size.bytes_bounds
  constructor
  · intro h
    have hfirst := h 0 hpos
    have hlast := h (size.bytes - 1) (by omega)
    bv_omega
  · intro h k hk
    bv_omega

end MemoryStore

/-- **Memory is a little-endian byte map.** In a zeroed memory that has gone through any
sequence of successful writes, an access succeeds exactly when its bytes end inside the
memory; a successful write changes exactly the bytes it covers, to the bytes of its value,
lowest first; and a successful read returns the little-endian value of the bytes last
written at its addresses. -/
theorem memory_is_byte_map {startAddr : BitVec 64} {numEntries : ℕ} {writes : List Write}
    {mem : MemoryStore} (hsize : numEntries < 2 ^ 63)
    (h : (MemoryStore.zeroed startAddr numEntries).setAll writes = some mem) :
    (∀ address size,
        (mem.getMemValue address size).1 = 0 ↔
          (address - startAddr).toNat + size.bytes ≤ numEntries) ∧
      (∀ address value size,
        (mem.setMemValue address value size).1 = 0 ↔
          (address - startAddr).toNat + size.bytes ≤ numEntries) ∧
      (∀ address value size, (mem.setMemValue address value size).1 = 0 →
        (mem.setMemValue address value size).2.startAddr = startAddr ∧
          (mem.setMemValue address value size).2.numEntries = numEntries ∧
          ∀ a, (mem.setMemValue address value size).2.view a =
            if (a - address).toNat < size.bytes then
              (value >>> ((a - address).toNat * 8)).setWidth 8
            else mem.view a) ∧
      ∀ address size, (mem.getMemValue address size).1 = 0 →
        (mem.getMemValue address size).2 = loadBytes (lastWritten writes) address size.bytes := by
  obtain ⟨hstart, hentries, hview⟩ :=
    MemoryStore.view_of_setAll (MemoryStore.view_zeroed startAddr numEntries) h
  rw [List.nil_append] at hview
  obtain rfl : mem.startAddr = startAddr := hstart
  obtain rfl : mem.numEntries = numEntries := hentries
  refine ⟨fun address size => ?_, fun address value size => ?_, fun address value size hset => ?_,
    fun address size hget => ?_⟩
  · exact MemoryStore.getMemValue_fst_eq_zero_iff.trans (MemoryStore.inRange_iff_le hsize)
  · exact MemoryStore.setMemValue_fst_eq_zero_iff.trans (MemoryStore.inRange_iff_le hsize)
  · obtain ⟨hstart', hentries', hstored⟩ := MemoryStore.setMemValue_of_inRange
      (MemoryStore.setMemValue_fst_eq_zero_iff.mp hset)
    exact ⟨hstart', hentries', fun a => congrFun hstored a⟩
  · rw [MemoryStore.getMemValue_of_inRange (MemoryStore.getMemValue_fst_eq_zero_iff.mp hget), hview]

/-- A halfword written into a doubleword at `0x100`, and the word read across both. -/
theorem memory_is_byte_map_overlap :
    let writes : List Write :=
      [⟨0x100, 0x1122334455667788, .doubleSize⟩, ⟨0x103, 0xaabb, .halfSize⟩]
    ∃ mem, (MemoryStore.zeroed 0x100 16).setAll writes = some mem ∧
      (mem.getMemValue 0x102 .wordSize).2 = 0x33aabb66 ∧
      (mem.getMemValue 0x102 .wordSize).2 = loadBytes (lastWritten writes) 0x102 4 := by
  intro writes
  obtain ⟨mem, hmem⟩ := Option.isSome_iff_exists.mp
    (by decide : ((MemoryStore.zeroed 0x100 16).setAll writes).isSome = true)
  obtain ⟨hget, -, -, hread⟩ := memory_is_byte_map (by decide) hmem
  have hvalue := hread 0x102 .wordSize ((hget _ _).mpr (by decide))
  refine ⟨mem, hmem, hvalue.trans (by decide), hvalue⟩

/-! ### Failing writes -/

/-- **A failing write may leave its mark.** A failing `setMemValue` leaves every byte as it
was exactly when each byte of the access in front of the first one outside the memory holds
already what is to be stored there. -/
theorem failed_store_untouched_iff (mem : MemoryStore) (address value : BitVec 64)
    (size : MemEntrySize) :
    ((mem.setMemValue address value size).1 ≠ 0 →
        ∀ index, (mem.setMemValue address value size).2.byteAt index = mem.byteAt index) ↔
      mem.InRange address size.bytes ∨
        ∀ k < size.bytes, mem.InRange address (k + 1) →
          mem.byteAt (address - mem.startAddr + BitVec.ofNat 64 k) =
            some ((value >>> (k * 8)).setWidth 8) := by
  obtain ⟨-, -, hbyte⟩ := mem.setMemValue_byteAt address value size
  obtain ⟨-, hle⟩ := size.bytes_bounds
  rw [← MemoryStore.setMemValue_fst_eq_zero_iff, or_iff_not_imp_left]
  refine imp_congr_right fun _ => ⟨fun hkept k hk hinside => ?_, fun hholds index => ?_⟩
  · have hoffset : (address - mem.startAddr + BitVec.ofNat 64 k -
        (address - mem.startAddr)).toNat = k := by
      bv_omega
    rw [← hkept, hbyte, hoffset, if_pos ⟨hk, hinside⟩]
  · rw [hbyte]
    split
    · rename_i hwritten
      have hindex : index = address - mem.startAddr +
          BitVec.ofNat 64 (index - (address - mem.startAddr)).toNat := by
        bv_omega
      rw [← hholds _ hwritten.1 hwritten.2, ← hindex]
    · rfl

/-- A doubleword store across the end of the 64 KB fails with its low word written. -/
theorem failed_store_written :
    let mem : MemoryStore := .image fun _ => 0
    (mem.setMemValue 0xfffc 0x1122334455667788 .doubleSize).1 = -einval ∧
      mem.byteAt 0xfffc = some 0 ∧
      (mem.setMemValue 0xfffc 0x1122334455667788 .doubleSize).2.byteAt 0xfffc = some 0x88 := by
  decide

end RvPipeSim
