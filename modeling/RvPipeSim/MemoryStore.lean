import RvPipeSim.Utilities

/-!
# The memory store

`MemoryStore.cpp`: a vector of bytes behind a start address. An access walks its bytes
from the lowest up and stops at the first index `vector::at` rejects, so a read that
runs off the end leaves the bytes collected so far in `value`, and a write that runs
off the end leaves the bytes written so far in memory.
-/

namespace RvPipeSim

/-- The sizes at which memory can be accessed. -/
inductive MemEntrySize
  | byteSize
  | halfSize
  | wordSize
  | doubleSize
  deriving DecidableEq, Repr

/-- The number of bytes of an access (`static_cast<uint64_t>(size)`). -/
def MemEntrySize.bytes : MemEntrySize → ℕ
  | .byteSize => 1
  | .halfSize => 2
  | .wordSize => 4
  | .doubleSize => 8

/-- The memory of the main programs is 64 KB large. -/
abbrev memorySize : ℕ := 0x10000

/-- `EINVAL` of `errno.h`. -/
abbrev einval : ℤ := 22

/-- A memory: `numEntries` bytes starting at `startAddr`. -/
structure MemoryStore where
  startAddr : BitVec 64
  numEntries : ℕ
  memArr : Fin numEntries → BitVec 8

namespace MemoryStore

/-- The memory of a main program that holds the word `word i` at address `4 * i`. -/
def image (word : ℕ → BitVec 32) : MemoryStore where
  startAddr := 0
  numEntries := memorySize
  memArr := fun i => ((word (i.val / 4)) >>> (8 * (i.val % 4))).setWidth 8

/-- `memArr.at(index)`, with `none` for the exception. -/
def byteAt (mem : MemoryStore) (index : BitVec 64) : Option (BitVec 8) :=
  if h : index.toNat < mem.numEntries then some (mem.memArr ⟨index.toNat, h⟩) else none

/-- `memArr.at(index) = byte`, with `none` for the exception. -/
def setByte (mem : MemoryStore) (index : BitVec 64) (byte : BitVec 8) : Option MemoryStore :=
  if h : index.toNat < mem.numEntries then
    some { mem with memArr := Function.update mem.memArr ⟨index.toNat, h⟩ byte }
  else none

/-- The read loop of `getOrSetValue`, with `remaining` bytes to go from byte `i` on. -/
def getLoop (mem : MemoryStore) (relativeAddr : BitVec 64) :
    (remaining i : ℕ) → BitVec 64 → ℤ × BitVec 64
  | 0, _, value => (0, value)
  | remaining + 1, i, value =>
      match mem.byteAt (relativeAddr + BitVec.ofNat 64 i) with
      | none => (-einval, value)
      | some byte =>
          getLoop mem relativeAddr remaining (i + 1) (value ||| (byte.setWidth 64 <<< (i * 8)))

/-- The write loop of `getOrSetValue`, with `remaining` bytes to go from byte `i` on. -/
def setLoop (relativeAddr value : BitVec 64) : (remaining i : ℕ) → MemoryStore → ℤ × MemoryStore
  | 0, _, mem => (0, mem)
  | remaining + 1, i, mem =>
      match mem.setByte (relativeAddr + BitVec.ofNat 64 i) ((value >>> (i * 8)).setWidth 8) with
      | none => (-einval, mem)
      | some mem => setLoop relativeAddr value remaining (i + 1) mem

/-- Read `size` bytes at `address`: the return code, and the value left in `value`. -/
def getMemValue (mem : MemoryStore) (address : BitVec 64) (size : MemEntrySize) :
    ℤ × BitVec 64 :=
  mem.getLoop (address - mem.startAddr) size.bytes 0 0#64

/-- Write the low `size` bytes of `value` at `address`: the return code, and the memory. -/
def setMemValue (mem : MemoryStore) (address value : BitVec 64) (size : MemEntrySize) :
    ℤ × MemoryStore :=
  setLoop (address - mem.startAddr) value size.bytes 0 mem

/-! ### What a write leaves alone -/

section Frame

variable {mem mem' : MemoryStore}

/-- A write of one byte keeps the bounds and all other bytes. -/
theorem setByte_frame {index : BitVec 64} {byte : BitVec 8}
    (h : mem.setByte index byte = some mem') :
    mem'.startAddr = mem.startAddr ∧
      ∀ index', index' ≠ index → mem'.byteAt index' = mem.byteAt index' := by
  rw [setByte] at h
  split at h
  · rename_i hbound
    obtain rfl := Option.some.inj h
    refine ⟨rfl, fun index' hne => ?_⟩
    simp only [byteAt]
    split
    · rename_i hbound'
      have hne' : (⟨index'.toNat, hbound'⟩ : Fin mem.numEntries) ≠ ⟨index.toNat, hbound⟩ :=
        fun heq => hne (BitVec.eq_of_toNat_eq (Fin.mk.inj heq))
      rw [Function.update_of_ne hne']
    · rfl
  · exact absurd h (by simp)

/-- The write loop changes the bytes it walks over only. -/
theorem setLoop_frame (relativeAddr value : BitVec 64) (remaining i : ℕ) (mem : MemoryStore) :
    (setLoop relativeAddr value remaining i mem).2.startAddr = mem.startAddr ∧
      ∀ index, (∀ k, i ≤ k → k < i + remaining → index ≠ relativeAddr + BitVec.ofNat 64 k) →
        (setLoop relativeAddr value remaining i mem).2.byteAt index = mem.byteAt index := by
  induction remaining generalizing i mem with
  | zero => exact ⟨rfl, fun _ _ => rfl⟩
  | succ remaining ih =>
      rw [setLoop]
      split
      · exact ⟨rfl, fun _ _ => rfl⟩
      · rename_i mem₁ hset
        obtain ⟨hstart, hbytes⟩ := setByte_frame hset
        obtain ⟨hstart', hbytes'⟩ := ih (i + 1) mem₁
        refine ⟨hstart'.trans hstart, fun index hindex => ?_⟩
        rw [hbytes' index fun k hk hk' => hindex k (by omega) (by omega)]
        exact hbytes index (hindex i (by omega) (by omega))

/-- The read loop depends on the bytes it walks over only. -/
theorem getLoop_congr {relativeAddr : BitVec 64} {remaining i : ℕ} (value : BitVec 64)
    (h : ∀ k, i ≤ k → k < i + remaining →
      mem'.byteAt (relativeAddr + BitVec.ofNat 64 k) =
        mem.byteAt (relativeAddr + BitVec.ofNat 64 k)) :
    mem'.getLoop relativeAddr remaining i value = mem.getLoop relativeAddr remaining i value := by
  induction remaining generalizing i value with
  | zero => rfl
  | succ remaining ih =>
      rw [getLoop, getLoop, h i (by omega) (by omega)]
      split
      · rfl
      · exact ih _ fun k hk hk' => h k (by omega) (by omega)

/-- **A write leaves every read of other bytes as it was.** -/
theorem getMemValue_setMemValue {address address' value : BitVec 64} {size size' : MemEntrySize}
    (hdisjoint : ∀ k < size.bytes, ∀ i < size'.bytes,
      address + BitVec.ofNat 64 k ≠ address' + BitVec.ofNat 64 i) :
    (mem.setMemValue address' value size').2.getMemValue address size =
      mem.getMemValue address size := by
  obtain ⟨hstart, hbytes⟩ :=
    setLoop_frame (address' - mem.startAddr) value size'.bytes 0 mem
  rw [setMemValue, getMemValue, getMemValue, hstart]
  refine getLoop_congr _ fun k _ hk => hbytes _ fun i _ hi heq => ?_
  refine hdisjoint k (by omega) i (by omega) ?_
  bv_omega

end Frame

end MemoryStore

end RvPipeSim
