import RvPipeSim.ByteMap

/-!
# Loading a program

`loadFromFile` reads a file into a buffer and calls `setMemValue` for each of its bytes. The
address it passes is the offset in the file, not the start address of the memory plus the
offset, and it looks at no result. So the byte it leaves at a position of the memory is the
one the file has at offset `startAddr` plus the position (`loadLoop_byteAt`), and bytes that
do not fit are dropped; either way it returns SUCCESS.
-/

namespace RvPipeSim

namespace MemoryStore

/-- The loop of `loadFromFile` from offset `i` on. A `char` is signed: what is passed to
`setMemValue` is its sign extension. -/
def loadLoop : (buf : List (BitVec 8)) → (i : ℕ) → MemoryStore → MemoryStore
  | [], _, mem => mem
  | byte :: buf, i, mem =>
      loadLoop buf (i + 1) (mem.setMemValue (BitVec.ofNat 64 i) (byte.signExtend 64) .byteSize).2

/-- `loadFromFile` for the content of the file, `none` if it cannot be opened. The length is
kept in an `int`; a negative one makes `new` throw, which no one catches. -/
def loadFromFile (mem : MemoryStore) (file : Option (List (BitVec 8))) :
    Option (Status × MemoryStore) :=
  match file with
  | none => some (.error, mem)
  | some content =>
      let length : BitVec 32 := BitVec.ofNat 32 content.length
      if length.slt 0 then none
      else some (.success, loadLoop (content.take length.toNat) 0 mem)

variable {mem : MemoryStore}

/-- A `char` stored as a byte is the byte it was read from. -/
theorem setWidth_signExtend (byte : BitVec 8) : (byte.signExtend 64).setWidth 8 = byte := by
  apply BitVec.eq_of_getLsbD_eq
  intro i hi
  rw [BitVec.getLsbD_setWidth, BitVec.getLsbD_signExtend, decide_eq_true hi,
    decide_eq_true (by omega : i < 64), if_pos hi, Bool.true_and, Bool.true_and]

/-- What a write of one byte leaves. -/
theorem setMemValue_byte (mem : MemoryStore) (address : BitVec 64) (byte : BitVec 8) :
    (mem.setMemValue address (byte.signExtend 64) .byteSize).2.startAddr = mem.startAddr ∧
      (mem.setMemValue address (byte.signExtend 64) .byteSize).2.numEntries = mem.numEntries ∧
      ∀ index, index.toNat < mem.numEntries →
        (mem.setMemValue address (byte.signExtend 64) .byteSize).2.byteAt index =
          if mem.startAddr + index = address then some byte else mem.byteAt index := by
  obtain ⟨hstart, hsize, hbyte⟩ :=
    mem.setMemValue_byteAt address (byte.signExtend 64) .byteSize
  refine ⟨hstart, hsize, fun index hindex => ?_⟩
  rw [hbyte]
  by_cases heq : mem.startAddr + index = address
  · have hoffset : (index - (address - mem.startAddr)).toNat = 0 := by bv_omega
    have hinside : mem.InRange address 1 := by
      intro k hk
      bv_omega
    rw [hoffset, if_pos ⟨by decide, hinside⟩, if_pos heq, Nat.zero_mul, BitVec.ushiftRight_zero,
      setWidth_signExtend]
  · have hoffset : (index - (address - mem.startAddr)).toNat ≠ 0 := by bv_omega
    rw [if_neg heq, if_neg]
    rintro ⟨hlt, -⟩
    exact hoffset (Nat.lt_one_iff.mp hlt)

/-- What the loop leaves: at each position of the memory, the byte the file has for the
address of the position, if the loop comes to it. -/
theorem loadLoop_byteAt (buf : List (BitVec 8)) {i : ℕ} (hi : i + buf.length < 2 ^ 64) :
    (loadLoop buf i mem).startAddr = mem.startAddr ∧
      (loadLoop buf i mem).numEntries = mem.numEntries ∧
      ∀ index, index.toNat < mem.numEntries → (loadLoop buf i mem).byteAt index =
        if i ≤ (mem.startAddr + index).toNat then
          (buf[(mem.startAddr + index).toNat - i]?).or (mem.byteAt index)
        else mem.byteAt index := by
  induction buf generalizing i mem with
  | nil =>
      refine ⟨rfl, rfl, fun index _ => ?_⟩
      rw [List.getElem?_nil, Option.none_or, ite_self]
      rfl
  | cons byte buf ih =>
      obtain ⟨hstart, hsize, hbyte⟩ := mem.setMemValue_byte (BitVec.ofNat 64 i) byte
      rw [List.length_cons] at hi
      obtain ⟨hstart', hsize', hbyte'⟩ :=
        @ih (mem.setMemValue (BitVec.ofNat 64 i) (byte.signExtend 64) .byteSize).2 (i + 1)
          (by omega)
      rw [loadLoop]
      refine ⟨hstart'.trans hstart, hsize'.trans hsize, fun index hindex => ?_⟩
      rw [hbyte' index (hsize ▸ hindex), hbyte index hindex, hstart]
      -- the position of offset `i` is this step's, the ones behind it are the induction's
      rcases Nat.lt_trichotomy (mem.startAddr + index).toNat i with hlt | heq | hgt
      · have hne : mem.startAddr + index ≠ BitVec.ofNat 64 i := by
          intro h
          bv_omega
        rw [if_neg (by omega), if_neg hne, if_neg (by omega)]
      · have hat : mem.startAddr + index = BitVec.ofNat 64 i := by bv_omega
        rw [if_neg (by omega), if_pos hat, if_pos (by omega), heq, Nat.sub_self]
        rfl
      · have hne : mem.startAddr + index ≠ BitVec.ofNat 64 i := by
          intro h
          bv_omega
        have hsucc : (mem.startAddr + index).toNat - i =
            (mem.startAddr + index).toNat - (i + 1) + 1 := by
          omega
        rw [if_pos (by omega), if_neg hne, if_pos (by omega), hsucc, List.getElem?_cons_succ]

/-- A byte read gives the byte at its position, or fails. -/
theorem getMemValue_byte_iff {address : BitVec 64} {byte : BitVec 8} :
    mem.getMemValue address .byteSize = (0, byte.setWidth 64) ↔
      mem.byteAt (address - mem.startAddr) = some byte := by
  have hread : mem.getMemValue address .byteSize =
      (mem.byteAt (address - mem.startAddr)).elim (-einval, 0)
        fun byte => (0, byte.setWidth 64) := by
    have hfirst : address - mem.startAddr + BitVec.ofNat 64 0 = address - mem.startAddr := by
      bv_omega
    rw [getMemValue, MemEntrySize.bytes, getLoop, hfirst]
    cases mem.byteAt (address - mem.startAddr) with
    | none => rfl
    | some byte => simp [getLoop]
  rw [hread]
  cases mem.byteAt (address - mem.startAddr) with
  | none => exact ⟨fun h => absurd (Prod.mk.inj h).1 (by decide), fun h => absurd h (by simp)⟩
  | some b =>
      rw [Option.elim_some, Prod.mk.injEq, Option.some.injEq]
      refine ⟨fun h => ?_, fun h => ⟨rfl, by rw [h]⟩⟩
      have hbytes := congrArg (BitVec.setWidth 8) h.2
      rwa [BitVec.setWidth_setWidth_of_le _ (by omega), BitVec.setWidth_setWidth_of_le _ (by omega),
        BitVec.setWidth_eq, BitVec.setWidth_eq] at hbytes

/-! ### When the program is in memory -/

/-- A SUCCESS of `loadFromFile` stands for the program in memory: every byte of the file can
be read at its address, and the bytes of memory outside the range of the file are as they
were. -/
def Loads (mem : MemoryStore) (file : Option (List (BitVec 8))) : Prop :=
  ∀ content mem', file = some content → mem.loadFromFile file = some (.success, mem') →
    (∀ i byte, content[i]? = some byte →
      mem'.getMemValue (mem.startAddr + BitVec.ofNat 64 i) .byteSize = (0, byte.setWidth 64)) ∧
    ∀ address, content.length ≤ (address - mem.startAddr).toNat →
      mem'.byteAt (address - mem.startAddr) = mem.byteAt (address - mem.startAddr)

/-- The part of the file that is read: its length goes through an `int`. -/
def readPart (content : List (BitVec 8)) : List (BitVec 8) :=
  content.take (BitVec.ofNat 32 content.length).toNat

/-- The file fits into the memory, and at each position of the memory, the part of the file
that is read has at the address of the position the byte that the file has at the position;
where a file has none, the byte of the memory stands for it. -/
def LoadsInPlace (mem : MemoryStore) (content : List (BitVec 8)) : Prop :=
  content.length ≤ mem.numEntries ∧
    ∀ index : BitVec 64, index.toNat < mem.numEntries →
      ((readPart content)[(mem.startAddr + index).toNat]?).or (mem.byteAt index) =
        (content[index.toNat]?).or (mem.byteAt index)

/-- No more is read than a 64-bit index can count. -/
theorem readPart_length_lt (content : List (BitVec 8)) : (readPart content).length < 2 ^ 64 := by
  have hle : (readPart content).length ≤ (BitVec.ofNat 32 content.length).toNat :=
    List.length_take_le ..
  have hlt := (BitVec.ofNat 32 content.length).isLt
  omega

section Loads

variable {content : List (BitVec 8)}

/-- What a SUCCESS leaves at a position. -/
theorem loaded_byteAt {index : BitVec 64} (hindex : index.toNat < mem.numEntries) :
    (loadLoop (readPart content) 0 mem).byteAt index =
      ((readPart content)[(mem.startAddr + index).toNat]?).or (mem.byteAt index) := by
  obtain ⟨-, -, hbyte⟩ := @loadLoop_byteAt mem (readPart content) 0
    (by rw [Nat.zero_add]; exact readPart_length_lt content)
  rw [hbyte index hindex, if_pos (Nat.zero_le _), Nat.sub_zero]

/-- An address that was reached from the start of the memory leads back to its index. -/
theorem position_add (index : BitVec 64) : mem.startAddr + index - mem.startAddr = index := by
  bv_omega

/-- A byte of the file is readable where it belongs if its position holds it. -/
theorem loaded_read_iff {i : ℕ} {byte : BitVec 8} :
    (loadLoop (readPart content) 0 mem).getMemValue (mem.startAddr + BitVec.ofNat 64 i)
        .byteSize = (0, byte.setWidth 64) ↔
      (loadLoop (readPart content) 0 mem).byteAt (BitVec.ofNat 64 i) = some byte := by
  obtain ⟨hstart, -, -⟩ := @loadLoop_byteAt mem (readPart content) 0
    (by rw [Nat.zero_add]; exact readPart_length_lt content)
  rw [getMemValue_byte_iff, hstart, position_add]

/-- The bytes of the file are readable where they belong exactly if they are loaded in
place. -/
theorem loaded_iff (hsize : mem.numEntries < 2 ^ 63) :
    ((∀ i byte, content[i]? = some byte →
        (loadLoop (readPart content) 0 mem).getMemValue (mem.startAddr + BitVec.ofNat 64 i)
          .byteSize = (0, byte.setWidth 64)) ∧
      ∀ address, content.length ≤ (address - mem.startAddr).toNat →
        (loadLoop (readPart content) 0 mem).byteAt (address - mem.startAddr) =
          mem.byteAt (address - mem.startAddr)) ↔
      mem.LoadsInPlace content := by
  obtain ⟨-, hentries, -⟩ := @loadLoop_byteAt mem (readPart content) 0
    (by rw [Nat.zero_add]; exact readPart_length_lt content)
  simp only [loaded_read_iff]
  constructor
  · rintro ⟨hat, houtside⟩
    refine ⟨Nat.le_of_not_lt fun hlong => ?_, fun index hindex => ?_⟩
    · -- the first byte behind the memory would have to be readable
      have hlast := hat mem.numEntries _ (List.getElem?_eq_getElem hlong)
      rw [byteAt_eq_none] at hlast
      · exact absurd hlast (by simp)
      · rw [hentries, BitVec.toNat_ofNat, Nat.mod_eq_of_lt (by omega)]
        exact Nat.lt_irrefl _
    · rw [← loaded_byteAt hindex]
      cases hbyte : content[index.toNat]? with
      | some byte =>
          have hindex' : BitVec.ofNat 64 index.toNat = index := by simp
          rw [← hindex', hat _ _ hbyte]
          rfl
      | none =>
          have hlong := List.getElem?_eq_none_iff.mp hbyte
          have hkept := houtside (mem.startAddr + index) (by rwa [position_add])
          rw [position_add] at hkept
          rw [hkept]
          rfl
  · rintro ⟨hfits, hplace⟩
    refine ⟨fun i byte hbyte => ?_, fun address houtside => ?_⟩
    · obtain ⟨hlt, -⟩ := List.getElem?_eq_some_iff.mp hbyte
      have hindex : (BitVec.ofNat 64 i).toNat = i := by
        rw [BitVec.toNat_ofNat, Nat.mod_eq_of_lt (by omega)]
      rw [loaded_byteAt (by omega), hplace _ (by omega), hindex, hbyte]
      rfl
    · by_cases hindex : (address - mem.startAddr).toNat < mem.numEntries
      · rw [loaded_byteAt hindex, hplace _ hindex, List.getElem?_eq_none houtside]
        rfl
      · rw [byteAt_eq_none hindex, byteAt_eq_none (by rwa [hentries])]

/-- A memory that starts at 0 is loaded in place by any file that fits. -/
theorem loadsInPlace_iff_of_zero (hstart : mem.startAddr = 0) (hshort : content.length < 2 ^ 31) :
    mem.LoadsInPlace content ↔ content.length ≤ mem.numEntries := by
  have hall : readPart content = content := by
    refine List.take_of_length_le ?_
    rw [BitVec.toNat_ofNat, Nat.mod_eq_of_lt (by omega)]
  refine ⟨fun h => h.1, fun hfits => ⟨hfits, fun index _ => ?_⟩⟩
  have hposition : 0 + index = index := by bv_omega
  rw [hall, hstart, hposition]

end Loads

end MemoryStore

/-- **A SUCCESS stands for the program in memory exactly where it is loaded in place.** The
file cannot be opened, or its length is negative as an `int` (both return no SUCCESS), or it
fits into the memory and the bytes its offsets as addresses hit are the ones that belong
there. In a memory that starts at 0, that is every file below 2 GB that fits. -/
theorem load_success_iff {mem : MemoryStore} (hsize : mem.numEntries < 2 ^ 63) :
    (∀ file, mem.Loads file ↔
      ∀ content, file = some content → (BitVec.ofNat 32 content.length).slt 0 = false →
        mem.LoadsInPlace content) ∧
      (mem.startAddr = 0 → ∀ content : List (BitVec 8), content.length < 2 ^ 31 →
        (mem.Loads (some content) ↔ content.length ≤ mem.numEntries)) := by
  have hiff : ∀ file, mem.Loads file ↔
      ∀ content, file = some content → (BitVec.ofNat 32 content.length).slt 0 = false →
        mem.LoadsInPlace content := by
    intro file
    refine forall_congr' fun content => ?_
    constructor
    · rintro h rfl hlength
      exact (MemoryStore.loaded_iff hsize).mp
        (h _ rfl (by rw [MemoryStore.loadFromFile, hlength]; rfl))
    · rintro h mem' rfl hload
      rw [MemoryStore.loadFromFile] at hload
      split at hload
      · exact absurd hload (by simp)
      · rename_i hlength
        obtain rfl := (Prod.mk.inj (Option.some.inj hload)).2
        exact (MemoryStore.loaded_iff hsize).mpr (h rfl (Bool.eq_false_iff.mpr hlength))
  refine ⟨hiff, fun hstart content hshort => ?_⟩
  rw [hiff, ← MemoryStore.loadsInPlace_iff_of_zero hstart hshort]
  refine ⟨fun h => h content rfl ?_, fun h content' heq _ => Option.some.inj heq ▸ h⟩
  rw [BitVec.slt_eq_decide, decide_eq_false_iff_not]
  have hnonneg : 0 ≤ (BitVec.ofNat 32 content.length).toInt := by
    rw [BitVec.toInt_eq_toNat_of_lt] <;> rw [BitVec.toNat_ofNat, Nat.mod_eq_of_lt] <;> omega
  simpa using hnonneg

/-- A memory at `0x100` takes no byte of a file, and a memory of one byte drops the second:
both calls return SUCCESS. -/
theorem load_success_in_vain :
    ¬ (MemoryStore.zeroed 0x100 8).Loads (some [0x13]) ∧
      ¬ (MemoryStore.zeroed 0 1).Loads (some [0x13, 0x05]) := by
  constructor
  · intro h
    exact absurd ((h [0x13] _ rfl rfl).1 0 0x13 rfl) (by decide)
  · intro h
    exact absurd ((h [0x13, 0x05] _ rfl rfl).1 1 0x05 rfl) (by decide)

/-- A file of four bytes in a memory of eight. -/
theorem load_success_fits :
    (MemoryStore.zeroed 0 8).Loads (some [0x13, 0x05, 0xf0, 0xff]) :=
  ((load_success_iff (by decide)).2 rfl [0x13, 0x05, 0xf0, 0xff] (by decide)).mpr (by decide)

end RvPipeSim
