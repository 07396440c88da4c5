import RvPipeSim.ByteMap
import RvPipeSim.Lib.InputStream

/-!
# The initial memory image

`prepareMemory` reads pairs of an address and a word from `init_mem_image` and stores them.
Its loop asks the stream before it reads and not after: the round that finds the end of the
file stores as well, and what it stores is what its variables were set to at the start of the
round, the word 0 at address 0. `prepareLoop_imageText` says so for every text of pairs, with
or without blanks behind the last one, and `initial_image_iff` when the store is harmless:
when the pairs leave zeros in the first four bytes anyway.
-/

namespace RvPipeSim

open InputStream

namespace MemoryStore

/-! ### The loop -/

/-- The loop of `prepareMemory`, with the stream `initMem` and a memory that exists. -/
def prepareLoop (initMem : IStream) (mem : MemoryStore) : ℤ × MemoryStore :=
  if initMem.failbit then (0, mem)
  else
    let addr := initMem.extractHex 0#32
    let curVal := addr.1.extractHex 0#32
    let stored := mem.setMemValue (addr.2.setWidth 64) (curVal.2.setWidth 64) .wordSize
    if stored.1 ≠ 0 then (-einval, stored.2)
    else prepareLoop curVal.1 stored.2
termination_by initMem.left
decreasing_by
  rename_i hfail _
  rw [Bool.not_eq_true] at hfail
  exact (IStream.left_extractHex_le _ _).trans_lt (IStream.left_extractHex hfail _)

/-- `prepareMemory` for the text of `init_mem_image`, `none` if it cannot be opened. -/
def prepareMemory (file : Option (List Char)) (mem : MemoryStore) : ℤ × MemoryStore :=
  prepareLoop (IStream.openFile file) mem

variable {mem mem' : MemoryStore}

/-- Without an image nothing is done. -/
theorem prepareMemory_none (mem : MemoryStore) : prepareMemory none mem = (0, mem) := by
  rw [prepareMemory, prepareLoop]
  rfl

/-- **The round at the end of the file stores the word 0 at address 0**, and is the last. -/
theorem prepareLoop_of_exhausted {initMem : IStream} (hfail : initMem.failbit = false)
    (h : initMem.Exhausted) (mem : MemoryStore) :
    prepareLoop initMem mem = mem.setMemValue 0 0 .wordSize := by
  obtain ⟨hfail₁, haddr⟩ := IStream.extractHex_of_exhausted h 0#32
  obtain ⟨hfail₂, hword⟩ := IStream.extractHex_of_exhausted (.inl hfail₁) 0#32
  have hzero : (0#32).setWidth 64 = 0 := rfl
  rw [prepareLoop, hfail, if_neg Bool.false_ne_true]
  dsimp only
  rw [haddr, hword, hzero, prepareLoop, if_pos hfail₂]
  by_cases hstored : (mem.setMemValue 0 0 .wordSize).1 = 0
  · rw [if_neg (not_not.mpr hstored)]
    exact Prod.ext hstored.symm rfl
  · rw [if_pos hstored]
    exact Prod.ext ((setLoop_fst _ _ _ _ _).resolve_left hstored).symm rfl

end MemoryStore

/-! ### Texts of pairs -/

/-- A text with the pairs of an image: numerals for the address and the word of each, apart
by blanks, with blanks in front and behind or not. -/
inductive ImageText : List (BitVec 32 × BitVec 32) → List Char → Prop
  | nil {text : List Char} : Blank text → ImageText [] text
  | cons {addr word : BitVec 32} {pairs : List (BitVec 32 × BitVec 32)}
      {front first gap second text : List Char} :
      Blank front → Numeral first addr.toNat → gap ≠ [] → Blank gap →
      Numeral second word.toNat → StartsBlank text → ImageText pairs text →
      ImageText ((addr, word) :: pairs) (front ++ (first ++ (gap ++ (second ++ text))))

/-- Blanks in front of a text of pairs change nothing. -/
theorem ImageText.blank_append {pairs : List (BitVec 32 × BitVec 32)} {blank text : List Char}
    (hblank : Blank blank) (h : ImageText pairs text) : ImageText pairs (blank ++ text) := by
  have happend : ∀ {front : List Char}, Blank front → Blank (blank ++ front) :=
    fun hfront c hc => (List.mem_append.mp hc).elim (hblank c) (hfront c)
  cases h with
  | nil htext => exact .nil (happend htext)
  | cons hfront hfirst hne hgap hsecond hrest htext =>
      rw [← List.append_assoc]
      exact .cons (happend hfront) hfirst hne hgap hsecond hrest htext

/-- An image written out, one pair a line. -/
def imageLines : List (BitVec 32 × BitVec 32) → List Char
  | [] => []
  | (addr, word) :: pairs =>
      Nat.toDigits 16 addr.toNat ++
        ([' '] ++ (Nat.toDigits 16 word.toNat ++ (['\n'] ++ imageLines pairs)))

/-- Every image can be written. -/
theorem imageText_imageLines (pairs : List (BitVec 32 × BitVec 32)) :
    ImageText pairs (imageLines pairs) := by
  have hspace : Blank [' '] := by decide
  have hnewline : Blank ['\n'] := by decide
  induction pairs with
  | nil => exact .nil (by decide)
  | cons pair pairs ih =>
      exact @ImageText.cons pair.1 pair.2 pairs [] _ _ _ _ (by decide)
        (numeral_toDigits pair.1.toNat) (by simp) hspace (numeral_toDigits pair.2.toNat)
        (hnewline.startsBlank (by simp) _) (ih.blank_append hnewline)

/-- The stores of an image, in its order. -/
def imageWrites (pairs : List (BitVec 32 × BitVec 32)) : List Write :=
  pairs.map fun pair => ⟨pair.1.setWidth 64, pair.2.setWidth 64, .wordSize⟩

namespace MemoryStore

variable {mem mem' : MemoryStore}

/-- A round in front of a pair stores the pair, and comes to the end of the stream exactly if
the text ends with the pair. -/
theorem prepareLoop_pair {initMem : IStream} {addr word : BitVec 32}
    {front first gap second text : List Char} (hgood : initMem.good = true)
    (hcome : initMem.rest = front ++ (first ++ (gap ++ (second ++ text))))
    (hfront : Blank front) (hfirst : Numeral first addr.toNat) (hne : gap ≠ [])
    (hgap : Blank gap) (hsecond : Numeral second word.toNat) (htext : StartsBlank text)
    (hstored : (mem.setMemValue (addr.setWidth 64) (word.setWidth 64) .wordSize).1 = 0) :
    prepareLoop initMem mem = prepareLoop { rest := text, eofbit := text.isEmpty }
      (mem.setMemValue (addr.setWidth 64) (word.setWidth 64) .wordSize).2 := by
  have hopen : (gap ++ (second ++ text)).isEmpty = false := by simp [hne]
  have hfail : initMem.failbit = false := by
    rw [IStream.good, Bool.and_eq_true, Bool.not_eq_true', Bool.not_eq_true'] at hgood
    exact hgood.2
  have haddr := IStream.extractHex_numeral hgood hcome hfront hfirst (hgap.startsBlank hne _)
    addr.isLt 0#32
  rw [hopen, BitVec.ofNat_toNat, BitVec.setWidth_eq] at haddr
  have hword := @IStream.extractHex_numeral 32 { rest := gap ++ (second ++ text) } gap second
    text _ rfl rfl hgap hsecond htext word.isLt 0#32
  rw [BitVec.ofNat_toNat, BitVec.setWidth_eq] at hword
  rw [prepareLoop, hfail, if_neg Bool.false_ne_true, haddr]
  dsimp only
  rw [hword]
  dsimp only
  rw [if_neg (not_not.mpr hstored)]

/-- **The loop makes the stores of the image, and one more of the word 0 at address 0.** -/
theorem prepareLoop_imageText {pairs : List (BitVec 32 × BitVec 32)} {text : List Char}
    (htext : ImageText pairs text) {eofbit : Bool} (heof : eofbit = true → text = [])
    (hset : setAll (imageWrites pairs) mem = some mem') :
    prepareLoop { rest := text, eofbit } mem = mem'.setMemValue 0 0 .wordSize := by
  induction htext generalizing mem eofbit with
  | nil hblank =>
      obtain rfl := Option.some.inj hset
      exact prepareLoop_of_exhausted rfl (.inr hblank) _
  | @cons addr word pairs front first gap second text hfront hfirst hne hgap hsecond hrest _ ih =>
      obtain ⟨hrange, hset'⟩ := setAll_cons hset
      have hgood : eofbit = false := by
        rw [← Bool.not_eq_true]
        intro hend
        obtain ⟨-, hnil⟩ := List.append_eq_nil_iff.mp (heof hend)
        exact hfirst.ne_nil (List.append_eq_nil_iff.mp hnil).1
      subst hgood
      rw [prepareLoop_pair rfl rfl hfront hfirst hne hgap hsecond hrest
        (setMemValue_fst_eq_zero_iff.mpr hrange)]
      exact ih (fun hempty => List.isEmpty_iff.mp hempty) hset'

/-! ### A store that changes nothing -/

/-- The word 0 at address 0 changes nothing exactly if the first four bytes are zero already. -/
theorem setMemValue_zero_iff (hstart : mem.startAddr = 0) :
    (mem.setMemValue 0 0 .wordSize).2 = mem ↔
      ∀ a : BitVec 64, a.toNat < 4 → mem.view a = 0 := by
  have hoffset : ∀ a : BitVec 64, a - mem.startAddr = a := fun a => hstart ▸ BitVec.sub_zero a
  have hsub : ∀ a : BitVec 64, a - 0 = a := BitVec.sub_zero
  have hadd : ∀ a : BitVec 64, 0 + a = a := BitVec.zero_add
  have hstored : ∀ k, ((0 : BitVec 64) >>> (k * 8)).setWidth 8 = 0#8 := by simp
  constructor
  · intro hsame a ha
    rw [view, hoffset]
    by_cases hinside : a.toNat < mem.numEntries
    · have hrange : mem.InRange 0 (a.toNat + 1) := by
        intro k hk
        rw [hoffset]
        bv_omega
      obtain ⟨-, -, hbyte⟩ := mem.setMemValue_byteAt 0 0 .wordSize
      have hfirst := hbyte a
      rw [hsame, hoffset, hsub, if_pos ⟨ha, hrange⟩, hstored] at hfirst
      rw [hfirst]
      rfl
    · rw [byteAt_eq_none hinside]
      rfl
  · intro hzero
    refine setLoop_self fun k _ hk byte hbyte => ?_
    have hk4 : k < 4 := by simpa [MemEntrySize.bytes] using hk
    have hview := hzero (BitVec.ofNat 64 k) (by bv_omega)
    rw [hoffset, hadd] at hbyte
    rw [view, hoffset, hbyte] at hview
    rw [hstored]
    exact hview

end MemoryStore

/-! ### The image and the memory -/

/-- **When the memory holds the initial image.** For a text of pairs in range, what
`prepareMemory` leaves of a zeroed memory from address 0 on is what the stores of the pairs
leave, exactly if these leave zeros at the addresses 0 to 3. -/
theorem initial_image_iff {pairs : List (BitVec 32 × BitVec 32)} {text : List Char}
    {numEntries : ℕ} (htext : ImageText pairs text)
    (hrange : ∀ pair ∈ pairs, pair.1.toNat + 4 ≤ numEntries) :
    (MemoryStore.zeroed 0 numEntries).setAll (imageWrites pairs) =
        some (MemoryStore.prepareMemory (some text) (.zeroed 0 numEntries)).2 ↔
      ∀ a : BitVec 64, a.toNat < 4 → lastWritten (imageWrites pairs) a = 0 := by
  obtain ⟨mem, hmem⟩ : ∃ mem,
      (MemoryStore.zeroed 0 numEntries).setAll (imageWrites pairs) = some mem := by
    refine MemoryStore.setAll_of_inRange (List.forall_mem_map.mpr fun pair hpair k hk => ?_)
    have hfits := hrange pair hpair
    have hk4 : k < 4 := hk
    simp only [MemoryStore.zeroed]
    bv_omega
  obtain ⟨hstart, -, hview⟩ :=
    MemoryStore.view_of_setAll (MemoryStore.view_zeroed 0 numEntries) hmem
  have hprepared : MemoryStore.prepareMemory (some text) (.zeroed 0 numEntries) =
      mem.setMemValue 0 0 .wordSize :=
    MemoryStore.prepareLoop_imageText htext (fun h => Bool.noConfusion h) hmem
  rw [hmem, hprepared, Option.some.injEq, eq_comm, MemoryStore.setMemValue_zero_iff hstart, hview]
  rfl

/-- A word for address `0x100`, at the end of the text without a newline. -/
theorem initial_image_apart :
    let pairs : List (BitVec 32 × BitVec 32) := [(0x100, 0xdeadbeef)]
    let text := ['1', '0', '0', ' ', 'd', 'e', 'a', 'd', 'b', 'e', 'e', 'f']
    ImageText pairs text ∧ (∀ pair ∈ pairs, pair.1.toNat + 4 ≤ memorySize) ∧
      (MemoryStore.zeroed 0 memorySize).setAll (imageWrites pairs) =
        some (MemoryStore.prepareMemory (some text) (.zeroed 0 memorySize)).2 := by
  intro pairs text
  have hfirst : Nat.toDigits 16 0x100 = ['1', '0', '0'] := by decide
  have hsecond : Nat.toDigits 16 0xdeadbeef = ['d', 'e', 'a', 'd', 'b', 'e', 'e', 'f'] := by decide
  have htext : ImageText pairs text :=
    @ImageText.cons 0x100 0xdeadbeef [] [] _ [' '] _ [] (by decide)
      (hfirst ▸ numeral_toDigits 0x100) (by decide) (by decide)
      (hsecond ▸ numeral_toDigits 0xdeadbeef) (fun _ h => nomatch h) (.nil (by decide))
  have hrange : ∀ pair ∈ pairs, pair.1.toNat + 4 ≤ memorySize :=
    List.forall_mem_singleton.mpr (by decide)
  refine ⟨htext, hrange, (initial_image_iff htext hrange).mpr fun a ha => ?_⟩
  have huncovered : ¬ (a - 0x100).toNat < 4 := by bv_omega
  refine lastWritten_of_uncovered fun w hw => ?_
  obtain rfl := List.mem_singleton.mp hw
  exact if_neg huncovered

/-- The image of the one word `0x12345678` at address 0: the store at the end of the file
takes it back. -/
theorem initial_image_overwritten :
    let pairs : List (BitVec 32 × BitVec 32) := [(0, 0x12345678)]
    let text := ['0', ' ', '1', '2', '3', '4', '5', '6', '7', '8', '\n']
    let prepared := (MemoryStore.prepareMemory (some text) (.zeroed 0 memorySize)).2
    ImageText pairs text ∧ (∀ pair ∈ pairs, pair.1.toNat + 4 ≤ memorySize) ∧
      (MemoryStore.zeroed 0 memorySize).setAll (imageWrites pairs) ≠ some prepared ∧
      ((MemoryStore.zeroed 0 memorySize).setAll (imageWrites pairs)).map
          (fun mem => mem.getMemValue 0 .wordSize) = some (0, 0x12345678) ∧
      prepared.getMemValue 0 .wordSize = (0, 0) := by
  intro pairs text prepared
  have hlines : imageLines pairs = text := by decide
  have htext : ImageText pairs text := hlines ▸ imageText_imageLines pairs
  obtain ⟨mem, hmem⟩ := Option.isSome_iff_exists.mp
    (by decide : ((MemoryStore.zeroed 0 memorySize).setAll (imageWrites pairs)).isSome = true)
  have himage : ((MemoryStore.zeroed 0 memorySize).setAll (imageWrites pairs)).map
      (fun mem => mem.getMemValue 0 .wordSize) = some (0, 0x12345678) := by
    decide
  have hprepared : prepared = (mem.setMemValue 0 0 .wordSize).2 :=
    congrArg Prod.snd
      (MemoryStore.prepareLoop_imageText htext (fun h => Bool.noConfusion h) hmem)
  have hread : prepared.getMemValue 0 .wordSize = (0, 0) := by
    have hstored : ((MemoryStore.zeroed 0 memorySize).setAll (imageWrites pairs)).map
        (fun mem => (mem.setMemValue 0 0 .wordSize).2.getMemValue 0 .wordSize) = some (0, 0) := by
      decide
    rw [hmem] at hstored
    rw [hprepared]
    exact Option.some.inj hstored
  refine ⟨htext, List.forall_mem_singleton.mpr (by decide), fun hsame => ?_, himage, hread⟩
  rw [hsame, Option.map_some, hread] at himage
  exact absurd himage (by decide)

end RvPipeSim
