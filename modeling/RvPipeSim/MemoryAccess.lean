import RvPipeSim.Flow
import RvPipeSim.Lib.Rv64i

/-!
# What an access reads, writes and reports

The byte loop of `getOrSetValue` in the terms of the instruction set: `MemoryStore.view`
is the memory as a function from addresses to bytes, and an access is `InRange` when
every byte of it lies inside the memory. The loop returns `0` on those accesses and on no
others; there it reads `loadBytes` of the view and leaves `storeBytes` of it behind.

`simMemAccess` compares the result of the loop with `EINVAL`, while the loop reports a
failure as `-EINVAL`, and for a store it does not look at the result at all. So it reports
no access as a fault, and `mem_exception_iff` reads: the exception flag is right exactly
for the accesses in range.
-/

namespace RvPipeSim

open Rv64i

namespace MemoryStore

/-- Every byte of the `n` bytes at an address lies inside the memory. -/
def InRange (mem : MemoryStore) (address : BitVec 64) (n : ℕ) : Prop :=
  ∀ k < n, (address - mem.startAddr + BitVec.ofNat 64 k).toNat < mem.numEntries

instance (mem : MemoryStore) (address : BitVec 64) (n : ℕ) : Decidable (mem.InRange address n) :=
  inferInstanceAs (Decidable (∀ k < n, _))

/-- The byte at every address, zero outside the memory. -/
def view (mem : MemoryStore) (address : BitVec 64) : BitVec 8 :=
  (mem.byteAt (address - mem.startAddr)).getD 0

section Loops

variable {mem : MemoryStore} {relativeAddr : BitVec 64}

/-- Inside, the byte at an index is the one the view shows. -/
theorem byteAt_eq_view {index : BitVec 64} (h : index.toNat < mem.numEntries) :
    mem.byteAt index = some (mem.view (mem.startAddr + index)) := by
  have hindex : mem.startAddr + index - mem.startAddr = index := by bv_omega
  rw [view, hindex, byteAt, dif_pos h]
  rfl

/-- Outside there is no byte. -/
theorem byteAt_eq_none {index : BitVec 64} (h : ¬ index.toNat < mem.numEntries) :
    mem.byteAt index = none :=
  dif_neg h

/-- The read loop fails exactly when it walks over a byte outside the memory. -/
theorem getLoop_fst_eq_zero_iff {remaining i : ℕ} {value : BitVec 64} :
    (mem.getLoop relativeAddr remaining i value).1 = 0 ↔
      ∀ k, i ≤ k → k < i + remaining →
        (relativeAddr + BitVec.ofNat 64 k).toNat < mem.numEntries := by
  induction remaining generalizing i value with
  | zero => exact ⟨fun _ k hk hk' => by omega, fun _ => rfl⟩
  | succ remaining ih =>
      rw [getLoop]
      by_cases hi : (relativeAddr + BitVec.ofNat 64 i).toNat < mem.numEntries
      · rw [byteAt_eq_view hi]
        refine ih.trans ⟨fun h k hk hk' => ?_, fun h k hk hk' => h k (by omega) (by omega)⟩
        rcases Nat.eq_or_lt_of_le hk with rfl | hlt
        · exact hi
        · exact h k hlt (by omega)
      · rw [byteAt_eq_none hi]
        refine ⟨fun h => ?_, fun h => absurd (h i (Nat.le_refl i) (by omega)) hi⟩
        have hne : -einval ≠ 0 := by decide
        exact absurd h hne

/-- On bytes inside the memory the read loop collects their little-endian value. -/
theorem getLoop_eq_loadBytes {remaining i : ℕ} {value : BitVec 64}
    (h : ∀ k, i ≤ k → k < i + remaining →
      (relativeAddr + BitVec.ofNat 64 k).toNat < mem.numEntries) :
    (mem.getLoop relativeAddr remaining i value).2 =
      value ||| (loadBytes mem.view (mem.startAddr + (relativeAddr + BitVec.ofNat 64 i)) remaining
        <<< (i * 8)) := by
  induction remaining generalizing i value with
  | zero => simp [getLoop, loadBytes]
  | succ remaining ih =>
      have hnext : mem.startAddr + (relativeAddr + BitVec.ofNat 64 i) + 1 =
          mem.startAddr + (relativeAddr + BitVec.ofNat 64 (i + 1)) := by
        rw [BitVec.ofNat_add]
        bv_omega
      have hshift : (i + 1) * 8 = 8 + i * 8 := by omega
      rw [getLoop, byteAt_eq_view (h i (Nat.le_refl i) (by omega)), loadBytes, hnext]
      dsimp only
      rw [ih fun k hk hk' => h k (by omega) (by omega), hshift, BitVec.shiftLeft_add,
        BitVec.shiftLeft_or_distrib, BitVec.or_assoc]

/-- Inside, a byte is written, and only that one. -/
theorem setByte_of_inside {index : BitVec 64} (h : index.toNat < mem.numEntries)
    (byte : BitVec 8) :
    ∃ mem', mem.setByte index byte = some mem' ∧ mem'.startAddr = mem.startAddr ∧
      mem'.numEntries = mem.numEntries ∧
      ∀ index', mem'.byteAt index' = if index' = index then some byte else mem.byteAt index' := by
  have hset : mem.setByte index byte =
      some { mem with memArr := Function.update mem.memArr ⟨index.toNat, h⟩ byte } := dif_pos h
  refine ⟨_, hset, rfl, rfl, fun index' => ?_⟩
  split
  · rename_i heq
    subst heq
    rw [byteAt, dif_pos h]
    exact congrArg some (Function.update_self ..)
  · rename_i hne
    exact (setByte_frame hset).2 index' hne

/-- Outside, no byte is written. -/
theorem setByte_of_outside {index : BitVec 64} (h : ¬ index.toNat < mem.numEntries)
    (byte : BitVec 8) : mem.setByte index byte = none :=
  dif_neg h

/-- The write loop stores the bytes of `value`, lowest first, up to the first one that lies
outside the memory, and changes nothing else. -/
theorem setLoop_byteAt (value : BitVec 64) {remaining i : ℕ} (hi : i + remaining < 2 ^ 64) :
    (setLoop relativeAddr value remaining i mem).2.startAddr = mem.startAddr ∧
      (setLoop relativeAddr value remaining i mem).2.numEntries = mem.numEntries ∧
      ∀ index, (setLoop relativeAddr value remaining i mem).2.byteAt index =
        if i ≤ (index - relativeAddr).toNat ∧ (index - relativeAddr).toNat < i + remaining ∧
            ∀ j, i ≤ j → j ≤ (index - relativeAddr).toNat →
              (relativeAddr + BitVec.ofNat 64 j).toNat < mem.numEntries then
          some ((value >>> ((index - relativeAddr).toNat * 8)).setWidth 8)
        else mem.byteAt index := by
  induction remaining generalizing i mem with
  | zero =>
      refine ⟨rfl, rfl, fun index => ?_⟩
      rw [if_neg (by omega)]
      rfl
  | succ remaining ih =>
      rw [setLoop]
      by_cases hfirst : (relativeAddr + BitVec.ofNat 64 i).toNat < mem.numEntries
      · obtain ⟨mem₁, hset, hstart, hsize, hbyte⟩ :=
          setByte_of_inside hfirst ((value >>> (i * 8)).setWidth 8)
        obtain ⟨hstart', hsize', hbyte'⟩ := @ih mem₁ (i + 1) (by omega)
        rw [hset]
        refine ⟨hstart'.trans hstart, hsize'.trans hsize, fun index => ?_⟩
        -- the byte at `i` is this step's, the ones behind it are the induction's
        by_cases heq : index = relativeAddr + BitVec.ofNat 64 i
        · have hoffset : (index - relativeAddr).toNat = i := by
            rw [heq]
            bv_omega
          have hinside : ∀ j, i ≤ j → j ≤ i →
              (relativeAddr + BitVec.ofNat 64 j).toNat < mem.numEntries := by
            intro j hij hji
            rwa [← Nat.le_antisymm hij hji]
          rw [hbyte' index, hoffset, if_neg (by omega), if_pos ⟨by omega, by omega, hinside⟩,
            hbyte, if_pos heq]
        · have hoffset : (index - relativeAddr).toNat ≠ i := by
            intro h'
            apply heq
            bv_omega
          rw [hbyte' index, hbyte, if_neg heq, hsize]
          refine if_congr ⟨?_, ?_⟩ rfl rfl
          · rintro ⟨hle, hlt, hinside⟩
            refine ⟨by omega, by omega, fun j hij hj => ?_⟩
            rcases Nat.eq_or_lt_of_le hij with rfl | hij
            · exact hfirst
            · exact hinside j hij hj
          · rintro ⟨hle, hlt, hinside⟩
            exact ⟨by omega, by omega, fun j hij hj => hinside j (by omega) hj⟩
      · rw [setByte_of_outside hfirst]
        refine ⟨rfl, rfl, fun index => ?_⟩
        rw [if_neg]
        rintro ⟨hle, -, hinside⟩
        exact hfirst (hinside i (Nat.le_refl i) hle)

/-- The write loop fails exactly when it walks over a byte outside the memory. -/
theorem setLoop_fst_eq_zero_iff {value : BitVec 64} {remaining i : ℕ} :
    (setLoop relativeAddr value remaining i mem).1 = 0 ↔
      ∀ k, i ≤ k → k < i + remaining →
        (relativeAddr + BitVec.ofNat 64 k).toNat < mem.numEntries := by
  induction remaining generalizing i mem with
  | zero => exact ⟨fun _ k hk hk' => by omega, fun _ => rfl⟩
  | succ remaining ih =>
      rw [setLoop]
      by_cases hi : (relativeAddr + BitVec.ofNat 64 i).toNat < mem.numEntries
      · obtain ⟨mem₁, hset, -, hsize, -⟩ := setByte_of_inside hi ((value >>> (i * 8)).setWidth 8)
        rw [hset]
        refine ih.trans ⟨fun h k hk hk' => ?_, fun h k hk hk' => ?_⟩
        · rcases Nat.eq_or_lt_of_le hk with rfl | hlt
          · exact hi
          · exact hsize ▸ h k hlt (by omega)
        · exact hsize ▸ h k (by omega) (by omega)
      · rw [setByte_of_outside hi]
        have hne : -einval ≠ 0 := by decide
        exact ⟨fun h => absurd h hne, fun h => absurd (h i (Nat.le_refl i) (by omega)) hi⟩

/-- The status of a write is zero or `-EINVAL`, from whatever byte on. -/
theorem setLoop_fst (relativeAddr value : BitVec 64) (remaining i : ℕ) (mem : MemoryStore) :
    (setLoop relativeAddr value remaining i mem).1 = 0 ∨
      (setLoop relativeAddr value remaining i mem).1 = -einval := by
  induction remaining generalizing i mem with
  | zero => exact .inl rfl
  | succ remaining ih =>
      rw [setLoop]
      split
      · exact .inr rfl
      · exact ih _ _

/-- Writing the byte that is there changes nothing. -/
theorem setByte_self {index : BitVec 64} {byte : BitVec 8} (h : mem.byteAt index = some byte) :
    mem.setByte index byte = some mem := by
  rw [byteAt] at h
  split at h
  · rename_i hinside
    obtain rfl := Option.some.inj h
    rw [setByte, dif_pos hinside, Function.update_eq_self]
  · exact absurd h (by simp)

/-- Bytes stored where they are already leave the memory as it is, whether the loop comes to
its end or not. -/
theorem setLoop_self {relativeAddr value : BitVec 64} {remaining i : ℕ}
    (h : ∀ k, i ≤ k → k < i + remaining →
      ∀ byte ∈ mem.byteAt (relativeAddr + BitVec.ofNat 64 k),
        byte = (value >>> (k * 8)).setWidth 8) :
    (setLoop relativeAddr value remaining i mem).2 = mem := by
  induction remaining generalizing i with
  | zero => rfl
  | succ remaining ih =>
      rw [setLoop]
      cases hbyte : mem.byteAt (relativeAddr + BitVec.ofNat 64 i) with
      | none =>
          have hinside : ¬ (relativeAddr + BitVec.ofNat 64 i).toNat < mem.numEntries := by
            intro hinside
            rw [byteAt_eq_view hinside] at hbyte
            exact absurd hbyte (by simp)
          rw [setByte_of_outside hinside]
      | some byte =>
          rw [← h i (Nat.le_refl i) (by omega) byte hbyte, setByte_self hbyte]
          exact ih fun k hk hk' => h k (by omega) (by omega)

end Loops

section Access

variable {mem : MemoryStore} {address : BitVec 64} {size : MemEntrySize}

/-- A read succeeds iff all its bytes are in range. -/
theorem getMemValue_fst_eq_zero_iff :
    (mem.getMemValue address size).1 = 0 ↔ mem.InRange address size.bytes := by
  refine getLoop_fst_eq_zero_iff.trans ⟨fun h k hk => ?_, fun h k _ hk => ?_⟩
  · exact h k (Nat.zero_le k) (by omega)
  · exact h k (by omega)

/-- A write succeeds iff all its bytes are in range. -/
theorem setMemValue_fst_eq_zero_iff {value : BitVec 64} :
    (mem.setMemValue address value size).1 = 0 ↔ mem.InRange address size.bytes := by
  refine setLoop_fst_eq_zero_iff.trans ⟨fun h k hk => ?_, fun h k _ hk => ?_⟩
  · exact h k (Nat.zero_le k) (by omega)
  · exact h k (by omega)

/-- A read in range is a little-endian load of the view. -/
theorem getMemValue_of_inRange (h : mem.InRange address size.bytes) :
    (mem.getMemValue address size).2 = loadBytes mem.view address size.bytes := by
  have haddress : mem.startAddr + (address - mem.startAddr + BitVec.ofNat 64 0) = address := by
    bv_omega
  rw [getMemValue, getLoop_eq_loadBytes fun k _ hk => h k (by omega), haddress]
  simp

/-- A write, in range or not, byte by byte. -/
theorem setMemValue_byteAt (mem : MemoryStore) (address value : BitVec 64) (size : MemEntrySize) :
    (mem.setMemValue address value size).2.startAddr = mem.startAddr ∧
      (mem.setMemValue address value size).2.numEntries = mem.numEntries ∧
      ∀ index, (mem.setMemValue address value size).2.byteAt index =
        if (index - (address - mem.startAddr)).toNat < size.bytes ∧
            mem.InRange address ((index - (address - mem.startAddr)).toNat + 1) then
          some ((value >>> ((index - (address - mem.startAddr)).toNat * 8)).setWidth 8)
        else mem.byteAt index := by
  have hbytes : 0 + size.bytes < 2 ^ 64 := by
    cases size <;> simp [MemEntrySize.bytes]
  obtain ⟨hstart, hsize, hbyte⟩ :=
    @setLoop_byteAt mem (address - mem.startAddr) value size.bytes 0 hbytes
  refine ⟨hstart, hsize, fun index => (hbyte index).trans (if_congr ⟨?_, ?_⟩ rfl rfl)⟩
  · rintro ⟨-, hlt, hinside⟩
    exact ⟨by omega, fun k hk => hinside k (Nat.zero_le k) (by omega)⟩
  · rintro ⟨hlt, hinside⟩
    exact ⟨Nat.zero_le _, by omega, fun j _ hj => hinside j (by omega)⟩

/-- A write in range is a store to the view. -/
theorem setMemValue_of_inRange {value : BitVec 64} (h : mem.InRange address size.bytes) :
    (mem.setMemValue address value size).2.startAddr = mem.startAddr ∧
      (mem.setMemValue address value size).2.numEntries = mem.numEntries ∧
      (mem.setMemValue address value size).2.view =
        storeBytes mem.view address value size.bytes := by
  obtain ⟨hstart, hsize, hbyte⟩ := mem.setMemValue_byteAt address value size
  refine ⟨hstart, hsize, funext fun a => ?_⟩
  have hoffset : a - mem.startAddr - (address - mem.startAddr) = a - address := by bv_omega
  rw [view, hstart, hbyte, hoffset, storeBytes]
  by_cases hin : (a - address).toNat < size.bytes
  · rw [if_pos ⟨hin, fun k hk => h k (by omega)⟩, if_pos hin]
    rfl
  · rw [if_neg (fun hboth => hin hboth.1), if_neg hin]
    rfl

end Access

end MemoryStore

/-! ### What is reported as a fault -/

/-- The bytes `simMemAccess` touches lie inside the memory. -/
def Instruction.InRange (inst : Instruction) (mem : MemoryStore) : Prop :=
  mem.InRange inst.memAddress (accessSize inst).bytes

instance (inst : Instruction) (mem : MemoryStore) : Decidable (inst.InRange mem) :=
  inferInstanceAs (Decidable (mem.InRange _ _))

/-- `simMemAccess` never sets the flag. -/
theorem simMemAccess_memException {inst : Instruction} {mem : MemoryStore}
    (hclear : inst.memException = false) :
    (simMemAccess accessFault inst mem).1.memException = false := by
  rw [simMemAccess]
  split
  · exact accessFault_eq_false _ _ _
  · split <;> exact hclear

/-- No cycle squashes the instruction it hands to `simMEM`. -/
theorem not_squashed_of_memCall {s : LoopState} (h : Shape s) (hf : Flow s) {inst : Instruction}
    (hcall : s.memCall = some inst) (hactive : inst.active = true) :
    (cycle accessFault s).memInst.status ≠ .squashed := by
  have hstill : (cycle accessFault s).memInst.active = true := by
    rw [LoopState.cycle_memInst_eq h hf, LoopState.memOut_of_call accessFault s hcall,
      simMEM_active, hactive]
  exact (active_iff.mp hstill).2.2

/-- A report that never comes is right where there is nothing to report. -/
theorem unreported_iff {reported inside : Prop} (hnever : ¬ reported) :
    ((reported ↔ ¬ inside) ↔ inside) := by
  simp [hnever]

/-- **Faults are reported exactly when there is none to report.** An access fails exactly
when a byte of it lies outside the memory. `simMemAccess` flags the failing accesses and no
others exactly on the accesses in range, and so does a cycle of any run, which would squash
the instruction and redirect to the handler. -/
theorem mem_exception_iff {inst : Instruction} {mem : MemoryStore}
    (hclear : inst.memException = false) :
    ((mem.getMemValue inst.memAddress (accessSize inst)).1 = 0 ↔ inst.InRange mem) ∧
      ((mem.setMemValue inst.memAddress inst.op2Val (accessSize inst)).1 = 0 ↔
        inst.InRange mem) ∧
      (((simMemAccess accessFault inst mem).1.memException = true ↔ ¬ inst.InRange mem) ↔
        inst.InRange mem) ∧
      ∀ {iCacheConfig dCacheConfig : CacheConfig} {image : MemoryStore} {visited : List LoopState}
        {s : LoopState},
        PipelineRun accessFault anyCycle iCacheConfig dCacheConfig image visited s →
        s.memCall = some inst → inst.active = true →
        (((cycle accessFault s).memInst.status = .squashed ∧
              (cycle accessFault s).PC = excHandler ↔
            ¬ inst.InRange s.simulator.memory) ↔
          inst.InRange s.simulator.memory) := by
  refine ⟨MemoryStore.getMemValue_fst_eq_zero_iff, MemoryStore.setMemValue_fst_eq_zero_iff,
    ?_, fun h hcall hactive => ?_⟩
  · have hnever : ¬ (simMemAccess accessFault inst mem).1.memException = true := by
      rw [simMemAccess_memException hclear]
      exact Bool.false_ne_true
    exact unreported_iff hnever
  · obtain ⟨hshape, hflow⟩ := (Flow.of_run h).1
    have hkept := not_squashed_of_memCall hshape hflow hcall hactive
    exact unreported_iff fun hsquashed => hkept hsquashed.1

/-- The word load at `0x10000` of `mem_exception_pipeline.s`, and a doubleword store across
the end of the memory: both accesses fail, and neither is reported. -/
theorem mem_exception_missed :
    let mem : MemoryStore := .image fun _ => 0
    let load : Instruction := { readsMem := true, funct3 := funct3W, memAddress := 0x10000 }
    let store : Instruction := { writesMem := true, funct3 := funct3D, memAddress := 0xfffc }
    (¬ load.InRange mem ∧ (simMemAccess accessFault load mem).1.memException = false) ∧
      ¬ store.InRange mem ∧ (simMemAccess accessFault store mem).1.memException = false := by
  decide

/-- A load of the word at `0xfffc`. -/
theorem mem_exception_iff_load :
    let mem : MemoryStore := .image fun _ => 0
    let load : Instruction := { readsMem := true, funct3 := funct3W, memAddress := 0xfffc }
    load.memException = false ∧
      (((simMemAccess accessFault load mem).1.memException = true ↔ ¬ load.InRange mem) ↔
        load.InRange mem) :=
  ⟨rfl, (@mem_exception_iff _ (.image fun _ => 0) rfl).2.2.1⟩

end RvPipeSim
