import RvPipeSim.Decoding
import RvPipeSim.Printing

/-!
# What the trace calls illegal

The trace decides legality on its own: `getOpString` finds no mnemonic, and the handler
prints `ILLEGAL`. On ten of the eleven opcodes that is where `simDecode` finds the word
illegal. On `OP_INTIMMW` it is not: `addiw` shares its case with `addw` and `subw`, so
`getOpString` asks for a `funct7` where an `addiw` has the upper half of its immediate.

## Main results

* `announces` — the mnemonic against the `switch` of `simDecode`;
* `printInstr_illegal_iff` — when the printed line says `ILLEGAL`;
* `trace_legality_iff` — the two agree exactly if the word is not `Unprintable`.
-/

namespace RvPipeSim

/-! ### Mnemonics -/

/-- A text starts, and not with the `I` of `"ILLEGAL"`. -/
def startsOther (s : String) : Bool :=
  match s.toList with
  | [] => false
  | c :: _ => c != 'I'

/-- What stands behind a text does not change how it starts. -/
theorem startsOther_append {s : String} (h : startsOther s = true) (t : String) :
    startsOther (s ++ t) = true := by
  rw [startsOther] at h ⊢
  rw [String.toList_append]
  cases hs : s.toList with
  | nil => rw [hs] at h; exact Bool.noConfusion h
  | cons c cs => rw [hs] at h; exact h

section Mnemonics

variable {opcode : BitVec 7} {funct3 : BitVec 3} {funct7 : BitVec 7}

/-- The mnemonic is `"ILLEGAL"` exactly where there is no body. -/
theorem opString_eq_illegal_iff {front back : String} {body : Option String}
    (hstart : startsOther front = true ∨ front = "" ∧ body.all startsOther = true) :
    (opString front body back = "ILLEGAL" ↔ body.isSome = false) ∧
      (opString front body back = "ILLEGAL" ∨ startsOther (opString front body back) = true) := by
  cases body with
  | none => exact ⟨⟨fun _ => rfl, fun _ => rfl⟩, .inl rfl⟩
  | some b =>
      have hother : startsOther (front ++ b ++ back) = true := by
        rcases hstart with hfront | ⟨rfl, hb⟩
        · rw [String.append_assoc]
          exact startsOther_append hfront _
        · rw [String.empty_append]
          exact startsOther_append hb _
      refine ⟨⟨fun h => ?_, fun h => Bool.noConfusion h⟩, .inr hother⟩
      have hsame : front ++ b ++ back = "ILLEGAL" := h
      rw [hsame] at hother
      exact absurd hother (by decide)

/-- The rule that walks down the comparisons of a body. -/
theorem all_startsOther_ite {p : Prop} [Decidable p] {a b : Option String}
    (ha : a.all startsOther = true) (hb : b.all startsOther = true) :
    (if p then a else b).all startsOther = true :=
  iteInduction (motive := fun body => Option.all startsOther body = true) (fun _ => ha) fun _ => hb

/-- No body of the register and immediate operations starts as `"ILLEGAL"` does. -/
theorem intBody_all : (intBody opcode funct3 funct7).all startsOther = true := by
  unfold intBody
  repeat' apply all_startsOther_ite
  all_goals decide

/-- No body of the word operations starts as `"ILLEGAL"` does. -/
theorem intwBody_all : (intwBody funct3 funct7).all startsOther = true := by
  unfold intwBody
  repeat' apply all_startsOther_ite
  all_goals decide

/-- The words on which the two decide differently: `addiw` with an immediate whose upper
seven bits are not a `funct7` of `addw` or `subw`. -/
def Unprintable (funct7 : BitVec 7) (funct3 : BitVec 3) (opcode : BitVec 7) : Prop :=
  opcode = opIntimmw ∧ funct3 = funct3Add ∧ funct7 ≠ funct7Add ∧ funct7 ≠ funct7Sub

instance : Decidable (Unprintable funct7 funct3 opcode) :=
  inferInstanceAs (Decidable (_ ∧ _))

/-! The bodies against the conditions of `simDecode`, one for each opcode class that has a
condition. -/

/-- On `OP_INT` the two decide alike. -/
theorem isSome_intBody_int {d : DecodeInfo} :
    (intBody opInt d.funct3 d.funct7).isSome = legalInt d := by
  rw [legalInt]
  generalize d.funct7 = funct7
  generalize d.funct3 = funct3
  revert funct7 funct3
  decide +kernel

/-- On `OP_INTIMM` the two decide alike. -/
theorem isSome_intBody_intimm {d : DecodeInfo} :
    (intBody opIntimm d.funct3 d.funct7).isSome = legalIntimm d := by
  rw [legalIntimm]
  generalize d.funct7 = funct7
  generalize d.funct3 = funct3
  revert funct7 funct3
  decide +kernel

/-- On `OP_INTW` the two decide alike. -/
theorem isSome_intwBody_intw {d : DecodeInfo} :
    (intwBody d.funct3 d.funct7).isSome = legalIntw d := by
  rw [legalIntw]
  generalize d.funct7 = funct7
  generalize d.funct3 = funct3
  revert funct7 funct3
  decide +kernel

/-- On `OP_INTIMMW` the mnemonic is also missing for the unprintable words. -/
theorem isSome_intwBody_intimmw {d : DecodeInfo} :
    (intwBody d.funct3 d.funct7).isSome = false ↔
      legalIntimmw d = false ∨ Unprintable d.funct7 d.funct3 opIntimmw := by
  rw [legalIntimmw]
  generalize d.funct7 = funct7
  generalize d.funct3 = funct3
  revert funct7 funct3
  decide +kernel

/-- On loads the two decide alike. -/
theorem isSome_loadBody {d : DecodeInfo} : (loadBody d.funct3).isSome = legalLoad d := by
  rw [legalLoad]
  generalize d.funct3 = funct3
  revert funct3
  decide

/-- On stores the two decide alike. -/
theorem isSome_storeBody {d : DecodeInfo} : (storeBody d.funct3).isSome = legalStore d := by
  rw [legalStore]
  generalize d.funct3 = funct3
  revert funct3
  decide

/-- On branches the two decide alike. -/
theorem isSome_branchBody {d : DecodeInfo} : (branchBody d.funct3).isSome = legalBranch d := by
  rw [legalBranch]
  generalize d.funct3 = funct3
  revert funct3
  decide

/-! The mnemonic, opcode by opcode. -/

/-- Immediate operations take the body of the register operations, and an `i`. -/
theorem getOpString_intimm :
    getOpString opIntimm funct3 funct7 = opString "" (intBody opIntimm funct3 funct7) "i" := rfl

/-- Register operations are the body alone. -/
theorem getOpString_int :
    getOpString opInt funct3 funct7 = opString "" (intBody opInt funct3 funct7) "" := rfl

/-- Immediate operations on words take the body of `OP_INTW`, `funct7` included, and an `iw`. -/
theorem getOpString_intimmw :
    getOpString opIntimmw funct3 funct7 = opString "" (intwBody funct3 funct7) "iw" := rfl

/-- Register operations on words take a `w`. -/
theorem getOpString_intw :
    getOpString opIntw funct3 funct7 = opString "" (intwBody funct3 funct7) "w" := rfl

/-- Loads start with `l`, whatever the rest. -/
theorem getOpString_load :
    getOpString opLoad funct3 funct7 = opString "l" (loadBody funct3) "" := rfl

/-- Stores start with `s`, whatever the rest. -/
theorem getOpString_store :
    getOpString opStore funct3 funct7 = opString "s" (storeBody funct3) "" := rfl

/-- Branches start with `b`, whatever the rest. -/
theorem getOpString_branch :
    getOpString opBranch funct3 funct7 = opString "b" (branchBody funct3) "" := rfl

/-- The opcodes without a condition have a mnemonic. -/
theorem startsOther_getOpString
    (h : opcode = opJalr ∨ opcode = opAuipc ∨ opcode = opLui ∨ opcode = opJal) :
    startsOther (getOpString opcode funct3 funct7) = true := by
  have hjalr : getOpString opJalr funct3 funct7 = "jalr" := rfl
  have hauipc : getOpString opAuipc funct3 funct7 = "auipc" := rfl
  have hlui : getOpString opLui funct3 funct7 = "lui" := rfl
  have hjal : getOpString opJal funct3 funct7 = "jal" := rfl
  rcases h with rfl | rfl | rfl | rfl
  · rw [hjalr]; decide
  · rw [hauipc]; decide
  · rw [hlui]; decide
  · rw [hjal]; decide

/-- The other opcodes have no mnemonic. -/
theorem getOpString_other
    (h : opcode ∉ [opInt, opIntw, opLoad, opIntimm, opIntimmw, opJalr, opStore, opBranch,
      opAuipc, opLui, opJal]) : getOpString opcode funct3 funct7 = "ILLEGAL" := by
  simp only [List.mem_cons, List.not_mem_nil, or_false, not_or] at h
  obtain ⟨hint, hintw, hload, himm, himmw, hjalr, hstore, hbranch, hauipc, hlui, hjal⟩ := h
  rw [getOpString, if_neg himm, if_neg hint, if_neg himmw, if_neg hintw, if_neg hload,
    if_neg hstore, if_neg hbranch, if_neg hjal, if_neg hjalr, if_neg hlui, if_neg hauipc]

end Mnemonics

/-! ### Mnemonics against decoding -/

section Agreement

variable {d : DecodeInfo}

/-- In an opcode class with a condition the word is legal iff the condition holds. -/
theorem isLegal_of_switch {legal : Bool} {accepted : DecodeInfo}
    (h : decodeOpcode d = if legal = true then accepted else { d with isLegal := false })
    (haccepted : accepted.isLegal = true) : (decodeOpcode d).isLegal = legal := by
  rw [h, isLegal_ite _ _ haccepted]

/-- What starts otherwise is not `"ILLEGAL"`. -/
theorem startsOther_ne {s : String} (h : startsOther s = true) : s ≠ "ILLEGAL" := by
  rintro rfl
  exact absurd h (by decide)

/-- What the mnemonic of `d` says about its legality. -/
structure Announces (d : DecodeInfo) : Prop where
  illegal_iff : getOpString d.opcode d.funct3 d.funct7 = "ILLEGAL" ↔
    (decodeOpcode d).isLegal = false ∨ Unprintable d.funct7 d.funct3 d.opcode
  illegal_or : getOpString d.opcode d.funct3 d.funct7 = "ILLEGAL" ∨
    startsOther (getOpString d.opcode d.funct3 d.funct7) = true

/-- A class with a condition: the mnemonic has a body where the condition holds. -/
theorem Announces.of_body {front back : String} {body : Option String}
    (hne : d.opcode ≠ opIntimmw)
    (hop : getOpString d.opcode d.funct3 d.funct7 = opString front body back)
    (hstart : startsOther front = true ∨ front = "" ∧ body.all startsOther = true)
    (hlegal : (decodeOpcode d).isLegal = body.isSome) : Announces d := by
  obtain ⟨hiff, hcases⟩ := opString_eq_illegal_iff hstart
  refine ⟨?_, by rw [hop]; exact hcases⟩
  rw [hop, hlegal, hiff]
  exact (or_iff_left (fun hun => hne hun.1)).symm

/-- **There is no mnemonic where `simDecode` finds the word illegal**, and none for the
unprintable words; where there is one it does not start as `"ILLEGAL"` does. -/
theorem announces (hfresh : d.isLegal = true) : Announces d := by
  by_cases himmw : d.opcode = opIntimmw
  · -- the class whose two conditions differ
    have hbody : (intwBody d.funct3 d.funct7).all startsOther = true := intwBody_all
    obtain ⟨hiff, hcases⟩ := opString_eq_illegal_iff (.inr ⟨rfl, hbody⟩)
    constructor
    · rw [himmw, getOpString_intimmw, hiff, isSome_intwBody_intimmw,
        isLegal_of_switch (decodeOpcode_intimmw himmw) hfresh]
    · rw [himmw, getOpString_intimmw]
      exact hcases
  by_cases hint : d.opcode = opInt
  · refine .of_body himmw (by rw [hint, getOpString_int])
      (.inr ⟨rfl, intBody_all⟩) ?_
    rw [isLegal_of_switch (decodeOpcode_int hint) hfresh, isSome_intBody_int]
  by_cases hintw : d.opcode = opIntw
  · refine .of_body himmw (by rw [hintw, getOpString_intw])
      (.inr ⟨rfl, intwBody_all⟩) ?_
    rw [isLegal_of_switch (decodeOpcode_intw hintw) hfresh, isSome_intwBody_intw]
  by_cases hload : d.opcode = opLoad
  · refine .of_body himmw (by rw [hload, getOpString_load])
      (.inl (by decide)) ?_
    rw [isLegal_of_switch (decodeOpcode_load hload) hfresh, isSome_loadBody]
  by_cases himm : d.opcode = opIntimm
  · refine .of_body himmw (by rw [himm, getOpString_intimm])
      (.inr ⟨rfl, intBody_all⟩) ?_
    rw [isLegal_of_switch (decodeOpcode_intimm himm) hfresh, isSome_intBody_intimm]
  by_cases hstore : d.opcode = opStore
  · refine .of_body himmw (by rw [hstore, getOpString_store])
      (.inl (by decide)) ?_
    rw [isLegal_of_switch (decodeOpcode_store hstore) hfresh, isSome_storeBody]
  by_cases hbranch : d.opcode = opBranch
  · refine .of_body himmw (by rw [hbranch, getOpString_branch])
      (.inl (by decide)) ?_
    rw [isLegal_of_switch (decodeOpcode_branch hbranch) hfresh, isSome_branchBody]
  have hun : ¬ Unprintable d.funct7 d.funct3 d.opcode := fun hun => himmw hun.1
  by_cases hany : d.opcode = opJalr ∨ d.opcode = opAuipc ∨ d.opcode = opLui ∨ d.opcode = opJal
  · have hlegal : (decodeOpcode d).isLegal = true := by
      rcases hany with hjalr | hupper
      · rw [decodeOpcode_jalr hjalr]
      · rw [decodeOpcode_upper hupper]
    have hother : startsOther (getOpString d.opcode d.funct3 d.funct7) = true :=
      startsOther_getOpString hany
    refine ⟨?_, .inr hother⟩
    rw [hlegal]
    exact iff_of_false (startsOther_ne hother) (by simp [hun])
  · rw [not_or, not_or, not_or] at hany
    obtain ⟨hjalr, hauipc, hlui, hjal⟩ := hany
    have hall : d.opcode ∉ [opInt, opIntw, opLoad, opIntimm, opIntimmw, opJalr, opStore,
        opBranch, opAuipc, opLui, opJal] := by
      simp [hint, hintw, hload, himm, himmw, hjalr, hstore, hbranch, hauipc, hlui, hjal]
    have hop : getOpString d.opcode d.funct3 d.funct7 = "ILLEGAL" := getOpString_other hall
    refine ⟨iff_of_true hop (.inl ?_), .inl hop⟩
    rw [decodeOpcode_other hall]

end Agreement

/-! ### The handlers -/

/-- The fields of a word, before the `switch` of `simDecode`. -/
def wordInfo (w : BitVec 64) : DecodeInfo where
  opcode := (extractBits w 6 0).setWidth 7
  funct3 := (extractBits w 14 12).setWidth 3
  funct7 := (extractBits w 31 25).setWidth 7
  rd := (extractBits w 11 7).setWidth 5
  rs1 := (extractBits w 19 15).setWidth 5
  rs2 := (extractBits w 24 20).setWidth 5

/-- Behind the tests for HALT and `nop`, decoding is the `switch` over the fields. -/
theorem decodeOf_wordInfo {w : BitVec 64} (hhalt : w ≠ haltWord) (hnop : w ≠ nopWord) :
    decodeOf w = decodeOpcode (wordInfo w) := by
  rw [decodeOf, decodeWord, if_neg hhalt, if_neg hnop]
  rfl

/-- The stream holds the mnemonic, or says that there is none. -/
def Shows (items : List Item) (op : String) : Prop :=
  op = "ILLEGAL" ∧ items = [.text " ILLEGAL"] ∨
    op ≠ "ILLEGAL" ∧ ∃ operands, items = .text " " :: .text op :: operands

section Handlers

variable {w : BitVec 64}

/-- The mnemonic of a word. -/
def opOf (w : BitVec 64) : String :=
  getOpString (wordInfo w).opcode (wordInfo w).funct3 (wordInfo w).funct7

/-! The handlers of the formats without a `funct7` pass none, and the opcodes they are for
do not ask for one. -/

/-- Loads and stores have their mnemonic without a `funct7`. -/
theorem opOf_mem (hopcode : (wordInfo w).opcode = opLoad ∨ (wordInfo w).opcode = opStore) :
    opOf w = getOpString (wordInfo w).opcode (wordInfo w).funct3 0 := by
  rcases hopcode with h | h
  · rw [opOf, h, getOpString_load, getOpString_load]
  · rw [opOf, h, getOpString_store, getOpString_store]

/-- Branches have their mnemonic without a `funct7`. -/
theorem opOf_branch (hopcode : (wordInfo w).opcode = opBranch) :
    opOf w = getOpString (wordInfo w).opcode (wordInfo w).funct3 0 := by
  rw [opOf, hopcode, getOpString_branch, getOpString_branch]

/-- The upper formats have their mnemonic from the opcode alone. -/
theorem opOf_special
    (hopcode : (wordInfo w).opcode = opJal ∨ (wordInfo w).opcode = opLui ∨
      (wordInfo w).opcode = opAuipc) : opOf w = getOpString (wordInfo w).opcode 0 0 := by
  rcases hopcode with h | h | h <;> rw [opOf, h] <;> rfl

/-- `handleIAndR` prints the mnemonic or `ILLEGAL`. -/
theorem handleIAndR_shows : Shows (handleIAndR w) (opOf w) := by
  by_cases hop : opOf w = "ILLEGAL"
  · exact .inl ⟨hop, if_pos hop⟩
  · refine .inr ⟨hop, ?_⟩
    by_cases hreg : (wordInfo w).opcode = opInt ∨ (wordInfo w).opcode = opIntw
    · exact ⟨_, (if_neg hop).trans (if_pos hreg)⟩
    · exact ⟨_, (if_neg hop).trans (if_neg hreg)⟩

/-- `handleLAndS` prints the mnemonic or `ILLEGAL`. -/
theorem handleLAndS_shows (hopcode : (wordInfo w).opcode = opLoad ∨ (wordInfo w).opcode = opStore) :
    Shows (handleLAndS w) (opOf w) := by
  rw [opOf_mem hopcode]
  by_cases hop : getOpString (wordInfo w).opcode (wordInfo w).funct3 0 = "ILLEGAL"
  · exact .inl ⟨hop, if_pos hop⟩
  · refine .inr ⟨hop, ?_⟩
    by_cases hload : (wordInfo w).opcode = opLoad
    · exact ⟨_, (if_neg hop).trans (if_pos hload)⟩
    · exact ⟨_, (if_neg hop).trans (if_neg hload)⟩

/-- `handleBranch` prints the mnemonic or `ILLEGAL`. -/
theorem handleBranch_shows (hopcode : (wordInfo w).opcode = opBranch) :
    Shows (handleBranch w) (opOf w) := by
  rw [opOf_branch hopcode]
  by_cases hop : getOpString (wordInfo w).opcode (wordInfo w).funct3 0 = "ILLEGAL"
  · exact .inl ⟨hop, if_pos hop⟩
  · exact .inr ⟨hop, _, if_neg hop⟩

/-- `handleSpecial` prints the mnemonic or `ILLEGAL`. -/
theorem handleSpecial_shows
    (hopcode : (wordInfo w).opcode = opJal ∨ (wordInfo w).opcode = opLui ∨
      (wordInfo w).opcode = opAuipc) :
    Shows (handleSpecial w) (opOf w) := by
  rw [opOf_special hopcode]
  by_cases hop : getOpString (wordInfo w).opcode 0 0 = "ILLEGAL"
  · exact .inl ⟨hop, if_pos hop⟩
  · refine .inr ⟨hop, ?_⟩
    by_cases hjal : (wordInfo w).opcode = opJal
    · exact ⟨_, (if_neg hop).trans (if_pos hjal)⟩
    · exact ⟨_, (if_neg hop).trans (if_neg hjal)⟩

/-- What is printed for a word that is neither HALT nor NOP goes by its mnemonic. -/
theorem instrItems_shows (hhalt : w ≠ haltWord) (hnop : w ≠ nopWord) :
    Shows (instrItems w) (opOf w) := by
  unfold instrItems
  rw [if_neg hhalt, if_neg hnop]
  split
  · exact handleIAndR_shows
  split
  · rename_i h
    exact handleLAndS_shows h
  split
  · rename_i h
    exact handleBranch_shows h
  split
  · rename_i h
    exact handleSpecial_shows h
  · rename_i hreg hmem hbranch hspecial
    simp only [not_or] at hreg hmem hbranch hspecial
    obtain ⟨hint, hintw, himm, himmw, hjalr⟩ := hreg
    obtain ⟨hload, hstore⟩ := hmem
    obtain ⟨hjal, hlui, hauipc⟩ := hspecial
    refine .inl ⟨getOpString_other ?_, rfl⟩
    simp [wordInfo, hint, hintw, hload, himm, himmw, hjalr, hstore, hbranch, hauipc, hlui, hjal]

end Handlers

/-! ### The line -/

/-- The printed text says `ILLEGAL`. -/
def SaysIllegal (s : String) : Prop := " ILLEGAL".toList <+: s.toList

instance {s : String} : Decidable (SaysIllegal s) :=
  inferInstanceAs (Decidable (_ <+: _))

/-- The printed line says `ILLEGAL` iff there is no mnemonic. -/
theorem saysIllegal_render {items : List Item} {op s : String} (h : Shows items op)
    (hother : op = "ILLEGAL" ∨ startsOther op = true) :
    SaysIllegal (render items ++ s) ↔ op = "ILLEGAL" := by
  rcases h with ⟨hop, hitems⟩ | ⟨hop, operands, hitems⟩
  · refine iff_of_true ?_ hop
    rw [SaysIllegal, hitems, render, String.toList_append]
    exact List.prefix_append _ _
  · refine iff_of_false (fun hsays => ?_) hop
    have hstart := hother.resolve_left hop
    have hillegal : " ILLEGAL".toList = ' ' :: 'I' :: "LLEGAL".toList := by decide
    have hblank : (Item.text " ").render.toList = [' '] := by decide
    have hrender : (Item.text op).render = op := rfl
    rw [SaysIllegal, hitems, render, List.map_cons, List.map_cons, String.join_cons,
      String.join_cons, String.toList_append, String.toList_append, String.toList_append,
      hillegal, hblank, hrender] at hsays
    rw [startsOther] at hstart
    cases hc : op.toList with
    | nil => rw [hc] at hstart; exact Bool.noConfusion hstart
    | cons c cs =>
        rw [hc] at hstart hsays
        have hfirst : 'I' = c := (List.cons_prefix_cons.mp (List.cons_prefix_cons.mp hsays).2).1
        rw [← hfirst] at hstart
        exact absurd hstart (by simp)

/-- The trace says `ILLEGAL` where there is no mnemonic. -/
theorem printInstr_illegal {w : BitVec 32} {status : StageStatus}
    (hhalt : w.setWidth 64 ≠ haltWord) (hnop : w.setWidth 64 ≠ nopWord) :
    SaysIllegal (printInstr w status) ↔ opOf (w.setWidth 64) = "ILLEGAL" := by
  have hann : Announces (wordInfo (w.setWidth 64)) := announces rfl
  rw [printInstr, leftAligned, String.append_assoc]
  exact saysIllegal_render (instrItems_shows hhalt hnop) hann.illegal_or

/-- **The trace says `ILLEGAL` where the word is illegal, and where it is unprintable.** -/
theorem printInstr_illegal_iff {w : BitVec 32} {status : StageStatus}
    (hhalt : w.setWidth 64 ≠ haltWord) (hnop : w.setWidth 64 ≠ nopWord) :
    SaysIllegal (printInstr w status) ↔
      (decodeOf (w.setWidth 64)).isLegal = false ∨
        Unprintable (w.extractLsb' 25 7) (w.extractLsb' 12 3) (w.extractLsb' 0 7) := by
  have hann : Announces (wordInfo (w.setWidth 64)) := announces rfl
  rw [printInstr_illegal hhalt hnop, opOf, hann.illegal_iff, decodeOf_wordInfo hhalt hnop,
    wordInfo, field_extractBits _ (by omega) (by omega),
    field_extractBits _ (by omega) (by omega), field_extractBits _ (by omega) (by omega)]

/-- `addiw` is legal whatever its immediate. -/
theorem Unprintable.isLegal {w : BitVec 64} (hhalt : w ≠ haltWord) (hnop : w ≠ nopWord)
    (h : Unprintable (wordInfo w).funct7 (wordInfo w).funct3 (wordInfo w).opcode) :
    (decodeOf w).isLegal = true := by
  obtain ⟨hopcode, hadd, -⟩ := h
  rw [decodeOf_wordInfo hhalt hnop, isLegal_of_switch (decodeOpcode_intimmw hopcode) rfl,
    legalIntimmw, hadd]
  rfl

/-- **Printing and decoding agree on the legality of a word unless it is an unprintable
one.** -/
theorem trace_legality_iff {w : BitVec 32} {status : StageStatus} {inst : Instruction}
    (hfresh : inst.toDecodeInfo = {}) (hword : inst.instruction = w.setWidth 64)
    (hhalt : w ≠ 0xfeedfeed#32) (hnop : w ≠ 0x00000013#32) :
    (SaysIllegal (printInstr w status) ↔ (simDecode inst).isLegal = false) ↔
      ¬ Unprintable (w.extractLsb' 25 7) (w.extractLsb' 12 3) (w.extractLsb' 0 7) := by
  have hhalt' : w.setWidth 64 ≠ haltWord := fun h => hhalt (setWidth_inj h)
  have hnop' : w.setWidth 64 ≠ nopWord := fun h => hnop (setWidth_inj h)
  have hdecode : (simDecode inst).isLegal = (decodeOf (w.setWidth 64)).isLegal := by
    rw [simDecode_eq hfresh, hword]
  rw [printInstr_illegal_iff hhalt' hnop', hdecode, or_iff_left_iff_imp]
  refine ⟨fun himp hun => ?_, fun hprintable hun => absurd hun hprintable⟩
  have hlegal : (decodeOf (w.setWidth 64)).isLegal = true := by
    refine Unprintable.isLegal hhalt' hnop' ?_
    rw [wordInfo, field_extractBits _ (by omega) (by omega),
      field_extractBits _ (by omega) (by omega), field_extractBits _ (by omega) (by omega)]
    exact hun
  rw [himp hun] at hlegal
  exact Bool.noConfusion hlegal

/-- `addi a0, a0, -1`, whose immediate has the same upper half. -/
theorem trace_legality_addi :
    SaysIllegal (printInstr 0xfff50513 .normal) ↔
      (simDecode { instruction := 0xfff50513 }).isLegal = false :=
  (trace_legality_iff rfl rfl (by decide) (by decide)).mpr (by decide)

/-- `addiw a0, a0, -1` is executed, and printed as `ILLEGAL`. -/
theorem trace_legality_addiw :
    ¬ (SaysIllegal (printInstr 0xfff5051b .normal) ↔
      (simDecode { instruction := 0xfff5051b }).isLegal = false) := by
  decide +kernel

end RvPipeSim
