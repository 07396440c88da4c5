import Mathlib.Data.Vector.Basic
import RvPipeSim.Cache
import RvPipeSim.Lib.InputDecimal

/-!
# The arguments of the cycle-accurate simulator

`parseArgs` takes the name of a binary and the text of a cache configuration: eight numbers,
each on a line of its own, four for each cache; what follows the number on its line is thrown
away.

`parseLines_ok` and `parseLines_error` follow the reading line by line. Behind the last number the
text may go on as it likes, and the first line without a number is the one reported. The line
counted is that of the property: blank lines in front of a number are skipped with the blanks.
-/

namespace RvPipeSim

open InputStream

/-! ### Reading -/

/-- What makes `parseArgs` give up. -/
inductive ParseError
  | usage
  | notOpened
  | property (line : ℕ) (name : String)
  deriving DecidableEq

/-- The message for the error, with the arguments of the program. -/
def ParseError.message (argv : List String) : ParseError → String
  | .usage =>
      "Usage: " ++ argv.getD 0 "" ++ " <file.bin> <cache_config.txt>\nNote:\nThe sim_cycle " ++
        "binary should take two command-line arguments indicating the name of the binary file " ++
        "to be read and the cache configuration file to be used. [See detail in project " ++
        "description document]."
  | .notOpened => "Failed to open cache config file: " ++ argv.getD 2 ""
  | .property line name =>
      "Failed to parse property at line " ++ toString line ++ " for property " ++ name

/-- `parseNextLine`, with the line it counts up and the stream. -/
def parseNextLine (name : String) (line : ℕ) (file : IStream) :
    Except ParseError (BitVec 32 × ℕ × IStream) :=
  let line := line + 1
  let extracted := file.extractDec 0#32
  if extracted.1.failbit then .error (.property line name)
  else .ok (extracted.2, line, extracted.1.getline)

/-- Calls of `parseNextLine` in a row. -/
def parseLines : (names : List String) → (line : ℕ) → IStream →
    Except ParseError (List.Vector (BitVec 32) names.length)
  | [], _, _ => .ok .nil
  | name :: names, line, file =>
      match parseNextLine name line file with
      | .error error => .error error
      | .ok (value, line, file) =>
          match parseLines names line file with
          | .error error => .error error
          | .ok values => .ok (values.cons value)

/-- The properties, in the order in which they are read. -/
def properties : List String :=
  ["ICache cache size", "ICache block size", "ICache ways", "ICache miss latency",
    "DCache cache size", "DCache block size", "DCache ways", "DCache miss latency"]

/-- The two configurations made of the numbers. -/
def cacheConfigs (values : List.Vector (BitVec 32) properties.length) :
    CacheConfig × CacheConfig :=
  let value (i : Fin 8) := (values.get i).toNat
  (⟨value 0, value 1, value 2, value 3⟩, ⟨value 4, value 5, value 6, value 7⟩)

/-- `parseArgs`, for the text of the file named by the second argument, `none` if it cannot be
opened. -/
def parseArgs (argv : List String) (cacheFile : Option (List Char)) :
    Except ParseError (String × CacheConfig × CacheConfig) :=
  if argv.length ≠ 3 then .error .usage
  else
    match cacheFile with
    | none => .error .notOpened
    | some text =>
        match parseLines properties 0 { rest := text } with
        | .error error => .error error
        | .ok values => .ok (argv.getD 1 "", cacheConfigs values)

/-! ### Texts of numbers -/

/-- A text with a number on each of its lines: blanks in front, and behind it what does not go on
with a digit. -/
inductive NumberLines : List (BitVec 32) → List Char → Prop
  | nil : NumberLines [] []
  | cons {value : BitVec 32} {values : List (BitVec 32)} {front field tail text : List Char} :
      Blank front → DecNumeral field value.toNat → StartsOther (tail ++ ['\n']) → '\n' ∉ tail →
      NumberLines values text →
      NumberLines (value :: values) (front ++ (field ++ (tail ++ '\n' :: text)))

/-- Numbers written out, one a line. -/
def numberLines (values : List (BitVec 32)) : List Char :=
  values.flatMap fun value => Nat.toDigits 10 value.toNat ++ ['\n']

/-- The text made of some numbers has one of them on each of its lines. -/
theorem numberLines_numberLines (values : List (BitVec 32)) :
    NumberLines values (numberLines values) := by
  induction values with
  | nil => exact .nil
  | cons value values ih =>
      rw [numberLines, List.flatMap_cons, List.append_assoc]
      exact @NumberLines.cons value values [] _ [] _ (fun c hc => absurd hc List.not_mem_nil)
        (decNumeral_toDigits value.toNat) (by decide) List.not_mem_nil ih

variable {values : List (BitVec 32)} {lines : List Char} {names : List String}

/-- In front of a line `parseNextLine` gives its number and goes on to the next. -/
theorem parseNextLine_of_line {name : String} {line : ℕ} {value : BitVec 32}
    {front field tail text : List Char} (hfront : Blank front)
    (hfield : DecNumeral field value.toNat) (htail : StartsOther (tail ++ ['\n']))
    (hline : '\n' ∉ tail) :
    parseNextLine name line { rest := front ++ (field ++ (tail ++ '\n' :: text)) } =
      .ok (value, line + 1, { rest := text }) := by
  have hother : StartsOther (tail ++ '\n' :: text) := by
    cases tail <;> exact htail
  have hextract := @IStream.extractDec_numeral 32
    { rest := front ++ (field ++ (tail ++ '\n' :: text)) } front field _ _ rfl rfl hfront hfield
    hother value.isLt 0#32
  have hopen : (tail ++ '\n' :: text).isEmpty = false := by simp
  rw [hopen, BitVec.ofNat_toNat, BitVec.setWidth_eq] at hextract
  have hgetline := @IStream.getline_of_line { rest := tail ++ '\n' :: text } tail text rfl rfl hline
  rw [parseNextLine, hextract]
  dsimp only
  rw [hgetline, if_neg Bool.false_ne_true]

/-- **Numbers on lines are read**, up to the last one, whatever follows it. -/
theorem parseLines_ok (hlines : NumberLines values lines) {l : List String} {name : String}
    (hl : l = names ++ [name]) {value : BitVec 32} {front field rest : List Char}
    (hfront : Blank front) (hfield : DecNumeral field value.toNat) (hrest : StartsOther rest)
    (line : ℕ) (hlength : names.length = values.length) :
    ∃ read, parseLines l line { rest := lines ++ (front ++ (field ++ rest)) } = .ok read ∧
      read.toList = values ++ [value] := by
  subst hl
  induction hlines generalizing names line with
  | nil =>
      obtain rfl := List.length_eq_zero_iff.mp hlength
      have hextract := @IStream.extractDec_numeral 32
        { rest := front ++ (field ++ rest) } front field _ _ rfl rfl hfront hfield hrest
        value.isLt 0#32
      rw [BitVec.ofNat_toNat, BitVec.setWidth_eq] at hextract
      refine ⟨List.Vector.nil.cons value, ?_, rfl⟩
      show parseLines [name] line { rest := front ++ (field ++ rest) } = _
      rw [parseLines, parseNextLine, hextract]
      rfl
  | @cons value' values front' field' tail text hfront' hfield' htail hline _ ih =>
      cases names with
      | nil => exact absurd hlength (Nat.succ_ne_zero _).symm
      | cons name' names =>
          obtain ⟨read, hread, hvalues⟩ := ih (line + 1) (Nat.succ.inj hlength)
          refine ⟨read.cons value', ?_, ?_⟩
          · show parseLines (name' :: (names ++ [name])) line _ = _
            simp only [List.append_assoc, List.cons_append]
            rw [parseLines, parseNextLine_of_line hfront' hfield' htail hline]
            dsimp only
            rw [hread]
          · rw [List.Vector.toList_cons, hvalues, List.cons_append]

/-- **The first line without a number is reported**, counted as the property it is for. -/
theorem parseLines_error (hlines : NumberLines values lines) {l names' : List String}
    {name : String} (hl : l = names ++ name :: names') {rest : List Char}
    (hbad : (IStream.extractDec { rest } 0#32).1.failbit = true) (line : ℕ)
    (hlength : names.length = values.length) :
    parseLines l line { rest := lines ++ rest } =
      .error (.property (line + values.length + 1) name) := by
  subst hl
  induction hlines generalizing names line with
  | nil =>
      obtain rfl := List.length_eq_zero_iff.mp hlength
      show parseLines (name :: names') line { rest } = _
      rw [parseLines, parseNextLine, if_pos hbad]
      rfl
  | @cons value' values front' field' tail text hfront' hfield' htail hline _ ih =>
      cases names with
      | nil => exact absurd hlength (Nat.succ_ne_zero _).symm
      | cons name' names =>
          have hrest := ih (line + 1) (Nat.succ.inj hlength)
          show parseLines (name' :: (names ++ name :: names')) line _ = _
          simp only [List.append_assoc, List.cons_append]
          rw [parseLines, parseNextLine_of_line hfront' hfield' htail hline]
          dsimp only
          rw [hrest]
          have hline : line + 1 + values.length + 1 = line + (values.length + 1) + 1 := by omega
          rw [hline]
          rfl

/-! ### The arguments -/

/-- The numbers of a configuration, in the order of its lines. -/
def CacheConfig.numbers (config : CacheConfig) : List ℕ :=
  [config.cacheSize, config.blockSize, config.ways, config.missLatency]

/-- The eight numbers read are the two configurations, the I-cache's first. -/
theorem cacheConfigs_eq {read : List.Vector (BitVec 32) properties.length}
    {icConfig dcConfig : CacheConfig}
    (h : read.toList.map BitVec.toNat = icConfig.numbers ++ dcConfig.numbers) :
    cacheConfigs read = (icConfig, dcConfig) := by
  obtain ⟨values, hlength⟩ := read
  match values, hlength with
  | [v0, v1, v2, v3, v4, v5, v6, v7], _ =>
      simp only [List.Vector.toList_mk, CacheConfig.numbers, List.map_cons, List.map_nil,
        List.cons_append, List.nil_append, List.cons.injEq, and_true] at h
      obtain ⟨h0, h1, h2, h3, h4, h5, h6, h7⟩ := h
      cases icConfig
      cases dcConfig
      subst h0 h1 h2 h3 h4 h5 h6 h7
      rfl

/-- **What `parseArgs` makes of a text.** Let the text begin with lines that have a number each.
If no number follows, the error is about the property behind those read, at its line; if the
last number follows, the configurations are those of the numbers, whatever comes behind it. -/
theorem parseArgs_spec {argv : List String} (hargv : argv.length = 3)
    (hlines : NumberLines values lines) (rest : List Char) :
    (∀ names name names', properties = names ++ name :: names' →
      names.length = values.length → (IStream.extractDec { rest } 0#32).1.failbit = true →
      parseArgs argv (some (lines ++ rest)) = .error (.property (values.length + 1) name)) ∧
    (∀ icConfig dcConfig last front field tail,
      (values ++ [last]).map BitVec.toNat = icConfig.numbers ++ dcConfig.numbers →
      rest = front ++ (field ++ tail) → Blank front → DecNumeral field last.toNat →
      StartsOther tail →
      parseArgs argv (some (lines ++ rest)) = .ok (argv.getD 1 "", icConfig, dcConfig)) := by
  constructor
  · intro names name names' hproperties hlength hbad
    have herror : parseLines properties 0 { rest := lines ++ rest } =
        .error (.property (values.length + 1) name) := by
      rw [parseLines_error hlines hproperties hbad 0 hlength, Nat.zero_add]
    rw [parseArgs, if_neg (not_not.mpr hargv), herror]
  · rintro icConfig dcConfig last front field tail hnumbers rfl hfront hfield htail
    have hlength : (values ++ [last]).length = 8 := by
      rw [← List.length_map, hnumbers]
      rfl
    rw [List.length_append, List.length_singleton] at hlength
    have hsplit : properties = properties.take 7 ++ ["DCache miss latency"] := rfl
    obtain ⟨read, hread, hvalues⟩ := parseLines_ok hlines hsplit hfront hfield htail 0
      (Nat.succ.inj hlength).symm
    rw [parseArgs, if_neg (not_not.mpr hargv), hread]
    dsimp only
    rw [cacheConfigs_eq (hvalues ▸ hnumbers)]

/-- Seven numbers and a last line `8 cycles`; two numbers and a line without one. -/
theorem parseArgs_spec_lines :
    let argv := ["sim_cycle", "fib.bin", "cache_config.txt"]
    parseArgs argv (some (numberLines [2048, 16, 2, 5, 4096, 16, 4] ++ "8 cycles".toList)) =
        .ok ("fib.bin", ⟨2048, 16, 2, 5⟩, ⟨4096, 16, 4, 8⟩) ∧
      parseArgs argv (some (numberLines [2048, 16] ++ "two ways".toList)) =
        .error (.property 3 "ICache ways") := by
  intro argv
  constructor
  · exact (parseArgs_spec rfl (numberLines_numberLines [2048, 16, 2, 5, 4096, 16, 4])
      "8 cycles".toList).2 ⟨2048, 16, 2, 5⟩ ⟨4096, 16, 4, 8⟩ 8 [] ['8'] " cycles".toList rfl rfl
      (by decide) ⟨by decide, List.forall_mem_singleton.mpr (by decide), by decide⟩ (by decide)
  · exact (parseArgs_spec rfl (numberLines_numberLines [2048, 16]) "two ways".toList).1
      ["ICache cache size", "ICache block size"] "ICache ways" _ rfl rfl (by decide)

end RvPipeSim
