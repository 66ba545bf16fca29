import InferPlatform.Agent.Tunnel
import InferPlatform.Gateway.Coordinator

/-!
# What a provider says of its hardware

Both programs of a provider look for a GPU before they register it: `infer connect` asks
`nvidia-smi`, and the node agent reads what the driver shows under `/proc`. The planner
goes by the memory that is registered, whatever it is.

* `detectVram`, `detectGpu` — the two detections, from what they read;
* `detections_agree_iff` — **on a host with NVIDIA GPUs they agree if there is exactly one,
  with a name without a comma, and only then**; otherwise `infer connect` finds no memory;
* `planned_measured` — **no other host that `infer connect` registers is ever part of a
  plan**.
-/

namespace InferPlatform.Agent

open Gateway Planner

/-! ## The detections -/

/-- A number may have a plus sign before it. -/
def afterPlus : List Char → List Char
  | '+' :: rest => rest
  | text => text

/-- `u64::from_str`. -/
def parseU64 (text : List Char) : Option UInt64 :=
  let digits := afterPlus text
  if digits ≠ [] ∧ digits.all Char.isDigit then
    let value := Nat.ofDigitChars 10 digits 0
    if value < 18446744073709551616 then some (UInt64.ofNat value) else none
  else none

/-- A carriage return at the end of a line is not a part of it. -/
def stripReturn (line : List Char) : List Char :=
  if line.getLast? = some '\r' then line.dropLast else line

/-- `str::lines`. -/
def textLines (text : List Char) : List (List Char) :=
  let stripped := (Lines.splitLines text).1.map stripReturn
  let last := (Lines.splitLines text).2
  if last = [] then stripped else stripped ++ [last]

/-- `splitn(2, ',')`, where there is a comma. -/
def splitComma (text : List Char) : Option (List Char × List Char) :=
  match text.dropWhile (· ≠ ',') with
  | [] => none
  | _ :: rest => some (text.takeWhile (· ≠ ','), rest)

/-- What the programs print that are asked, if they succeed; the last one is there on macOS
only. -/
structure CommandOutputs where
  nvidiaSmi : Option String
  rocmSmi : Option String
  sysctl : Option String
  deriving DecidableEq, Repr

/-- All that is printed is taken for one line. -/
def readNvidiaSmi (stdout : String) : Option (String × UInt64) :=
  let line := Lines.trim isWhitespace stdout.toList
  (splitComma line).map fun (name, vram) =>
    (String.ofList (Lines.trim isWhitespace name),
      (parseU64 (Lines.trim isWhitespace vram)).getD 0)

def readRocmSmi (stdout : String) : Option (String × UInt64) :=
  ((textLines stdout.toList).drop 1).findSome? fun line =>
    match line.splitOn ',' with
    | _ :: _ :: vram :: _ =>
      let vramBytes := (parseU64 (Lines.trim isWhitespace vram)).getD 0
      if 0 < vramBytes then some ("AMD ROCm GPU", vramBytes / 1024 / 1024) else none
    | _ => none

def readSysctl (stdout : String) : Option (String × UInt64) :=
  let bytes := (parseU64 (Lines.trim isWhitespace stdout.toList)).getD 0
  if 0 < bytes then some ("Apple Silicon (unified)", bytes / 1024 / 1024 / 2) else none

/-- `detect_vram` of `infer connect`. -/
def detectVram (outputs : CommandOutputs) : String × UInt64 :=
  (((outputs.nvidiaSmi.bind readNvidiaSmi).or (outputs.rocmSmi.bind readRocmSmi)).or
    (outputs.sysctl.bind readSysctl)).getD ("Unknown GPU", 0)

/-- The first word of a text. -/
def firstWord (text : List Char) : Option (List Char) :=
  let word := (text.dropWhile isWhitespace).takeWhile fun c => ¬ isWhitespace c
  if word = [] then none else some word

/-- A line of the information on a GPU, after the name and the memory found so far. -/
def readLine (found : Option (List Char) × Option UInt64) (line : List Char) :
    Option (List Char) × Option UInt64 :=
  let gpuName := match line.dropPrefix? "Model:".toList with
    | some rest => some (Lines.trim isWhitespace rest)
    | none => found.1
  let vramMb := match (line.dropPrefix? "Video Memory:".toList).bind firstWord with
    -- a memory that is not a number undoes one found before
    | some n => parseU64 n
    | none => found.2
  (gpuName, vramMb)

/-- `probe_nvidia_proc`, from the files of the GPUs in the order of the directory. One that
cannot be read ends it. -/
def probeNvidiaProc : List (Option String) → Option (String × UInt64)
  | [] => none
  | none :: _ => none
  | some content :: entries =>
    match (textLines content.toList).foldl readLine (none, none) with
    | (some name, some vram) => some (String.ofList name, vram)
    | _ => probeNvidiaProc entries

/-- What the node agent reads: two variables, the directory of the driver, which is there
on Linux only, and the memory in bytes, on macOS only. -/
structure AgentSources where
  gpuName : Option String
  gpuVramMb : Option String
  proc : Option (List (Option String))
  totalMemory : Option UInt64
  deriving DecidableEq, Repr

/-- Both variables, if the second one is a number. -/
def AgentSources.override (sources : AgentSources) : Option (String × UInt64) :=
  sources.gpuName.bind fun name =>
    (sources.gpuVramMb.bind fun vram => parseU64 vram.toList).map fun vramMb => (name, vramMb)

/-- `detect_gpu` of the node agent. -/
def detectGpu (sources : AgentSources) : String × UInt64 :=
  ((sources.override.or (sources.proc.bind probeNvidiaProc)).or
    (sources.totalMemory.map fun bytes =>
      ("Apple Silicon (unified)", bytes / 1024 / 1024 / 2))).getD ("Unknown GPU", 0)

/-! ## A host with GPUs -/

/-- The name has no white space around it and fits on a line. -/
structure Gpu where
  name : List Char
  memoryMb : UInt64
  trimmed : Lines.trim isWhitespace name = name
  oneLine : '\n' ∉ name
  memory : memoryMb ≠ 0
  deriving DecidableEq

def decimal (n : UInt64) : List Char := n.toNat.repr.toList

/-- A row of `--format=csv,noheader,nounits`. -/
def Gpu.row (gpu : Gpu) : List Char := gpu.name ++ ',' :: ' ' :: decimal gpu.memoryMb

/-- What `nvidia-smi` prints. -/
def smiOutput (gpus : List Gpu) : String := String.ofList (Lines.joinLines (gpus.map (·.row)))

/-- A line on something else. -/
def Other (line : List Char) : Prop :=
  '\n' ∉ line ∧ ¬ "Model:".toList <+: line ∧ ¬ "Video Memory:".toList <+: line

/-- The information on a GPU: its name and its memory on lines of their own, among others. -/
def Describes (content : String) (gpu : Gpu) : Prop :=
  ∃ before between after : List (List Char), (∀ line ∈ before ++ between ++ after, Other line) ∧
    content = String.ofList (Lines.joinLines (before ++
      ("Model: \t\t ".toList ++ gpu.name) :: (between ++
        ("Video Memory: \t ".toList ++ (decimal gpu.memoryMb ++ " MiB".toList)) :: after)))

/-- A host with these GPUs, in whatever order the directory lists them, whose environment does
not override the detection of the agent. -/
structure Host (gpus : List Gpu) (outputs : CommandOutputs) (sources : AgentSources) : Prop where
  smi : outputs.nvidiaSmi = some (smiOutput gpus)
  proc : ∃ listed contents, gpus.Perm listed ∧ List.Forall₂ Describes contents listed ∧
    sources.proc = some (contents.map some)
  override : sources.override = none

/-! ## Numbers and words -/

theorem isWhitespace_of_isDigit {c : Char} (h : c.isDigit = true) : isWhitespace c = false := by
  simp only [Char.isDigit, Bool.and_eq_true, decide_eq_true_eq] at h
  obtain ⟨hlow, hhigh⟩ := h
  have hlow : 48 ≤ c.toNat := UInt32.le_iff_toNat_le.mp hlow
  have hhigh : c.toNat ≤ 57 := UInt32.le_iff_toNat_le.mp hhigh
  rw [isWhitespace, decide_eq_false_iff_not]
  simp only [List.mem_cons, List.not_mem_nil, or_false]
  omega

theorem isDigit_of_mem_decimal {n : UInt64} {c : Char} (h : c ∈ decimal n) : c.isDigit = true := by
  rw [decimal, Nat.toList_repr] at h
  exact Nat.isDigit_of_mem_toDigits (by decide) (by decide) h

theorem decimal_ne_nil (n : UInt64) : decimal n ≠ [] := by
  rw [decimal, Nat.toList_repr]
  exact Nat.toDigits_ne_nil

theorem afterPlus_decimal (n : UInt64) : afterPlus (decimal n) = decimal n := by
  unfold afterPlus
  split
  · rename_i rest hplus
    have hdigit := isDigit_of_mem_decimal (n := n) (c := '+') (hplus ▸ List.mem_cons_self)
    cases hdigit
  · rfl

theorem parseU64_decimal (n : UInt64) : parseU64 (decimal n) = some n := by
  have hdigits : decimal n ≠ [] ∧ (decimal n).all Char.isDigit = true :=
    ⟨decimal_ne_nil n, List.all_eq_true.mpr fun c hc => isDigit_of_mem_decimal hc⟩
  have hvalue : Nat.ofDigitChars 10 (decimal n) 0 = n.toNat := by
    rw [decimal, Nat.toList_repr, Nat.ofDigitChars_ten_toDigits]
  rw [parseU64, afterPlus_decimal]
  dsimp only
  rw [if_pos hdigits, hvalue, if_pos n.toNat_lt, UInt64.ofNat_toNat]

/-- A text with a comma is no number. -/
theorem parseU64_of_comma {text : List Char} (h : ',' ∈ text) : parseU64 text = none := by
  have hmem : ',' ∈ afterPlus text := by
    unfold afterPlus
    split
    · simpa using h
    · exact h
  rw [parseU64, if_neg]
  rintro ⟨-, hdigits⟩
  have hcomma := List.all_eq_true.mp hdigits ',' hmem
  cases hcomma

theorem trim_decimal (n : UInt64) : Lines.trim isWhitespace (decimal n) = decimal n := by
  have hspace : ∀ c ∈ decimal n, ¬ isWhitespace c = true := by
    intro c hc
    simp [isWhitespace_of_isDigit (isDigit_of_mem_decimal hc)]
  have hdrop : (decimal n).dropWhile isWhitespace = decimal n := by
    rw [List.dropWhile_eq_self_iff]
    intro hlength
    exact hspace _ (List.getElem_mem hlength)
  rw [Lines.trim, hdrop, List.rdropWhile_eq_self_iff]
  intro hne
  exact hspace _ (List.getLast_mem hne)

theorem splitComma_append {before after : List Char} (h : ',' ∉ before) :
    splitComma (before ++ ',' :: after) = some (before, after) := by
  have hbefore : ∀ c ∈ before, decide (c ≠ ',') = true := by
    intro c hc
    exact decide_eq_true fun hcomma => h (hcomma ▸ hc)
  rw [splitComma, List.dropWhile_append_of_pos hbefore, List.takeWhile_append_of_pos hbefore]
  simp

/-- What `nvidia-smi` prints is read as far as its first comma, and the rest is a number or
none. -/
theorem readNvidiaSmi_eq {before after : List Char} (h : ',' ∉ before) :
    readNvidiaSmi (String.ofList (before ++ ',' :: after)) =
      some (String.ofList (Lines.trim isWhitespace before),
        (parseU64 (Lines.trim isWhitespace after)).getD 0) := by
  have hline : Lines.trim isWhitespace (before ++ ',' :: after) =
      before.dropWhile isWhitespace ++ ',' :: after.rdropWhile isWhitespace := by
    rw [Lines.trim, List.dropWhile_append]
    split
    · rename_i hempty
      rw [List.dropWhile_cons_of_neg (by decide), List.isEmpty_iff.mp hempty]
      exact Lines.rdropWhile_append_cons (by decide) [] after
    · exact Lines.rdropWhile_append_cons (by decide) _ after
  have hbefore : ',' ∉ before.dropWhile isWhitespace := fun hmem =>
    h ((List.dropWhile_sublist _).mem hmem)
  rw [readNvidiaSmi, String.toList_ofList, hline]
  dsimp only
  rw [splitComma_append hbefore, Option.map_some, Lines.trim_dropWhile, Lines.trim_rdropWhile]

/-! ## `nvidia-smi` -/

/-- The name and the memory of one GPU without a comma in its name are read; of more, and
of a name with a comma, the memory is lost. -/
theorem readNvidiaSmi_smiOutput (gpu : Gpu) (others : List Gpu) :
    ∃ name, readNvidiaSmi (smiOutput (gpu :: others)) =
        some (name, if others = [] ∧ ',' ∉ gpu.name then gpu.memoryMb else 0) ∧
      (',' ∉ gpu.name → name = String.ofList gpu.name) := by
  have hout : Lines.joinLines ((gpu :: others).map (·.row)) =
      gpu.name ++ ',' :: (' ' :: decimal gpu.memoryMb ++
        '\n' :: Lines.joinLines (others.map (·.row))) := by
    rw [List.map_cons, Lines.joinLines_cons, Gpu.row]
    simp
  rw [smiOutput, hout]
  by_cases hcomma : ',' ∈ gpu.name
  · obtain ⟨before, after, hname, hbefore⟩ := List.eq_append_cons_of_mem hcomma
    rw [hname, List.append_assoc, List.cons_append, readNvidiaSmi_eq hbefore]
    refine ⟨String.ofList (Lines.trim isWhitespace before), ?_, by simp⟩
    rw [parseU64_of_comma (Lines.mem_trim (by simp) (by decide)), if_neg (by simp)]
    rfl
  · rw [readNvidiaSmi_eq hcomma, gpu.trimmed]
    refine ⟨_, ?_, fun _ => rfl⟩
    by_cases hothers : others = []
    · have hblank : ∀ c ∈ [' '], isWhitespace c = true := by simp; decide
      have hend : ∀ c ∈ ['\n'], isWhitespace c = true := by simp; decide
      have htrim : Lines.trim isWhitespace (' ' :: decimal gpu.memoryMb ++
          '\n' :: Lines.joinLines (others.map (·.row))) = decimal gpu.memoryMb := by
        rw [hothers]
        show Lines.trim isWhitespace (([' '] ++ decimal gpu.memoryMb) ++ ['\n']) = _
        rw [Lines.trim_append_right hend, Lines.trim_append_left hblank, trim_decimal]
      rw [htrim, parseU64_decimal, if_pos ⟨hothers, hcomma⟩]
      rfl
    · -- the row of the next GPU has a comma
      obtain ⟨next, rest, rfl⟩ := List.exists_cons_of_ne_nil hothers
      have hmem : ',' ∈ Lines.joinLines ((next :: rest).map (·.row)) := by
        rw [List.map_cons, Lines.joinLines_cons, Gpu.row]
        simp
      have hafter : ',' ∈ ' ' :: decimal gpu.memoryMb ++
          '\n' :: Lines.joinLines ((next :: rest).map (·.row)) :=
        List.mem_append_right _ (List.mem_cons_of_mem _ hmem)
      rw [parseU64_of_comma (Lines.mem_trim hafter (by decide)), if_neg (by simp)]
      rfl

/-! ## The driver's directory -/

theorem dropPrefix?_eq_none {pre line : List Char} (h : ¬ pre <+: line) :
    line.dropPrefix? pre = none := by
  rw [Option.eq_none_iff_forall_ne_some]
  intro rest hrest
  obtain ⟨pre', hline, heq⟩ := List.dropPrefix?_eq_some_iff.mp hrest
  rw [beq_iff_eq] at heq
  exact h ⟨rest, by rw [hline, heq]⟩

theorem textLines_joinLines {lines : List (List Char)} (h : ∀ line ∈ lines, '\n' ∉ line) :
    textLines (Lines.joinLines lines) = lines.map stripReturn := by
  have hsplit := Lines.splitLines_joinLines h []
  rw [List.append_nil] at hsplit
  simp only [textLines, hsplit]
  show (if ([] : List Char) = [] then (lines ++ []).map stripReturn else _) = _
  rw [if_pos rfl, List.append_nil]

theorem isPrefix_stripReturn (line : List Char) : stripReturn line <+: line := by
  unfold stripReturn
  split
  · exact List.dropLast_prefix line
  · exact List.prefix_rfl

theorem readLine_other {line : List Char} (h : Other line)
    (found : Option (List Char) × Option UInt64) : readLine found (stripReturn line) = found := by
  have hname := dropPrefix?_eq_none fun hpre => h.2.1 (hpre.trans (isPrefix_stripReturn line))
  have hmemory := dropPrefix?_eq_none fun hpre => h.2.2 (hpre.trans (isPrefix_stripReturn line))
  simp only [readLine, hname, hmemory, Option.bind_none]

theorem foldl_other {lines : List (List Char)} (h : ∀ line ∈ lines, Other line)
    (found : Option (List Char) × Option UInt64) :
    (lines.map stripReturn).foldl readLine found = found := by
  induction lines with
  | nil => rfl
  | cons line lines ih =>
      obtain ⟨hline, hlines⟩ := List.forall_mem_cons.mp h
      rw [List.map_cons, List.foldl_cons, readLine_other hline, ih hlines]

theorem stripReturn_of_ne {line : List Char} {c : Char} (h : line.getLast? = some c)
    (hc : c ≠ '\r') : stripReturn line = line := by
  rw [stripReturn, h, if_neg (by simpa using hc)]

theorem readLine_name (gpu : Gpu) (vram : Option UInt64) :
    readLine (none, vram) (stripReturn ("Model: \t\t ".toList ++ gpu.name)) =
      (some gpu.name, vram) := by
  have hline : "Model: \t\t ".toList = "Model:".toList ++ " \t\t ".toList := rfl
  have hstrip : stripReturn ("Model: \t\t ".toList ++ gpu.name) =
      "Model: \t\t ".toList ++ gpu.name := by
    cases hlast : gpu.name.getLast? with
    | none =>
        rw [List.getLast?_eq_none_iff.mp hlast]
        decide +kernel
    | some c =>
        have hspace := Lines.not_isSpace_of_getLast? gpu.trimmed hlast
        refine stripReturn_of_ne (by rw [List.getLast?_append, hlast]; rfl) ?_
        rintro rfl
        cases hspace
  have hblank : ∀ c ∈ " \t\t ".toList, isWhitespace c = true := by
    simp [isWhitespace]
  have hother : ¬ "Video Memory:".toList <+: "Model: \t\t ".toList ++ gpu.name := by
    rintro ⟨rest, hrest⟩
    have hhead := congrArg List.head? hrest
    simp at hhead
  have hname : ("Model: \t\t ".toList ++ gpu.name).dropPrefix? "Model:".toList =
      some (" \t\t ".toList ++ gpu.name) := by
    rw [hline, List.append_assoc]
    exact List.dropPrefix?_append_of_beq _ (beq_self_eq_true _)
  simp only [readLine, hstrip, hname, dropPrefix?_eq_none hother, Option.bind_none,
    Lines.trim_append_left hblank, gpu.trimmed]

/-- A number is the first word before another. -/
theorem firstWord_decimal (n : UInt64) (rest : List Char) :
    firstWord (" \t ".toList ++ (decimal n ++ ' ' :: rest)) = some (decimal n) := by
  have hblank : ∀ c ∈ " \t ".toList, isWhitespace c = true := by
    simp [isWhitespace]
  have hspace : ∀ c ∈ decimal n, isWhitespace c = false := fun c hc =>
    isWhitespace_of_isDigit (isDigit_of_mem_decimal hc)
  have hdrop : (decimal n ++ ' ' :: rest).dropWhile isWhitespace = decimal n ++ ' ' :: rest := by
    obtain ⟨c, digits, hdigits⟩ := List.exists_cons_of_ne_nil (decimal_ne_nil n)
    have hc := hspace c (hdigits ▸ List.mem_cons_self)
    rw [hdigits, List.cons_append, List.dropWhile_cons_of_neg (by simp [hc])]
  have htake : (decimal n ++ ' ' :: rest).takeWhile (fun c => ¬ isWhitespace c) = decimal n := by
    rw [List.takeWhile_append_of_pos fun c hc => by simp [hspace c hc],
      List.takeWhile_cons_of_neg (by decide), List.append_nil]
  rw [firstWord, List.dropWhile_append_of_pos hblank, hdrop, htake, if_neg (decimal_ne_nil n)]

theorem readLine_memory (gpu : Gpu) (name : Option (List Char)) :
    readLine (name, none)
        (stripReturn ("Video Memory: \t ".toList ++ (decimal gpu.memoryMb ++ " MiB".toList))) =
      (name, some gpu.memoryMb) := by
  have hline : "Video Memory: \t ".toList = "Video Memory:".toList ++ " \t ".toList := by
    decide +kernel
  have hstrip : stripReturn
      ("Video Memory: \t ".toList ++ (decimal gpu.memoryMb ++ " MiB".toList)) =
        "Video Memory: \t ".toList ++ (decimal gpu.memoryMb ++ " MiB".toList) := by
    have hend : " MiB".toList.getLast? = some 'B' := rfl
    refine stripReturn_of_ne ?_ (by decide : 'B' ≠ '\r')
    rw [List.getLast?_append, List.getLast?_append, hend]
    rfl
  have hother : ¬ "Model:".toList <+:
      "Video Memory: \t ".toList ++ (decimal gpu.memoryMb ++ " MiB".toList) := by
    rintro ⟨rest, hrest⟩
    have hhead := congrArg List.head? hrest
    simp at hhead
  have hmemory : ("Video Memory: \t ".toList ++ (decimal gpu.memoryMb ++ " MiB".toList)).dropPrefix?
      "Video Memory:".toList = some (" \t ".toList ++ (decimal gpu.memoryMb ++ " MiB".toList)) := by
    rw [hline, List.append_assoc]
    exact List.dropPrefix?_append_of_beq _ (beq_self_eq_true _)
  have hword : firstWord (" \t ".toList ++ (decimal gpu.memoryMb ++ " MiB".toList)) =
      some (decimal gpu.memoryMb) := firstWord_decimal gpu.memoryMb ['M', 'i', 'B']
  simp only [readLine, hstrip, dropPrefix?_eq_none hother, hmemory, Option.bind_some, hword,
    parseU64_decimal]

/-- The first GPU of the directory is found. -/
theorem probeNvidiaProc_describes {content : String} {gpu : Gpu} (h : Describes content gpu)
    (entries : List (Option String)) :
    probeNvidiaProc (some content :: entries) = some (String.ofList gpu.name, gpu.memoryMb) := by
  obtain ⟨before, between, after, hother, rfl⟩ := h
  have hbefore : ∀ line ∈ before, Other line := fun line hline => hother line (by simp [hline])
  have hbetween : ∀ line ∈ between, Other line := fun line hline => hother line (by simp [hline])
  have hafter : ∀ line ∈ after, Other line := fun line hline => hother line (by simp [hline])
  have hname : '\n' ∉ "Model: \t\t ".toList ++ gpu.name := by
    rw [List.mem_append, not_or]
    exact ⟨by decide +kernel, gpu.oneLine⟩
  have hmemory : '\n' ∉ "Video Memory: \t ".toList ++ (decimal gpu.memoryMb ++ " MiB".toList) := by
    rw [List.mem_append, List.mem_append, not_or, not_or]
    refine ⟨by decide +kernel, ?_, by decide +kernel⟩
    intro hmem
    have hdigit := isDigit_of_mem_decimal hmem
    cases hdigit
  have hlines : ∀ line ∈ before ++ ("Model: \t\t ".toList ++ gpu.name) :: (between ++
      ("Video Memory: \t ".toList ++ (decimal gpu.memoryMb ++ " MiB".toList)) :: after),
      '\n' ∉ line := by
    intro line hline
    rcases List.mem_append.mp hline with hline | hline
    · exact (hbefore line hline).1
    rcases List.mem_cons.mp hline with rfl | hline
    · exact hname
    rcases List.mem_append.mp hline with hline | hline
    · exact (hbetween line hline).1
    rcases List.mem_cons.mp hline with rfl | hline
    · exact hmemory
    · exact (hafter line hline).1
  rw [probeNvidiaProc, String.toList_ofList, textLines_joinLines hlines, List.map_append,
    List.foldl_append, foldl_other hbefore, List.map_cons, List.foldl_cons, readLine_name,
    List.map_append, List.foldl_append, foldl_other hbetween, List.map_cons, List.foldl_cons,
    readLine_memory, foldl_other hafter]

/-! ## The detections together -/

theorem detectVram_eq {outputs : CommandOutputs} (gpu : Gpu) (others : List Gpu)
    (h : outputs.nvidiaSmi = some (smiOutput (gpu :: others))) :
    ∃ name, detectVram outputs =
        (name, if others = [] ∧ ',' ∉ gpu.name then gpu.memoryMb else 0) ∧
      (',' ∉ gpu.name → name = String.ofList gpu.name) := by
  obtain ⟨name, hread, hname⟩ := readNvidiaSmi_smiOutput gpu others
  refine ⟨name, ?_, hname⟩
  rw [detectVram, h, Option.bind_some, hread]
  rfl

/-- **The detections agree about one GPU**, if its name has no comma, and about no other
host with NVIDIA GPUs: on any other `infer connect` finds no memory. -/
theorem detections_agree_iff {gpus : List Gpu} {outputs : CommandOutputs} {sources : AgentSources}
    (h : Host gpus outputs sources) (hne : gpus ≠ []) :
    (detectVram outputs = detectGpu sources ↔ ∃ gpu, gpus = [gpu] ∧ ',' ∉ gpu.name) ∧
      ((¬ ∃ gpu, gpus = [gpu] ∧ ',' ∉ gpu.name) → (detectVram outputs).2 = 0) := by
  obtain ⟨gpu, others, rfl⟩ := List.exists_cons_of_ne_nil hne
  obtain ⟨name, hvram, hname⟩ := detectVram_eq gpu others h.smi
  have hnothing : (¬ ∃ only, gpu :: others = [only] ∧ ',' ∉ only.name) →
      (detectVram outputs).2 = 0 := by
    intro hnot
    rw [hvram]
    apply if_neg
    rintro ⟨rfl, hcomma⟩
    exact hnot ⟨gpu, rfl, hcomma⟩
  refine ⟨?_, hnothing⟩
  obtain ⟨listed, contents, hperm, hdescribes, hproc⟩ := h.proc
  cases hdescribes with
  | nil =>
      have hlength := hperm.length_eq
      cases hlength
  | @cons content first contents listed hfirst _ =>
      have hgpu : detectGpu sources = (String.ofList first.name, first.memoryMb) := by
        rw [detectGpu, h.override, hproc, Option.bind_some, List.map_cons,
          probeNvidiaProc_describes hfirst]
        rfl
      constructor
      · intro hagree
        by_contra hnot
        have hmemory := hnothing hnot
        rw [hagree, hgpu] at hmemory
        exact first.memory hmemory
      · rintro ⟨only, honly, hcomma⟩
        obtain ⟨rfl, rfl⟩ := List.cons.inj honly
        have hsame : first = gpu := by
          have hmem := hperm.symm.subset List.mem_cons_self
          exact List.mem_singleton.mp hmem
        rw [hvram, hgpu, hsame, if_pos ⟨rfl, hcomma⟩, hname hcomma]

def rtx4090 : Gpu :=
  { name := "NVIDIA GeForce RTX 4090".toList
    memoryMb := 24564
    trimmed := by decide +kernel
    oneLine := by decide +kernel
    memory := by decide }

/-- What a host with this GPU shows of it. -/
def rtx4090Information : String :=
  "Model: \t\t NVIDIA GeForce RTX 4090\nIRQ: \t\t 152\nVideo Memory: \t 24564 MiB\n"

theorem describes_rtx4090 : Describes rtx4090Information rtx4090 := by
  refine ⟨[], ["IRQ: \t\t 152".toList], [], ?_, ?_⟩
  · intro line hline
    rw [List.mem_singleton.mp hline]
    refine ⟨by decide +kernel, by decide +kernel, by decide +kernel⟩
  · decide +kernel

def twoGpus : CommandOutputs := ⟨some (smiOutput [rtx4090, rtx4090]), none, none⟩

def twoGpuSources : AgentSources :=
  ⟨none, none, some [some rtx4090Information, some rtx4090Information], none⟩

/-- With two GPUs one program registers the memory of the first, the other one none. -/
theorem detections_agree_iff_two_gpus :
    ¬ detectVram twoGpus = detectGpu twoGpuSources ∧ (detectVram twoGpus).2 = 0 := by
  have hhost : Host [rtx4090, rtx4090] twoGpus twoGpuSources :=
    ⟨rfl, ⟨_, [rtx4090Information, rtx4090Information], .refl _,
      .cons describes_rtx4090 (.cons describes_rtx4090 .nil), rfl⟩, rfl⟩
  have hmany : ¬ ∃ gpu, [rtx4090, rtx4090] = [gpu] ∧ ',' ∉ gpu.name := by
    rintro ⟨gpu, hone, -⟩
    cases hone
  obtain ⟨hagree, hnothing⟩ := detections_agree_iff hhost (by simp)
  exact ⟨fun hsame => hmany (hagree.mp hsame), hnothing hmany⟩

/-! ## Who is part of a plan -/

/-- Every node that gets layers has room for one. -/
theorem assignLayers_room (p : Checked.Profile) {model : ModelSpec}
    (hper : 1 ≤ model.vramPerLayerMb.toNat) {nodes : List NodeCapacity} {layerCursor : UInt32}
    {contextReserve : UInt64} {placements : List Placement} {last : UInt32}
    (h : assignLayers p model nodes layerCursor contextReserve = .ok (placements, last)) :
    ∀ placement ∈ placements, model.vramPerLayerMb ≤ placement.node.availableVramMb := by
  induction nodes generalizing layerCursor contextReserve placements last with
  | nil =>
      rw [assignLayers] at h
      cases h
      simp
  | cons node rest ih =>
      by_cases hdone : model.totalLayers ≤ layerCursor
      · rw [assignLayers, if_pos hdone] at h
        cases h
        simp
      · have hopen : layerCursor < model.totalLayers := UInt32.not_le.mp hdone
        by_cases hfull :
            Checked.saturatingSub64 node.availableVramMb contextReserve < model.vramPerLayerMb
        · rw [assignLayers_skip p node rest hopen hfull] at h
          exact ih h
        · have hroom := UInt64.not_lt.mp hfull
          obtain ⟨placement, hnode, -, hstep⟩ := assignLayers_place node rest hper hopen hroom
          rw [hstep p] at h
          cases hrest : assignLayers p model rest placement.assignment.layerEnd 0 with
          | error panic =>
              rw [hrest] at h
              cases h
          | ok run =>
              rw [hrest] at h
              cases h
              refine List.forall_mem_cons.mpr ⟨?_, ih hrest⟩
              rw [hnode, UInt64.le_iff_toNat_le]
              rw [UInt64.le_iff_toNat_le, Checked.toNat_saturatingSub64] at hroom
              omega

theorem planShards_room {p : Checked.Profile} {model : ModelSpec} {nodes : List NodeCapacity}
    {plan : ShardPlan} (hper : 1 ≤ model.vramPerLayerMb.toNat)
    (h : planShards p model nodes = .ok (.ok plan)) :
    ∀ a ∈ plan.assignments, ∃ node ∈ nodes, Copies a node ∧
      model.vramPerLayerMb ≤ node.availableVramMb := by
  obtain ⟨placements, hplaced, rfl⟩ := planShards_ok h
  obtain ⟨last, -, hrun⟩ := placeShards_ok hplaced
  obtain ⟨placements', last', hspec, inv⟩ :=
    assignLayers_spec hper (sortByVram nodes) 0 model.contextVramMb (by simp)
  have hsame := (hspec p).symm.trans hrun
  simp only [Except.ok.injEq, Prod.mk.injEq] at hsame
  obtain ⟨rfl, rfl⟩ := hsame
  intro a ha
  obtain ⟨placement, hmem, rfl⟩ := List.mem_map.mp ha
  obtain ⟨cursor, usable, -, hloaded⟩ := inv.loaded placement hmem
  have hnode : placement.node ∈ sortByVram nodes := inv.visited.mem (List.mem_map_of_mem hmem)
  exact ⟨placement.node, (sortByVram_perm nodes).mem_iff.mp hnode, hloaded.copies,
    assignLayers_room p hper hrun placement hmem⟩

section

variable {Ms : Type} [LinearOrder Ms] {p : Checked.Profile} {maxMs : Ms} {model : String}
  {nodes : List NodeInfo} {stats : StatsMap Ms} {plans : List ShardPlan} {plan : ShardPlan}

/-- **Only a measured provider gets layers.** A node with the memory that `infer connect`
has found on a host with NVIDIA GPUs is part of a plan only if the host has one GPU, whose
name has no comma, with room for a layer. -/
theorem planned_measured {gpus : List Gpu} {outputs : CommandOutputs}
    (hsmi : outputs.nvidiaSmi = some (smiOutput gpus)) (hne : gpus ≠ [])
    (hids : (nodes.map (·.id)).Nodup) {n : NodeInfo} (hn : n ∈ nodes)
    (hvram : n.vramMb = (detectVram outputs).2) {rrCounter : UInt64}
    (hplans : (buildCandidates p maxMs rrCounter model nodes stats).1 = .ok plans)
    (hplan : plan ∈ plans) {a : ShardAssignment} (ha : a ∈ plan.assignments)
    (hown : a.nodeId = n.id) :
    ∃ gpu, gpus = [gpu] ∧ ',' ∉ gpu.name ∧
      (requestSpec model).vramPerLayerMb ≤ gpu.memoryMb := by
  obtain ⟨chosen, hchosen, hplanned⟩ := plannedFrom_buildCandidates hplans hplan
  have hper := (regular_requestSpec model).perLayer_pos
  obtain ⟨node, hnode, hcopies, hroom⟩ := planShards_room hper hplanned a ha
  obtain ⟨m, hm, rfl⟩ := List.mem_map.mp hnode
  have hid : m.id = n.id := hcopies.1.symm.trans hown
  have hsame : m = n := List.inj_on_of_nodup_map hids (hchosen m hm).1 hn hid
  obtain ⟨gpu, others, rfl⟩ := List.exists_cons_of_ne_nil hne
  obtain ⟨name, hdetected, -⟩ := detectVram_eq gpu others hsmi
  have hvram' : n.vramMb = if others = [] ∧ ',' ∉ gpu.name then gpu.memoryMb else 0 := by
    rw [hvram, hdetected]
  have hmemory : (requestSpec model).vramPerLayerMb ≤
      if others = [] ∧ ',' ∉ gpu.name then gpu.memoryMb else 0 := by
    rw [← hvram', ← hsame]
    exact hroom
  by_cases hone : others = [] ∧ ',' ∉ gpu.name
  · rw [if_pos hone] at hmemory
    exact ⟨gpu, by rw [hone.1], hone.2, hmemory⟩
  · rw [if_neg hone, UInt64.le_iff_toNat_le] at hmemory
    simp at hmemory
    omega

end

def oneGpu : CommandOutputs := ⟨some (smiOutput [rtx4090]), none, none⟩

theorem planned_measured_one_gpu : ∃ plans plan a,
    (buildCandidates .release f64Max 0 "llama3.2:3b" [gpu "gpu0" 24564] []).1 = .ok plans ∧
      plan ∈ plans ∧ a ∈ plan.assignments ∧ a.nodeId = "gpu0" ∧
      ∃ gpu, [rtx4090] = [gpu] ∧ ',' ∉ gpu.name ∧
        (requestSpec "llama3.2:3b").vramPerLayerMb ≤ gpu.memoryMb := by
  have hplans : (buildCandidates .release f64Max 0 "llama3.2:3b" [gpu "gpu0" 24564] []).1 =
      .ok [soloPlan (requestSpec "llama3.2:3b") (gpu "gpu0" 24564).capacity] := by
    rw [buildCandidates_solo .release f64Max 0 [] (by decide) (by decide)]
    rfl
  have hvram : (gpu "gpu0" 24564).vramMb = (detectVram oneGpu).2 := by decide +kernel
  have hsmi : oneGpu.nvidiaSmi = some (smiOutput [rtx4090]) := rfl
  exact ⟨_, _, _, hplans, List.mem_cons_self, List.mem_cons_self, rfl,
    planned_measured hsmi (by simp) (by simp) List.mem_cons_self hvram hplans
      List.mem_cons_self List.mem_cons_self rfl⟩

end InferPlatform.Agent
