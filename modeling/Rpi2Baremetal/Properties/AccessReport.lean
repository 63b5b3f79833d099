import Rpi2Baremetal.Properties.ConsoleOutput
import Rpi2Baremetal.Properties.TableBuilder

/-!
# The report of `output_access_policy`

For each of the first `0x430` sections the report has the address and the word found there, or,
where the access aborts, what the abort handler prints.  `readReport` reads the sections back from
the characters sent: a section that can be read has a line of 20 characters, and one that aborts
has a longer line and another line after it.
-/

namespace Rpi2Baremetal

namespace Console

open Framework CallStack

variable {env : Env} {s : State}

/-! ## Lines -/

/-- The characters are neither newlines nor carriage returns. -/
def Plain (l : List Byte) : Prop := ∀ c ∈ l, c ≠ newline ∧ c ≠ carriageReturn

lemma Plain.append {l l' : List Byte} (h : Plain l) (h' : Plain l') : Plain (l ++ l') :=
  List.forall_mem_append.mpr ⟨h, h'⟩

/-- A string of printable ASCII characters. -/
lemma plain_cstr {str : String}
    (h : (str.toList.all fun c => 32 ≤ c.toNat && c.toNat < 127) = true) : Plain (cstr str) := by
  intro b hb
  obtain ⟨c, hc, rfl⟩ := List.mem_map.mp hb
  obtain ⟨hlow, hhigh⟩ : 32 ≤ c.toNat ∧ c.toNat < 127 := by
    simpa using List.all_eq_true.mp h c hc
  have hnat : (BitVec.ofNat 8 c.toNat).toNat = c.toNat := by
    rw [BitVec.toNat_ofNat]
    omega
  constructor <;> intro heq <;> rw [heq] at hnat
  · have hten : newline.toNat = 10 := rfl
    omega
  · have hthirteen : carriageReturn.toNat = 13 := rfl
    omega

/-- Some lines, each followed by a newline. -/
def unlines (ls : List (List Byte)) : List Byte := ls.flatMap (· ++ [newline])

@[simp] lemma unlines_nil : unlines [] = [] := rfl

lemma unlines_cons (l : List Byte) (ls : List (List Byte)) :
    unlines (l :: ls) = l ++ newline :: unlines ls := by
  simp [unlines]

lemma unlines_append (ls ls' : List (List Byte)) :
    unlines (ls ++ ls') = unlines ls ++ unlines ls' :=
  List.flatMap_append

/-- The lines that were sent. -/
def readLines (out : List Byte) : List (List Byte) :=
  (out.filter (· ≠ carriageReturn)).splitOn newline

lemma filter_wire_plain {l : List Byte} (h : Plain l) :
    (wire l).filter (· ≠ carriageReturn) = l := by
  induction l with
  | nil => rfl
  | cons c l ih =>
      obtain ⟨⟨hnl, hcr⟩, hl⟩ := List.forall_mem_cons.mp h
      rw [wire_cons, wireChar, if_neg (by simp [hnl, hcr]), List.filter_append, ih hl]
      simp [hcr]

lemma readLines_wire {ls : List (List Byte)} (h : ∀ l ∈ ls, Plain l) :
    readLines (wire (unlines ls)) = ls ++ [[]] := by
  have hfilter : (wire (unlines ls)).filter (· ≠ carriageReturn) = unlines ls := by
    induction ls with
    | nil => rfl
    | cons l ls ih =>
        obtain ⟨hl, hls⟩ := List.forall_mem_cons.mp h
        rw [unlines_cons, wire_append, wire_cons, List.filter_append, List.filter_append,
          filter_wire_plain hl, ih hls]
        rfl
  rw [readLines, hfilter]
  clear hfilter
  induction ls with
  | nil => rfl
  | cons l ls ih =>
      obtain ⟨hl, hls⟩ := List.forall_mem_cons.mp h
      rw [unlines_cons, List.splitOn_append_cons_self_of_not_mem fun hmem => (hl _ hmem).1 rfl,
        ih hls]
      rfl

/-! ## Numbers -/

/-- The value of a hexadecimal digit. -/
def hexValue (c : Byte) : Word := if c ≤ 0x39 then c.setWidth 32 - 0x30 else c.setWidth 32 - 0x37

/-- The number with some hexadecimal digits. -/
def readHex (digits : List Byte) : Word := digits.foldl (fun d c => d <<< 4 ||| hexValue c) 0

/-- A digit has its value and is a printable character other than `=`. -/
lemma hexDigit_spec (d : Word) (rb : ℕ) :
    hexValue (hexDigit d rb) = (d >>> rb) &&& 0xF ∧ hexDigit d rb ≠ newline ∧
      hexDigit d rb ≠ carriageReturn ∧ hexDigit d rb ≠ 0x3D := by
  have hall : ∀ n < 16, ∀ c : Byte, c = (if BitVec.ofNat 32 n > 9 then BitVec.ofNat 32 n + 0x37
      else BitVec.ofNat 32 n + 0x30).setWidth 8 →
      hexValue c = .ofNat 32 n ∧ c ≠ newline ∧ c ≠ carriageReturn ∧ c ≠ 0x3D := by
    intro n hn c hc
    subst hc
    revert n
    decide
  have hlt : ((d >>> rb) &&& 0xF).toNat < 16 := by
    rw [BitVec.toNat_and]
    exact Nat.lt_succ_of_le Nat.and_le_right
  have hspec := hall _ hlt (hexDigit d rb) (by rw [BitVec.ofNat_toNat, BitVec.setWidth_eq]; rfl)
  rwa [BitVec.ofNat_toNat, BitVec.setWidth_eq] at hspec

lemma shift_digit (d : Word) (rb : ℕ) :
    (d >>> (rb + 4)) <<< 4 ||| ((d >>> rb) &&& 0xF) = d >>> rb := by
  have hmask : ∀ i < 32, (0xF : Word).getLsbD i = decide (i < 4) := by decide
  refine BitVec.eq_of_getLsbD_eq fun i hi => ?_
  rw [BitVec.getLsbD_or, BitVec.getLsbD_and, hmask i hi, BitVec.getLsbD_shiftLeft,
    BitVec.getLsbD_ushiftRight, BitVec.getLsbD_ushiftRight]
  by_cases h4 : i < 4
  · simp [h4]
  · have hbit : rb + 4 + (i - 4) = rb + i := by omega
    simp [h4, hi, hbit]

lemma readHex_hexDigits (d : Word) : readHex (hexDigits d) = d := by
  have hzero : (0 : Word) = d >>> (28 + 4) := (BitVec.ushiftRight_eq_zero le_rfl).symm
  simp only [readHex, hexDigits, List.map_cons, List.map_nil, List.foldl_cons, List.foldl_nil,
    (hexDigit_spec d _).1]
  rw [hzero, shift_digit, shift_digit d 24, shift_digit d 20, shift_digit d 16, shift_digit d 12,
    shift_digit d 8, shift_digit d 4, shift_digit d 0, BitVec.ushiftRight_zero]

lemma plain_hexDigits (d : Word) : Plain (hexDigits d) := by
  intro c hc
  obtain ⟨rb, -, rfl⟩ := List.mem_map.mp hc
  exact ⟨(hexDigit_spec d rb).2.1, (hexDigit_spec d rb).2.2.1⟩

/-! ## The lines of the report -/

/-- The line the abort handler prints. -/
def abortLine (address status : Word) : List Byte :=
  hexDigits address ++ [0x20] ++ cstr ": ABORT caused by"
    ++ (if status &&& 0x1000 ≠ 0 then cstr " ::external abort" else [])
    ++ cstr (if status &&& 0x8000 ≠ 0 then " ::write access" else " ::read access")
    ++ (faultText (status &&& 0x40F)).flatMap Cmd.text

/-- The lines `check_address` prints. -/
def sectionLines (env : Env) (address : Word) : List (List Byte) :=
  let head := hexDigits address ++ [0x20] ++ cstr ": "
  match env.load address with
  | .ok value => [head ++ (hexDigits value ++ [0x20])]
  | .error status => [head ++ abortLine address status, hexDigits address ++ [0x20]]

/-- The line of equals signs. -/
def ruleLine : List Byte := List.replicate 56 0x3D

/-- The lines of the report on some addresses. -/
def reportLines (env : Env) (addresses : List Word) : List (List Byte) :=
  [ruleLine, cstr "CPUID: " ++ hexDigits env.prid ++ [0x20]]
    ++ addresses.flatMap (sectionLines env) ++ [ruleLine]

lemma plain_space : Plain [0x20] := by
  simp [Plain, newline, carriageReturn]

/-- What a description, if there is one, prints has no newline in it. -/
def PlainText (text : Option String) : Prop := ∀ str ∈ text, Plain (cstr str)

lemma PlainText.ite {p : Prop} [Decidable p] {str : String} {text : Option String}
    (h : Plain (cstr str)) (h' : PlainText text) :
    PlainText (if p then some str else text) := by
  split_ifs
  · rintro _ ⟨⟩
    exact h
  · exact h'

lemma plain_faultText (fs : Word) : Plain ((faultText fs).flatMap Cmd.text) := by
  have htext : ∀ text : Option String, PlainText text →
      Plain ((text.toList.map fun s => Cmd.uartPuts (cstr s)).flatMap Cmd.text) := by
    intro text h
    cases text with
    | none => simp [Plain]
    | some str => simpa [Cmd.text] using h str rfl
  refine htext _ ?_
  iterate 14 refine .ite (plain_cstr (by decide)) ?_
  intro str hstr
  cases hstr

lemma plain_abortLine (address status : Word) : Plain (abortLine address status) := by
  refine .append (.append (.append (.append (.append (plain_hexDigits _) plain_space)
    (plain_cstr (by decide))) ?_) ?_) (plain_faultText _)
  · split_ifs
    · exact plain_cstr (by decide)
    · simp [Plain]
  · split_ifs <;> exact plain_cstr (by decide)

lemma plain_sectionLines (address : Word) : ∀ l ∈ sectionLines env address, Plain l := by
  have hhead : Plain (hexDigits address ++ [0x20] ++ cstr ": ") :=
    .append (.append (plain_hexDigits _) plain_space) (plain_cstr (by decide))
  unfold sectionLines
  split
  · simpa using hhead.append (.append (plain_hexDigits _) plain_space)
  · simpa using ⟨hhead.append (plain_abortLine _ _), (plain_hexDigits _).append plain_space⟩

lemma plain_reportLines (addresses : List Word) : ∀ l ∈ reportLines env addresses, Plain l := by
  have hrule : Plain ruleLine := by
    intro c hc
    rw [List.eq_of_mem_replicate hc]
    decide
  simp only [reportLines, List.forall_mem_append, List.forall_mem_cons]
  refine ⟨⟨⟨hrule, ?_, by simp⟩, fun l hl => ?_⟩, hrule, by simp⟩
  · exact .append (.append (plain_cstr (by decide)) (plain_hexDigits _)) plain_space
  · obtain ⟨address, -, hl⟩ := List.mem_flatMap.mp hl
    exact plain_sectionLines address l hl

/-! ## Sending the report -/

lemma cstr_newline : cstr "\n" = [newline] := rfl

lemma cstr_rule :
    cstr "========================================================\n" = ruleLine ++ [newline] := rfl

lemma prints_dataAbortVector (address status : Word) :
    ∀ c ∈ Cmd.body env (.dataAbortVector address status), c.prints := by
  have hfault : ∀ d ∈ faultText (status &&& 0x40F), d.prints := by
    intro d hd
    obtain ⟨text, -, rfl⟩ := List.mem_map.mp hd
    rfl
  simp only [Cmd.body, List.forall_mem_append]
  refine ⟨⟨⟨⟨by simp [Cmd.prints], ?_⟩, by simp [Cmd.prints]⟩, hfault⟩, by simp [Cmd.prints]⟩
  split_ifs <;> simp [Cmd.prints]

lemma text_dataAbortVector (env : Env) (address status : Word) :
    (Cmd.body env (.dataAbortVector address status)).flatMap Cmd.text
      = abortLine address status ++ [newline] := by
  have hext : (if status &&& 0x1000 ≠ 0 then [Cmd.uartPuts (cstr " ::external abort")]
        else []).flatMap Cmd.text
      = if status &&& 0x1000 ≠ 0 then cstr " ::external abort" else [] := by
    split_ifs <;> simp [Cmd.text]
  simp only [Cmd.body, abortLine, List.flatMap_append, List.flatMap_cons, List.flatMap_nil,
    List.append_nil, hext, Cmd.text, cstr_newline]

lemma sends_dataAbortVector (hfair : TransmitterDrains env) (h : CanPrint env s)
    (address status : Word) :
    Sends env [.dataAbortVector address status] s
      (wire (abortLine address status ++ [newline])) := by
  rw [← text_dataAbortVector env]
  exact .call rfl (sends_prints hfair (prints_dataAbortVector address status) h)

lemma sends_checkAddress (hfair : TransmitterDrains env) (h : CanPrint env s) (address : Word) :
    Sends env [.checkAddress address] s (wire (unlines (sectionLines env address))) := by
  refine .call rfl ?_
  have hhead : ∀ {s : State}, CanPrint env s →
      Sends env [.hexstring address, .uartPuts (cstr ": ")] s
        (wire (hexDigits address ++ [0x20] ++ cstr ": ")) := by
    intro s h
    have hprints : ∀ c ∈ [Cmd.hexstring address, .uartPuts (cstr ": ")], c.prints := by
      simp [Cmd.prints]
    simpa [Cmd.text] using sends_prints hfair hprints h
  have htail : ∀ {s : State} (value : Word), CanPrint env s →
      Sends env [.hexstring value, .uartPuts (cstr "\n")] s
        (wire (hexDigits value ++ [0x20, newline])) := by
    intro s value h
    have hprints : ∀ c ∈ [Cmd.hexstring value, .uartPuts (cstr "\n")], c.prints := by
      simp [Cmd.prints]
    simpa [Cmd.text, cstr_newline] using sends_prints hfair hprints h
  simp only [Cmd.body, read32]
  cases hload : env.load address with
  | ok value =>
      have hlines : wire (unlines (sectionLines env address))
          = wire (hexDigits address ++ [0x20] ++ cstr ": ")
            ++ wire (hexDigits value ++ [0x20, newline]) := by
        rw [← wire_append]
        simp [sectionLines, hload, unlines_cons, -wire_append]
      rw [hlines, List.append_nil]
      exact (hhead h).append fun s' hheld => htail value (h.congr hheld)
  | error status =>
      have hlines : wire (unlines (sectionLines env address))
          = wire (hexDigits address ++ [0x20] ++ cstr ": ")
            ++ (wire (abortLine address status ++ [newline])
              ++ wire (hexDigits address ++ [0x20, newline])) := by
        rw [← wire_append, ← wire_append]
        simp [sectionLines, hload, unlines_cons, -wire_append]
      rw [hlines, List.append_assoc]
      refine (hhead h).append fun s1 h1 => ?_
      refine (sends_dataAbortVector hfair (h.congr h1) address status).append fun s2 h2 => ?_
      exact htail address ((h.congr h1).congr h2)

/-- The sections of the report from number `k` on. -/
def sectionsFrom (k : ℕ) : List Word := (List.range' k (0x430 - k)).map Mmu.sectionBase

/-- The sections of the report. -/
def sections : List Word := sectionsFrom 0

lemma sends_checkAddressesFrom (hfair : TransmitterDrains env) {k : ℕ} (hk : k ≤ 0x430)
    (h : CanPrint env s) :
    Sends env [.checkAddressesFrom (Mmu.sectionBase k)] s
      (wire (unlines ((sectionsFrom k).flatMap (sectionLines env)))) := by
  refine .call rfl ?_
  have hlt : Mmu.sectionBase k < 0x43000000 ↔ k < 0x430 := by
    rw [BitVec.lt_def, Mmu.sectionBase_toNat (by omega)]
    have : (0x43000000 : Word).toNat = 0x430 * 2 ^ 20 := rfl
    omega
  -- induction on the number of sections to go
  obtain ⟨n, hn⟩ := Nat.exists_eq_add_of_le hk
  induction n generalizing k s with
  | zero =>
      have hdone : sectionsFrom k = [] := by
        rw [sectionsFrom, show 0x430 - k = 0 by omega]
        rfl
      rw [Cmd.body, if_neg (mt hlt.mp (by omega)), hdone]
      exact .nil s
  | succ n ih =>
      have hnext : sectionsFrom k = Mmu.sectionBase k :: sectionsFrom (k + 1) := by
        rw [sectionsFrom, show 0x430 - k = n + 1 by omega, List.range'_succ, List.map_cons,
          sectionsFrom, show 0x430 - (k + 1) = n by omega]
      have hstep : Mmu.sectionBase k + 0x00100000 = Mmu.sectionBase (k + 1) :=
        Mmu.sectionBase_succ k
      rw [Cmd.body, if_pos (hlt.mpr (by omega)), hnext, List.flatMap_cons, unlines_append,
        wire_append, hstep]
      refine (sends_checkAddress hfair h _).append fun s' hheld => ?_
      refine .call rfl (ih (by omega) (h.congr hheld) ?_ (by omega))
      rw [BitVec.lt_def, Mmu.sectionBase_toNat (by omega)]
      have : (0x43000000 : Word).toNat = 0x430 * 2 ^ 20 := rfl
      omega

lemma sends_outputAccessPolicy (hfair : TransmitterDrains env) (hp : env.prid = 0)
    (hexp : s.held .expLock = false) (huart : s.held .uartLock = false) :
    Sends env [.outputAccessPolicy] s (wire (unlines (reportLines env sections))) := by
  have hne : LockWord.uartLock ≠ .expLock := by decide
  have hcan : CanPrint env { s with held := Function.update s.held .expLock true } :=
    .inr ⟨hp, (Function.update_of_ne hne true s.held).trans huart⟩
  have hrule : ∀ {s : State}, CanPrint env s →
      Sends env [.uartPuts (cstr "========================================================\n")] s
        (wire (unlines [ruleLine])) := by
    intro s h
    have hsends := sends_uartPuts hfair h (ruleLine ++ [newline])
    rwa [← cstr_rule] at hsends
  have hcpuid : ∀ {s : State}, CanPrint env s →
      Sends env [.registerValuePuts (cstr "CPUID: ") env.prid] s
        (wire (unlines [cstr "CPUID: " ++ hexDigits env.prid ++ [0x20]])) := by
    intro s h
    simpa [unlines_cons] using sends_registerValuePuts hfair h (cstr "CPUID: ") env.prid
  have hlines : wire (unlines (reportLines env sections))
      = wire (unlines [ruleLine])
        ++ (wire (unlines [cstr "CPUID: " ++ hexDigits env.prid ++ [0x20]])
          ++ (wire (unlines (sections.flatMap (sectionLines env)))
            ++ wire (unlines [ruleLine]))) := by
    rw [← wire_append, ← wire_append, ← wire_append, ← unlines_append, ← unlines_append,
      ← unlines_append]
    simp [reportLines]
  refine .call rfl ?_
  rw [hlines]
  refine sends_critical [_, _, _, _] hp hexp ?_
  refine (hrule hcan).append fun s1 h1 => ?_
  refine (hcpuid (hcan.congr h1)).append fun s2 h2 => ?_
  have hcan2 := (hcan.congr h1).congr h2
  refine (sends_checkAddressesFrom hfair (Nat.zero_le _) hcan2).append fun s3 h3 => ?_
  exact hrule (hcan2.congr h3)

/-! ## Reading the report -/

/-- The sections in the lines of a report: their addresses, and the words of those that can be
read. -/
def readSections : List (List Byte) → List (Word × Option Word)
  | [] => []
  | l :: ls =>
      if l.head? = some 0x3D then []
      else if l.length = 20 then
        (readHex (l.take 8), some (readHex ((l.drop 11).take 8))) :: readSections ls
      else
        match ls with
        | [] => []
        | _ :: ls => (readHex (l.take 8), none) :: readSections ls

/-- The sections of a report, and the words of those that can be read. -/
def readReport (out : List Byte) : List (Word × Option Word) :=
  readSections ((readLines out).drop 2)

lemma length_hexDigits (d : Word) : (hexDigits d).length = 8 := rfl

lemma readHex_take (d : Word) (l : List Byte) : readHex ((hexDigits d ++ l).take 8) = d := by
  rw [List.take_left' (length_hexDigits d), readHex_hexDigits]

/-- A line that begins with a number is not the rule. -/
lemma head_hexDigits (d : Word) (l : List Byte) : (hexDigits d ++ l).head? ≠ some 0x3D := by
  have hdigit : hexDigit d 28 ≠ 0x3D := (hexDigit_spec d 28).2.2.2
  simpa [hexDigits] using hdigit

lemma readSections_rule (ls : List (List Byte)) : readSections (ruleLine :: ls) = [] := by
  rw [readSections.eq_def]
  exact if_pos rfl

/-- A line of 20 characters that begins with a number. -/
lemma readSections_readable (d : Word) (l : List Byte) (hlen : l.length = 12)
    (ls : List (List Byte)) :
    readSections ((hexDigits d ++ l) :: ls)
      = (d, some (readHex ((l.drop 3).take 8))) :: readSections ls := by
  have hdrop : (hexDigits d ++ l).drop 11 = l.drop 3 := by
    rw [List.drop_append, List.drop_eq_nil_of_le (by rw [length_hexDigits]; omega)]
    rfl
  rw [readSections.eq_def]
  dsimp only
  rw [if_neg (head_hexDigits d l), if_pos (by rw [List.length_append, length_hexDigits, hlen]),
    readHex_take, hdrop]

/-- A longer line, and the line after it. -/
lemma readSections_aborted (d : Word) (l l' : List Byte) (hlen : 12 < l.length)
    (ls : List (List Byte)) :
    readSections ((hexDigits d ++ l) :: l' :: ls) = (d, none) :: readSections ls := by
  rw [readSections.eq_def]
  dsimp only
  rw [if_neg (head_hexDigits d l),
    if_neg (by rw [List.length_append, length_hexDigits]; omega), readHex_take]

/-- The reader gets back the section of some lines. -/
lemma readSections_sectionLines (address : Word) (ls : List (List Byte)) :
    readSections (sectionLines env address ++ ls)
      = (address, (env.load address).toOption) :: readSections ls := by
  have hcolon : (cstr ": ").length = 2 := rfl
  have habort : (cstr ": ABORT caused by").length = 17 := rfl
  cases hload : env.load address with
  | ok value =>
      have hline : sectionLines env address ++ ls
          = (hexDigits address ++ ([0x20] ++ cstr ": " ++ (hexDigits value ++ [0x20]))) :: ls := by
        simp [sectionLines, hload]
      have hvalue : (([0x20] ++ cstr ": " ++ (hexDigits value ++ [0x20])).drop 3).take 8
          = hexDigits value := by
        rw [List.drop_left' (by simp [hcolon]), List.take_left' (length_hexDigits value)]
      rw [hline, readSections_readable _ _ (by simp [length_hexDigits, hcolon]), hvalue,
        readHex_hexDigits]
      rfl
  | error status =>
      have hline : sectionLines env address ++ ls
          = (hexDigits address ++ ([0x20] ++ cstr ": " ++ abortLine address status))
            :: (hexDigits address ++ [0x20]) :: ls := by
        simp [sectionLines, hload]
      rw [hline, readSections_aborted]
      · rfl
      · simp only [abortLine, List.length_append, List.length_cons, List.length_nil,
          length_hexDigits, hcolon, habort]
        omega

lemma readSections_flatMap (addresses : List Word) (ls : List (List Byte)) :
    readSections (addresses.flatMap (sectionLines env) ++ ls)
      = addresses.map (fun a => (a, (env.load a).toOption)) ++ readSections ls := by
  induction addresses with
  | nil => rfl
  | cons address addresses ih =>
      rw [List.flatMap_cons, List.append_assoc, readSections_sectionLines, ih]
      rfl

/-- What is read from the report is what the sections hold. -/
lemma readReport_reportLines (env : Env) (addresses : List Word) :
    readReport (wire (unlines (reportLines env addresses)))
      = addresses.map fun a => (a, (env.load a).toOption) := by
  rw [readReport, readLines_wire (plain_reportLines addresses), reportLines, List.append_assoc,
    List.append_assoc, List.cons_append, List.cons_append, List.drop_succ_cons,
    List.drop_succ_cons, List.drop_zero, List.nil_append, readSections_flatMap, List.cons_append,
    readSections_rule, List.append_nil]

/-- **The report can be read back.**  On core 0, with `exp_lock` and `uart_lock` free, whatever each
section holds or whatever fault it raises: `output_access_policy` returns with the locks as they
were, and from the characters it has sent `readReport` gets every section, with its word if it can
be read and without one if the access aborts. -/
theorem access_policy_report (hfair : TransmitterDrains env) (hp : env.prid = 0)
    (hexp : s.held .expLock = false) (huart : s.held .uartLock = false) :
    ∃ s' out, Completes (exec env) [.outputAccessPolicy] s s' ∧ s'.held = s.held ∧
      s'.output = s.output ++ out ∧
      readReport out = sections.map fun a => (a, (env.load a).toOption) := by
  obtain ⟨reads, hcompletes⟩ := sends_outputAccessPolicy hfair hp hexp huart
  exact ⟨_, _, hcompletes, rfl, rfl, readReport_reportLines env sections⟩

/-- Only the first section can be read. -/
def firstSectionEnv : Env :=
  { readyEnv 0 true with load := fun a => if a = 0 then .ok 0x52C0DE else .error 0x5 }

/-- The report of a core that can read the first section only. -/
theorem access_policy_report_firstSection :
    ∃ s' out, Completes (exec firstSectionEnv) [.outputAccessPolicy] idle s' ∧
      s'.output = out ∧ (readReport out).head? = some (0, some 0x52C0DE) := by
  have hdrains : TransmitterDrains firstSectionEnv := readyEnv_drains 0 true
  obtain ⟨s', out, hcompletes, -, hout, hreport⟩ :=
    access_policy_report (s := idle) hdrains rfl rfl rfl
  exact ⟨s', out, hcompletes, hout, by rw [hreport]; rfl⟩

end Console

end Rpi2Baremetal
