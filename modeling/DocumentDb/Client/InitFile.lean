import DocumentDb.Lib.Arrays
import DocumentDb.Common.FileInfo

namespace DocumentDb.Client

open Program Arrays

section Reading

def bufSize : Nat := 65536

def countNewlines : List UInt8 → Int → Except Fault Int
  | [], counter => .ok counter
  | b :: buf, counter =>
    if b = 10 then
      if counter + 1 < 2 ^ 31 then countNewlines buf (counter + 1)
      else .error (.undefined "counter overflows")
    else countNewlines buf counter

/-- The loop of `count_lines`. A read that gives less than it was asked for has met the end of
the file. -/
def countLinesLoop : Nat → List UInt8 → Int → Except Fault Int
  | 0, _, _ => .error .diverges
  | fuel + 1, file, counter =>
    match countNewlines (file.take bufSize) counter with
    | .error e => .error e
    | .ok counter =>
      if file.length < bufSize then .ok counter
      else countLinesLoop fuel (file.drop bufSize) counter

def countLines (file : List UInt8) : Except Fault Int := countLinesLoop (file.length + 1) file 0

/-- The loop that stores lines. `strtok` gives no more tokens than there are bytes. -/
def storeLines : Nat → Option (List UInt8) × List UInt8 → Nat → EStateM Fault (Block (List UInt8)) Unit
  | 0, _, _ => throw .diverges
  | _ + 1, (none, _), _ => return ()
  | fuel + 1, (some line, rest), i => do
    modify fun lines => lines.write i line
    if 2 ^ 31 ≤ i + 1 then
      throw (.undefined "i overflows")
    storeLines fuel (strtok rest (bytesOf "\n")) (i + 1)

/-- The array of lines is the state, and the count is returned. `my_alloc` gives a block also
for no lines at all. -/
def readAndSplitByNewlineNodes (file : List UInt8) : EStateM Fault (Block (List UInt8)) Int := do
  let count ← lift (countLines file)
  set (Block.new count.toNat : Block (List UInt8))
  storeLines (file.length + 1) (strtok (cString file) (bytesOf "\n")) 0
  return count

end Reading

section Counting

variable {file : List UInt8} {counter : Int}

theorem countNewlines_eq (buf : List UInt8) (hcounter : counter < 2 ^ 31) :
    (counter + buf.count 10 < 2 ^ 31 → countNewlines buf counter = .ok (counter + buf.count 10)) ∧
      (2 ^ 31 ≤ counter + buf.count 10 → ∃ e, countNewlines buf counter = .error e) := by
  induction buf generalizing counter with
  | nil =>
      refine ⟨fun _ => by rw [countNewlines, List.count_nil, Nat.cast_zero, add_zero], fun hle => ?_⟩
      rw [List.count_nil] at hle
      omega
  | cons b buf ih =>
      rw [countNewlines]
      by_cases hb : b = 10
      · subst hb
        rw [if_pos rfl, List.count_cons_self, Nat.cast_add, Nat.cast_one]
        by_cases hlt : counter + 1 < 2 ^ 31
        · obtain ⟨hok, herror⟩ := ih hlt
          rw [if_pos hlt]
          exact ⟨fun h => by rw [hok (by omega)]; congr 1; omega, fun h => herror (by omega)⟩
        · rw [if_neg hlt]
          exact ⟨fun h => by omega, fun _ => ⟨_, rfl⟩⟩
      · rw [if_neg hb, List.count_cons_of_ne hb]
        exact ih hcounter

theorem countLinesLoop_eq {fuel : Nat} (hfuel : file.length < fuel) (hcounter : counter < 2 ^ 31) :
    (counter + file.count 10 < 2 ^ 31 → countLinesLoop fuel file counter = .ok (counter + file.count 10)) ∧
      (2 ^ 31 ≤ counter + file.count 10 → ∃ e, countLinesLoop fuel file counter = .error e) := by
  induction fuel generalizing file counter with
  | zero => omega
  | succ fuel ih =>
      obtain ⟨hok, herror⟩ := countNewlines_eq (file.take bufSize) hcounter
      have hsplit : file.count 10 = (file.take bufSize).count 10 + (file.drop bufSize).count 10 := by
        rw [← List.count_append, List.take_append_drop]
      rw [countLinesLoop, hsplit, Nat.cast_add, ← add_assoc]
      by_cases hlt : counter + (file.take bufSize).count 10 < 2 ^ 31
      · rw [hok hlt]
        dsimp only
        by_cases hend : file.length < bufSize
        · rw [if_pos hend, List.drop_of_length_le hend.le, List.count_nil, Nat.cast_zero, add_zero]
          exact ⟨fun _ => rfl, fun h => by omega⟩
        · rw [if_neg hend]
          have hpos : 0 < bufSize := by decide
          exact ih (by rw [List.length_drop]; omega) hlt
      · obtain ⟨e, he⟩ := herror (by omega)
        rw [he]
        exact ⟨fun h => by omega, fun _ => ⟨e, rfl⟩⟩

/-- The newlines of the whole file are counted, if an `int` can count them. -/
theorem countLines_eq_ok {count : Int} :
    countLines file = .ok count ↔ file.count 10 < 2 ^ 31 ∧ count = file.count 10 := by
  obtain ⟨hok, herror⟩ := countLinesLoop_eq (Nat.lt_succ_self file.length) (show (0 : Int) < 2 ^ 31 by decide)
  rw [countLines]
  rw [zero_add] at hok herror
  by_cases hlt : file.count 10 < 2 ^ 31
  · rw [hok (by exact_mod_cast hlt), Except.ok.injEq, and_iff_right hlt, eq_comm]
  · obtain ⟨e, he⟩ := herror (by exact_mod_cast Nat.le_of_not_lt hlt)
    rw [he]
    exact ⟨fun h => (by cases h), fun h => absurd h.1 hlt⟩

end Counting

section Lines

variable {text : List UInt8} {b : UInt8}

def nonEmptyLines (text : List UInt8) : List (List UInt8) := (text.splitOn 10).filter (· ≠ [])

theorem nonEmptyLines_append (text rest : List UInt8) :
    nonEmptyLines (text ++ 10 :: rest) = nonEmptyLines text ++ nonEmptyLines rest := by
  rw [nonEmptyLines, List.splitOn_append_cons_self, List.filter_append]
  rfl

theorem nonEmptyLines_nil : nonEmptyLines [] = [] := rfl

theorem nonEmptyLines_newline (text : List UInt8) : nonEmptyLines (10 :: text) = nonEmptyLines text :=
  nonEmptyLines_append [] text

theorem nonEmptyLines_line (hne : text ≠ []) (hline : 10 ∉ text) : nonEmptyLines text = [text] := by
  rw [nonEmptyLines, List.splitOn_eq_singleton hline]
  simp [hne]

theorem line_cases (hb : b ≠ 10) (bs : List UInt8) :
    ∃ line, line ≠ [] ∧ 10 ∉ line ∧ (b :: bs = line ∨ ∃ rest, b :: bs = line ++ 10 :: rest) := by
  induction bs generalizing b with
  | nil => exact ⟨[b], List.cons_ne_nil _ _, by simpa using hb.symm, Or.inl rfl⟩
  | cons c bs ih =>
      by_cases hc : c = 10
      · subst hc
        exact ⟨[b], List.cons_ne_nil _ _, by simpa using hb.symm, Or.inr ⟨bs, rfl⟩⟩
      · obtain ⟨line, _, hline, hrest⟩ := ih hc
        refine ⟨b :: line, List.cons_ne_nil _ _, ?_, ?_⟩
        · rw [List.mem_cons, not_or]
          exact ⟨hb.symm, hline⟩
        · rcases hrest with hall | ⟨rest, hrest⟩
          · exact Or.inl (by rw [hall])
          · exact Or.inr ⟨rest, by rw [hrest, List.cons_append]⟩

theorem strtok_lines (text : List UInt8) :
    (∃ rest, strtok text (bytesOf "\n") = (none, rest) ∧ nonEmptyLines text = []) ∨
    ∃ line rest, strtok text (bytesOf "\n") = (some line, rest) ∧
      nonEmptyLines text = line :: nonEmptyLines rest ∧ rest.length < text.length := by
  induction text with
  | nil => exact Or.inl ⟨[], rfl, rfl⟩
  | cons b bs ih =>
      by_cases hb : b = 10
      · subst hb
        have hskip : strtok (10 :: bs) (bytesOf "\n") = strtok bs (bytesOf "\n") := rfl
        rw [hskip, nonEmptyLines_newline]
        rcases ih with hnone | ⟨line, rest, hline, hlines, hlen⟩
        · exact Or.inl hnone
        · exact Or.inr ⟨line, rest, hline, hlines, hlen.trans (Nat.lt_succ_self _)⟩
      · obtain ⟨line, hne, hline, hrest⟩ := line_cases hb bs
        have htoken : ∀ c ∈ line, c ∉ bytesOf "\n" := by
          rintro c hc hnewline
          obtain rfl : c = 10 := List.mem_singleton.mp hnewline
          exact hline hc
        rcases hrest with hall | ⟨rest, hrest⟩
        · rw [hall]
          refine Or.inr ⟨line, [], strtok_last hne htoken, ?_, List.length_pos_iff.mpr hne⟩
          rw [nonEmptyLines_line hne hline, nonEmptyLines_nil]
        · rw [hrest]
          refine Or.inr ⟨line, rest, strtok_append hne htoken (by decide) rest, ?_, ?_⟩
          · rw [nonEmptyLines_append, nonEmptyLines_line hne hline, List.singleton_append]
          · rw [List.length_append, List.length_cons]
            omega

end Lines

section Storing

variable {text : List UInt8} {fuel i : Nat} {b : Block (List UInt8)}

theorem storeLines_ok {t : Block (List UInt8)} {u : Unit}
    (hrun : storeLines fuel (strtok text (bytesOf "\n")) i b = .ok u t) : t = b.fill i (nonEmptyLines text) := by
  induction fuel generalizing text i b with
  | zero => cases hrun
  | succ fuel ih =>
      rcases strtok_lines text with ⟨rest, hnone, hlines⟩ | ⟨line, rest, hline, hlines, _⟩
      · rw [hnone] at hrun
        cases hrun
        rw [hlines, Block.fill]
      · rw [hline, storeLines] at hrun
        simp only [run_bind, run_modify, andThen_ok] at hrun
        by_cases hover : 2 ^ 31 ≤ i + 1
        · rw [if_pos hover, run_bind, run_throw, andThen_error] at hrun
          cases hrun
        · rw [if_neg hover] at hrun
          rw [hlines, Block.fill]
          exact ih hrun

theorem storeLines_eq (hfuel : text.length < fuel) (hlines : i + (nonEmptyLines text).length < 2 ^ 31) :
    storeLines fuel (strtok text (bytesOf "\n")) i b = .ok () (b.fill i (nonEmptyLines text)) := by
  induction fuel generalizing text i b with
  | zero => omega
  | succ fuel ih =>
      rcases strtok_lines text with ⟨rest, hnone, hnil⟩ | ⟨line, rest, hline, hcons, hlen⟩
      · rw [hnone, hnil]
        rfl
      · rw [hcons, List.length_cons] at hlines
        rw [hline, storeLines, hcons, Block.fill]
        simp only [run_bind, run_modify, andThen_ok, if_neg (show ¬2 ^ 31 ≤ i + 1 by omega)]
        exact ih (by omega) (by omega)

end Storing

section Pieces

variable {file : List UInt8}

theorem length_splitOn (file : List UInt8) : (file.splitOn 10).length = file.count 10 + 1 := by
  induction file with
  | nil => rfl
  | cons b file ih =>
      rw [List.splitOn_cons_eq_if_modifyHead]
      by_cases hb : b = 10
      · subst hb
        rw [if_pos (by decide), List.length_cons, ih, List.count_cons_self]
      · rw [if_neg (by simpa using hb), List.length_modifyHead, ih, List.count_cons_of_ne hb]

theorem length_nonEmptyLines (file : List UInt8) :
    (nonEmptyLines file).length + (file.splitOn 10).count [] = file.count 10 + 1 := by
  rw [← length_splitOn, nonEmptyLines]
  induction file.splitOn 10 with
  | nil => rfl
  | cons piece pieces ih =>
      by_cases hpiece : piece = []
      · rw [hpiece, List.filter_cons_of_neg (by simp), List.count_cons_self, List.length_cons]
        omega
      · rw [List.filter_cons_of_pos (by simpa using hpiece), List.count_cons_of_ne hpiece, List.length_cons,
          List.length_cons]
        omega

/-- The lines consist of the bytes that are no newlines. -/
theorem flatten_nonEmptyLines (file : List UInt8) : (nonEmptyLines file).flatten = file.filter (· ≠ 10) := by
  rw [nonEmptyLines, List.flatten_filter_ne_nil]
  induction file with
  | nil => rfl
  | cons b file ih =>
      rw [List.splitOn_cons_eq_if_modifyHead]
      by_cases hb : b = 10
      · rw [if_pos (by simpa using hb), List.flatten_cons, List.nil_append, ih,
          List.filter_cons_of_neg (by simpa using hb)]
      · rw [if_neg (by simpa using hb), List.filter_cons_of_pos (by simpa using hb), ← ih]
        cases hpieces : file.splitOn 10 with
        | nil => exact absurd hpieces (List.splitOn_ne_nil 10 file)
        | cons piece pieces => rfl

theorem exists_line_iff {b : UInt8} (hb : b ≠ 10) : (∃ line ∈ nonEmptyLines file, b ∈ line) ↔ b ∈ file := by
  rw [← List.mem_flatten, flatten_nonEmptyLines, List.mem_filter]
  simp [hb]

end Pieces

section Result

variable {file : List UInt8}

/-- The call returns the number of the lines that are not empty, the lines up to that number
are these, and nothing is stored behind the array. -/
def ReadsLines (file : List UInt8) : Prop :=
  ∃ count lines, readAndSplitByNewlineNodes file (.new 0) = .ok count lines ∧ lines.Within ∧
    count = (nonEmptyLines file).length ∧
    ∀ i : Nat, i < count → lines.get? i = (nonEmptyLines file)[i]?

theorem readAndSplit_ok {count : Int} {lines : Block (List UInt8)}
    (hrun : readAndSplitByNewlineNodes file (.new 0) = .ok count lines) :
    file.count 10 < 2 ^ 31 ∧ count = file.count 10 ∧
      lines = (Block.new (file.count 10)).fill 0 (nonEmptyLines (cString file)) := by
  rw [readAndSplitByNewlineNodes] at hrun
  obtain ⟨counted, s, hlift, hrest⟩ := bind_eq_ok.mp hrun
  obtain ⟨hcount, rfl⟩ := lift_eq_ok.mp hlift
  obtain ⟨hlt, rfl⟩ := countLines_eq_ok.mp hcount
  simp only [run_bind, run_set, andThen_ok] at hrest
  rw [← run_bind] at hrest
  obtain ⟨_, t, hstore, hpure⟩ := bind_eq_ok.mp hrest
  cases hpure
  refine ⟨hlt, rfl, ?_⟩
  rw [storeLines_ok hstore, Int.toNat_natCast]

/-- The lines of a file are read when no byte is zero, an `int` can count the newlines, and
exactly one of the pieces between them is empty, which is the last one if there are no empty
lines and the file ends with a newline. -/
theorem readsLines_iff (file : List UInt8) :
    ReadsLines file ↔ 0 ∉ file ∧ file.count 10 < 2 ^ 31 ∧ (file.splitOn 10).count [] = 1 := by
  have hlength := length_nonEmptyLines file
  constructor
  · rintro ⟨count, lines, hrun, _, hcount, hlines⟩
    obtain ⟨hlt, rfl, rfl⟩ := readAndSplit_ok hrun
    refine ⟨fun hzero => ?_, hlt, by omega⟩
    have hnewline : (0 : UInt8) ≠ 10 := by decide
    obtain ⟨line, hline, hmem⟩ := (exists_line_iff hnewline).mpr hzero
    obtain ⟨i, hi, rfl⟩ := List.getElem_of_mem hline
    have hentry := hlines i (by omega)
    rw [get?_fill_new, List.getElem?_eq_getElem hi] at hentry
    exact zero_notMem_cString file ((exists_line_iff hnewline).mp ⟨_, List.mem_of_getElem? hentry, hmem⟩)
  · rintro ⟨hzero, hlt, hone⟩
    refine ⟨file.count 10, (Block.new (file.count 10)).fill 0 (nonEmptyLines file), ?_, ?_, by omega, ?_⟩
    · rw [readAndSplitByNewlineNodes, countLines_eq_ok.mpr ⟨hlt, rfl⟩, cString_eq_self hzero]
      simp only [run_bind, run_lift_ok, andThen_ok, run_set, Int.toNat_natCast]
      rw [storeLines_eq (Nat.lt_succ_self _) (by omega)]
      rfl
    · rw [within_fill_iff, size_new]
      exact ⟨within_new _, fun _ => by omega⟩
    · intro i _
      rw [get?_fill_new]

/-- A file with one line and no newline. -/
theorem readsLines_without_newline : ¬ReadsLines (bytesOf "0 -1 root") := by
  rw [readsLines_iff]
  decide

end Result

end DocumentDb.Client
