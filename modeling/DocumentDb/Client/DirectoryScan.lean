import DocumentDb.Client.Filling
import DocumentDb.Client.InitFile
import DocumentDb.Lib.Trees
import Mathlib.Data.Nat.Digits.Lemmas

namespace DocumentDb.Client

open Program Server Trees

section Scanning

/-- What the operating system says of an entry of a folder: the last part of its path, the
time of its last access as it is printed, and the type that is guessed from its path. -/
structure DirEntry where
  basename : List UInt8
  accessTime : List UInt8
  mimetype : Option (List UInt8)

/-- What `os.scandir` gives for a folder. A folder also ends at an entry that may not be
read. -/
inductive Scan
  | done
  | file (entry : DirEntry) (rest : Scan)
  | folder (entry : DirEntry) (inside rest : Scan)

structure EntryInfo where
  name : List UInt8
  owner : List UInt8
  accessTime : List UInt8
  mimetype : List UInt8

def getEntryInfo (login : List UInt8) (entry : DirEntry) : EntryInfo :=
  let mimetype := (entry.mimetype.filter (· ≠ [])).getD (bytesOf "inode/directory")
  { name := if entry.basename = [] then bytesOf "root" else entry.basename
    owner := login
    accessTime := entry.accessTime
    mimetype := mimetype.map fun b => if b = 47 then 46 else b }

/-- An assignment to a key of a dictionary, which keeps the order of its keys. -/
def setItem {ρ : Type} (dict : List (Nat × ρ)) (key : Nat) (value : ρ) : List (Nat × ρ) :=
  if dict.any (·.1 = key) then dict.map fun item => if item.1 = key then (key, value) else item
  else dict ++ [(key, value)]

structure ScanState where
  filesInfo : List (Nat × Row EntryInfo)
  ids : Nat

def ScanState.addEntry (self : ScanState) (parentId : Int) (info : EntryInfo) : ScanState :=
  { filesInfo := setItem self.filesInfo self.ids ⟨self.ids, parentId, info⟩
    ids := self.ids + 1 }

def processFolder (login : List UInt8) : Int → Scan → ScanState → ScanState
  | _, .done, state => state
  | parentId, .file entry rest, state =>
    processFolder login parentId rest (state.addEntry parentId (getEntryInfo login entry))
  | parentId, .folder entry inside rest, state =>
    let state := state.addEntry parentId (getEntryInfo login entry)
    processFolder login parentId rest (processFolder login (state.ids - 1 : Nat) inside state)

def getFileInfo (login : List UInt8) (path : DirEntry) (scan : Scan) : List (Nat × Row EntryInfo) :=
  (processFolder login 0 scan (ScanState.addEntry ⟨[], 0⟩ (-1) (getEntryInfo login path))).filesInfo

/-- The digits of a number, `str`. -/
def decimal (n : Nat) : List UInt8 :=
  if n = 0 then [48] else (Nat.digits 10 n).reverse.map fun d => 48 + d.toUInt8

def intText : Int → List UInt8
  | .ofNat n => decimal n
  | .negSucc n => 45 :: decimal (n + 1)

def EntryInfo.text (info : EntryInfo) : List UInt8 :=
  info.name ++ 32 :: (info.owner ++ 32 :: (info.accessTime ++ 32 :: info.mimetype))

def rowText (row : Row EntryInfo) : List UInt8 :=
  intText row.id ++ 32 :: (intText row.parentId ++ 32 :: row.label.text)

def initFile (login : List UInt8) (path : DirEntry) (scan : Scan) : List UInt8 :=
  (getFileInfo login path scan).flatMap fun item => rowText item.2 ++ bytesOf "\n"

end Scanning

section Numbers

variable {n : Nat} {z : Int}

def magnitude (digits : List UInt8) : Nat := digits.foldl (fun n b => 10 * n + (b - 48).toNat) 0

theorem isDigit_digit {d : Nat} (hd : d < 10) : isDigit (48 + d.toUInt8) = true ∧ (48 + d.toUInt8 - 48).toNat = d := by
  interval_cases d <;> decide

theorem isDigit_decimal (n : Nat) : ∀ b ∈ decimal n, isDigit b = true := by
  intro b hb
  rw [decimal] at hb
  split at hb
  · obtain rfl := List.mem_singleton.mp hb
    decide
  · obtain ⟨d, hd, rfl⟩ := List.mem_map.mp hb
    exact (isDigit_digit (Nat.digits_lt_base (by decide) (List.mem_reverse.mp hd))).1

theorem decimal_ne_nil (n : Nat) : decimal n ≠ [] := by
  rw [decimal]
  split
  · exact List.cons_ne_nil _ _
  · rename_i hn
    have hdigits : Nat.digits 10 n ≠ [] := Nat.digits_ne_nil_iff_ne_zero.mpr hn
    simpa using hdigits

theorem magnitude_decimal (n : Nat) : magnitude (decimal n) = n := by
  rw [decimal]
  split
  · rename_i hn
    rw [hn]
    rfl
  · have hfold : ∀ digits : List Nat, (∀ d ∈ digits, d < 10) →
        magnitude (digits.reverse.map fun d => 48 + d.toUInt8) = Nat.ofDigits 10 digits := by
      intro digits hdigits
      induction digits with
      | nil => rfl
      | cons d digits ih =>
          obtain ⟨hd, hrest⟩ := List.forall_mem_cons.mp hdigits
          rw [Nat.ofDigits_cons, ← ih hrest, magnitude, magnitude, List.reverse_cons, List.map_append,
            List.foldl_append]
          simp only [List.map_cons, List.map_nil, List.foldl_cons, List.foldl_nil, (isDigit_digit hd).2]
          omega
    rw [hfold _ fun d hd => Nat.digits_lt_base (by decide) hd, Nat.ofDigits_digits]

theorem atoi_digits {digits : List UInt8} (hne : digits ≠ []) (hdigits : ∀ b ∈ digits, isDigit b = true)
    (hlt : magnitude digits < 2 ^ 31) : atoi digits = .ok (magnitude digits) := by
  have hzero : 0 ∉ digits := fun hmem => absurd (hdigits 0 hmem) (by decide)
  obtain ⟨b, bs, rfl⟩ := List.exists_cons_of_ne_nil hne
  have hb := hdigits b List.mem_cons_self
  have hrange : 48 ≤ b ∧ b ≤ 57 := by simpa [isDigit] using hb
  have hblank : (b == 32 || (9 ≤ b && b ≤ 13)) = false := by
    rw [Bool.or_eq_false_iff, beq_eq_false_iff_ne, Bool.and_eq_false_iff]
    refine ⟨?_, Or.inr ?_⟩
    · rintro rfl
      exact absurd hb (by decide)
    · rw [decide_eq_false_iff_not]
      intro hle
      exact absurd (UInt8.le_trans hrange.1 hle) (by decide)
  have hminus : ¬some b = some 45 := by
    rintro ⟨⟩
    exact absurd hb (by decide)
  have hplus : ¬some b = some 43 := by
    rintro ⟨⟩
    exact absurd hb (by decide)
  rw [atoi, cString_eq_self hzero, List.dropWhile_cons_of_neg (by rw [hblank]; decide)]
  simp only [List.head?_cons, hminus, hplus, or_self, if_false]
  rw [List.takeWhile_eq_self_iff.mpr hdigits]
  change (if -2 ^ 31 ≤ (magnitude (b :: bs) : Int) ∧ (magnitude (b :: bs) : Int) < 2 ^ 31 then _ else _) = _
  rw [if_pos ⟨by omega, by exact_mod_cast hlt⟩]
  rfl

theorem atoi_decimal (hn : n < 2 ^ 31) : atoi (decimal n) = .ok n := by
  have hatoi := atoi_digits (decimal_ne_nil n) (isDigit_decimal n) (by rwa [magnitude_decimal])
  rwa [magnitude_decimal] at hatoi

theorem intText_bytes (z : Int) : ∀ b ∈ intText z, isDigit b = true ∨ b = 45 := by
  intro b hb
  cases z with
  | ofNat n => exact Or.inl (isDigit_decimal n b hb)
  | negSucc n =>
      rcases List.mem_cons.mp hb with rfl | hb
      · exact Or.inr rfl
      · exact Or.inl (isDigit_decimal (n + 1) b hb)

theorem isField_intText (z : Int) : IsField (intText z) := by
  refine ⟨?_, ?_, ?_⟩
  · cases z with
    | ofNat n => exact decimal_ne_nil n
    | negSucc n => exact List.cons_ne_nil _ _
  · intro hmem
    rcases intText_bytes z _ hmem with h | h
    · exact absurd h (by decide)
    · cases h
  · intro hmem
    rcases intText_bytes z _ hmem with h | h
    · exact absurd h (by decide)
    · cases h

theorem atoi_intText (hz : -1 ≤ z) (hlt : z < 2 ^ 31) : atoi (intText z) = .ok z := by
  rcases Int.lt_or_le z 0 with hneg | hpos
  · obtain rfl : z = -1 := by omega
    decide
  · obtain ⟨n, rfl⟩ := Int.eq_ofNat_of_zero_le hpos
    exact atoi_decimal (by exact_mod_cast hlt)

end Numbers

section Rows

variable {login : List UInt8} {path : DirEntry} {scan : Scan} {state : ScanState} {parentId : Int}

def Scan.trees (login : List UInt8) : Scan → Trees EntryInfo
  | .done => .nil
  | .file entry rest => .node (getEntryInfo login entry) .nil (rest.trees login)
  | .folder entry inside rest => .node (getEntryInfo login entry) (inside.trees login) (rest.trees login)

def directoryTree (login : List UInt8) (path : DirEntry) (scan : Scan) : Trees EntryInfo :=
  .node (getEntryInfo login path) (scan.trees login) .nil

/-- The keys of the dictionary are the numbers from 0 on, and the next one is not used yet. -/
structure ScanState.Counts (state : ScanState) : Prop where
  ids : state.ids = state.filesInfo.length
  keys : ∀ item ∈ state.filesInfo, item.1 < state.ids

theorem ScanState.Counts.addEntry_eq (h : state.Counts) (parentId : Int) (info : EntryInfo) :
    state.addEntry parentId info =
      ⟨state.filesInfo ++ [(state.ids, ⟨state.ids, parentId, info⟩)], state.ids + 1⟩ := by
  have hfresh : state.filesInfo.any (·.1 = state.ids) = false := by
    rw [List.any_eq_false]
    intro item hitem
    simpa using (h.keys item hitem).ne
  rw [addEntry, setItem, hfresh]
  rfl

theorem ScanState.Counts.addEntry (h : state.Counts) (parentId : Int) (info : EntryInfo) :
    (state.addEntry parentId info).Counts := by
  rw [h.addEntry_eq]
  refine ⟨?_, fun item hitem => ?_⟩
  · rw [List.length_append, List.length_singleton, ← h.ids]
  · rcases List.mem_append.mp hitem with hitem | hitem
    · exact Nat.lt_succ_of_lt (h.keys item hitem)
    · obtain rfl := List.mem_singleton.mp hitem
      exact Nat.lt_succ_self _

theorem processFolder_rows (h : state.Counts) (login : List UInt8) (parentId : Int) (scan : Scan) :
    (processFolder login parentId scan state).Counts ∧
      (processFolder login parentId scan state).ids = state.ids + (scan.trees login).toList.length ∧
      (processFolder login parentId scan state).filesInfo.map Prod.snd =
        state.filesInfo.map Prod.snd ++ ((scan.trees login).number parentId state.ids).toList := by
  induction scan generalizing parentId state with
  | done => exact ⟨h, rfl, by rw [processFolder, Scan.trees, number, toList, List.append_nil]⟩
  | file entry rest ih =>
      obtain ⟨hcounts, hids, hrows⟩ := ih (h.addEntry parentId (getEntryInfo login entry)) parentId
      rw [h.addEntry_eq] at hcounts hids hrows
      rw [processFolder, h.addEntry_eq]
      refine ⟨hcounts, ?_, ?_⟩
      · rw [hids, Scan.trees, toList, toList, List.length_cons, List.nil_append]
        dsimp only
        omega
      · rw [hrows, Scan.trees, number, toList, number, toList, List.map_append, List.append_assoc]
        rfl
  | folder entry inside rest ihInside ihRest =>
      have hentry := h.addEntry parentId (getEntryInfo login entry)
      obtain ⟨hcounts, hids, hrows⟩ :=
        ihInside hentry ((state.addEntry parentId (getEntryInfo login entry)).ids - 1 : Nat)
      obtain ⟨hcounts', hids', hrows'⟩ := ihRest hcounts parentId
      rw [processFolder]
      refine ⟨hcounts', ?_, ?_⟩
      · rw [hids', hids, h.addEntry_eq, Scan.trees, toList, List.length_cons, List.length_append]
        dsimp only
        omega
      · rw [hrows', hrows, hids, h.addEntry_eq, Scan.trees, number, toList, List.map_append, List.append_assoc,
          List.append_assoc]
        rfl

theorem getFileInfo_rows (login : List UInt8) (path : DirEntry) (scan : Scan) :
    (getFileInfo login path scan).map Prod.snd = ((directoryTree login path scan).number (-1) 0).toList := by
  have hempty : (⟨[], 0⟩ : ScanState).Counts := ⟨rfl, List.forall_mem_nil _⟩
  obtain ⟨_, _, hrows⟩ := processFolder_rows (hempty.addEntry (-1) (getEntryInfo login path)) login 0 scan
  rw [getFileInfo, hrows, hempty.addEntry_eq, directoryTree, number, toList, number, toList, List.append_nil]
  rfl

end Rows

end DocumentDb.Client
