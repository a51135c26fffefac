import DocumentDb.Storage.FileDevice
import DocumentDb.Storage.Opening
import DocumentDb.Storage.Writes

namespace DocumentDb.Storage

open Bytes Program

variable {signature : Int} {bytes : List UInt8} {faults : Nat → Option IoFault} {pageSize : Nat}

def headerOf (bytes : List UInt8) : FileHeader := decodeFileHeader (slice bytes 0 sizeofFileHeader)

/-- The pages of the file have room for their headers. Otherwise `page_new` writes behind the end of its block. -/
def RoomForHeader (header : FileHeader) : Prop := sizeofPageHeader ≤ header.constants.pageSize

/-- What is found in a file that is opened without a write: the header of another program, or one that
counts pages. -/
def Foreign (signature : Int) (header : FileHeader) : Prop :=
  header.constants.signature ≠ signature ∨ (header.dynamic.pageCount ≠ 0 ∧ RoomForHeader header)

section Header

variable (faults) (constants : FileHeaderConstants)

def headerRead (faults : Nat → Option IoFault) (bytes : List UInt8) (header : FileHeader) : FileManager where
  file := { fileOpen (some bytes) faults with accesses := 1 }
  header := header

theorem readHeader_existing (hlen : sizeofFileHeader ≤ bytes.length) :
    ∃ res header, fileManagerReadHeader (pageManagerNew (fileOpen (some bytes) faults)).fileManager =
        .ok res (headerRead faults bytes header) ∧
      (res = .ok () ↔ faults 0 = none) ∧ (res = .ok () → header = headerOf bytes) := by
  let blank : List UInt8 := encodeFileHeader ⟨⟨0, 0⟩, ⟨0, 0, 0⟩⟩
  have hblank : blank.length = sizeofFileHeader := Disk.length_encodeFileHeader _
  have hopen : (fileOpen (some bytes) faults).isOpen = true := rfl
  have hrun {res : Result Unit} {data : List UInt8} (hread : fileRead blank 0 (fileOpen (some bytes) faults) =
      .ok (res, data) { fileOpen (some bytes) faults with accesses := 1 }) :
      fileManagerReadHeader (pageManagerNew (fileOpen (some bytes) faults)).fileManager =
        .ok res (headerRead faults bytes (decodeFileHeader data)) := by
    rw [fileManagerReadHeader, pageManagerNew]
    simp only [run_bind, run_get, andThen_ok]
    rw [run_onFile hread]
    rfl
  cases hfault : faults 0 with
  | some fault =>
      obtain ⟨message, data, hread⟩ :=
        fileRead_faulty blank 0 hopen (show (fileOpen (some bytes) faults).faults _ = _ from hfault)
      exact ⟨_, _, hrun hread, by simp, by simp⟩
  | none =>
      have hread := fileRead_served blank 0 hopen (show (fileOpen (some bytes) faults).faults _ = _ from hfault)
      have hslice : (slice bytes 0 blank.length).length = blank.length := by
        apply length_slice_of_le
        rw [Nat.zero_add, hblank]
        exact hlen
      rw [readOutcome, if_neg (by decide), if_neg] at hread
      · exact ⟨_, _, hrun hread, by simp, fun _ => by rw [headerOf, hblank]; rfl⟩
      · change ¬(blank.length = 0 ∨ (slice bytes 0 blank.length).length < blank.length)
        rw [hslice, hblank]
        decide

theorem fileManagerInit_read (hsize : sizeofFileHeader ≤ toUInt32 bytes.length) :
    ∃ res header, fileManagerInit constants (pageManagerNew (fileOpen (some bytes) faults)).fileManager =
        .ok res (headerRead faults bytes header) ∧
      (res = .ok () → header = headerOf bytes) ∧
      (res = .ok () ↔ faults 0 = none ∧ (headerOf bytes).constants.signature = constants.signature) := by
  have hlen : sizeofFileHeader ≤ bytes.length := by
    rw [toUInt32] at hsize
    omega
  obtain ⟨res, header, hread, hserved, hheader⟩ := readHeader_existing faults hlen
  have hone : (pageManagerNew (fileOpen (some bytes) faults)).fileManager.file.size ≠ 1 := by
    change toUInt32 (bytes.length : Int) ≠ 1
    rw [sizeofFileHeader] at hsize
    omega
  have hold : ¬((pageManagerNew (fileOpen (some bytes) faults)).fileManager.file.isNew = true ∨
      (pageManagerNew (fileOpen (some bytes) faults)).fileManager.file.size < sizeofFileHeader) := by
    rintro (hnew | hsmall)
    · cases hnew
    · exact absurd hsize (Nat.not_le_of_lt hsmall)
  rw [fileManagerInit]
  simp only [run_bind, run_get, andThen_ok, if_neg hone, if_neg hold, hread, run_pure]
  cases res with
  | error message => exact ⟨_, header, rfl, by simp, by simp [← hserved]⟩
  | ok u =>
      have hserved := hserved.mp rfl
      rw [hheader rfl]
      simp only [returnIfFail, Except.mapError, run_bind, run_get, andThen_ok, run_ite, headerRead]
      by_cases hsignature : (headerOf bytes).constants.signature = constants.signature
      · rw [if_neg (not_not_intro hsignature)]
        exact ⟨_, _, rfl, fun _ => rfl, by simp [hserved, hsignature]⟩
      · rw [if_pos hsignature]
        exact ⟨_, _, rfl, fun _ => rfl, by simp [hsignature]⟩

/-- A file that is too short for a header gets one. -/
theorem fileManagerInit_short (hsize : toUInt32 bytes.length < sizeofFileHeader) :
    ∃ fm, fileManagerInit constants (pageManagerNew (fileOpen (some bytes) noFaults)).fileManager =
        .ok (.ok ()) fm ∧
      sizeofFileHeader ≤ fm.file.content.length := by
  have hwrite (fs : FileState) (hopen : fs.isOpen = true) (hserved : fs.faults fs.accesses = none) :
      ∃ fm, fileManagerWriteHeader ⟨fs, ⟨constants, ⟨sizeofFileHeader, 0, 0⟩⟩⟩ = .ok (.ok ()) fm ∧
        fm.header.constants = constants ∧ sizeofFileHeader ≤ fm.file.content.length := by
    obtain ⟨res, hrun, hres⟩ :=
      fileManagerWriteHeader_outcome ⟨fs, ⟨constants, ⟨sizeofFileHeader, 0, 0⟩⟩⟩ hopen
    rw [hres.mpr (not_reported hserved)] at hrun
    refine ⟨_, hrun, rfl, ?_⟩
    rw [FileManager.headerWritten, FileState.written, hserved]
    change sizeofFileHeader ≤ (patch fs.content 0 _).length
    rw [length_patch, Disk.length_encodeFileHeader, Nat.zero_add]
    exact Nat.le_max_right _ _
  have hold : (fileOpen (some bytes) noFaults).isNew = true ∨
      (fileOpen (some bytes) noFaults).size < sizeofFileHeader := .inr hsize
  rw [fileManagerInit, pageManagerNew]
  by_cases hone : (fileOpen (some bytes) noFaults).size = 1
  · obtain ⟨fm, hrun, hconstants, hlen⟩ := hwrite { fileOpen (some bytes) noFaults with accesses := 1 } rfl rfl
    have hread : onFile (fileRead [0] 0) ⟨fileOpen (some bytes) noFaults, ⟨⟨0, 0⟩, ⟨0, 0, 0⟩⟩⟩ =
        .ok _ ⟨{ fileOpen (some bytes) noFaults with accesses := 1 }, ⟨⟨0, 0⟩, ⟨0, 0, 0⟩⟩⟩ :=
      run_onFile (fileRead_served [0] 0 rfl rfl)
    refine ⟨fm, ?_, hlen⟩
    simp only [run_bind, run_get, andThen_ok, if_pos hone, hread, if_pos hold, run_modify, hrun, run_pure, returnIfFail,
      Except.mapError, hconstants, ne_eq, not_true_eq_false, if_false]
  · obtain ⟨fm, hrun, hconstants, hlen⟩ := hwrite (fileOpen (some bytes) noFaults) rfl rfl
    refine ⟨fm, ?_, hlen⟩
    simp only [run_bind, run_get, andThen_ok, if_neg hone, if_pos hold, run_modify, hrun, run_pure, returnIfFail,
      Except.mapError, hconstants, ne_eq, not_true_eq_false, if_false]

end Header

section Pages

variable {self : PageManager}

def keepFreePage (currentFreePage : Option PageAddr) : PageManagerM (Result Unit) := do
  if currentFreePage = none then
    throw (.assertion "current_free_page != NULL")
  modify fun self => { self with currentFreePage := currentFreePage }
  return .ok ()

def initPages : PageManagerM (Result Unit) := do
  let self ← get
  if pageManagerGetPagesCount self = 0 then
    let (_, page) ← pageManagerPageNew
    keepFreePage (some page)
  else
    match ← pageManagerReadPage self.fileManager.header.dynamic.currentFreePage with
    | .ok page => keepFreePage (some page)
    | .error _ => keepFreePage none

theorem drives_keepFreePage {R : List UInt8 → List UInt8 → Prop} [Std.Refl R] [IsTrans (List UInt8) R]
    (currentFreePage : Option PageAddr) : Driven R (keepFreePage currentFreePage) := by
  apply Device.Drives.ite
  · exact Device.Drives.throw_bind _
  apply Device.Drives.bind
  · exact drives_memory (fun _ => rfl) fun _ _ => rfl
  · exact fun _ => Device.Drives.pure _

theorem pageManagerInit_eq (pageSize : Nat) (signature : Int) :
    pageManagerInit pageSize signature = (do
      match ← onFileManager (fileManagerInit ⟨signature, toUInt32 pageSize⟩) with
      | .error _ => return .error "Failed to read file header"
      | .ok () => initPages) := (rfl)

theorem initPages_reads (h : pageManagerGetPagesCount self ≠ 0) :
    (final (initPages self)).fileManager.file.content = self.fileManager.file.content := by
  rw [initPages, run_get_bind, if_neg h]
  refine Eq.symm ((Device.Drives.bind (drives_readPage _) fun res => ?_ : Driven Eq _).leads self).onward
  cases res with
  | error message => exact drives_keepFreePage none
  | ok page => exact drives_keepFreePage (some page)

theorem initPages_counted (hopen : self.fileManager.file.isOpen = true)
    (hserved : self.fileManager.file.faults self.fileManager.file.accesses = none)
    (hlen : sizeofFileHeader ≤ self.fileManager.file.content.length) (hcount : pageManagerGetPagesCount self = 0)
    (hsize : sizeofPageHeader ≤ pageManagerGetPageSize self) :
    (headerOf (final (initPages self)).fileManager.file.content).dynamic.pageCount = 1 := by
  obtain ⟨res, hnew, _⟩ := pageManagerPageNew_outcome hopen hsize
  have hfinal : (final (initPages self)).fileManager.file.content = self.withPageNew.fileManager.file.content := by
    rw [initPages, run_get_bind, if_pos hcount]
    rw [run_bind, hnew, andThen_ok]
    exact Eq.symm ((drives_keepFreePage (R := Eq) _).leads self.withPageNew).onward
  have hfirst : nextPageId self = 0 := by
    rw [nextPageId, pageManagerGetLastPageId, hcount]
    simp [toInt32]
  have hraised : CountStored self.raised.fileManager := countStored_headerWritten hserved
  have hstored : CountStored self.withPageNew.fileManager := by
    rw [PageManager.withPageNew, if_neg (not_reported hserved)]
    apply hraised.written
    · rw [hfirst, pageManagerGetPageOffset, zero_mul, add_zero]
      simp [sizeofFileHeader, toUInt32]
    · have hsame : self.raised.fileManager.file.content.length = self.fileManager.file.content.length :=
        length_headerWritten hlen
      rw [hsame]
      exact hlen
  have hone : pageManagerGetPagesCount self.withPageNew = 1 := by
    rw [PageManager.withPageNew, if_neg (not_reported hserved), pagesCount_pageWritten]
    change toUInt32 ((pageManagerGetPagesCount self : Int) + 1) = 1
    rw [hcount]
    simp [toUInt32]
  rw [hfinal, ← hone]
  exact hstored.headerOnDisk (by rw [hone]; decide)

end Pages

section Opening

def LeftAlone (signature : Int) (bytes : List UInt8) : Prop :=
  sizeofFileHeader ≤ toUInt32 bytes.length ∧ Foreign signature (headerOf bytes)

/-- Whatever accesses fail, and whatever comes behind the header. -/
theorem pageManagerInit_leaves (h : LeftAlone signature bytes) (faults : Nat → Option IoFault) (pageSize : Nat) :
    (final (pageManagerInit pageSize signature
      (pageManagerNew (fileOpen (some bytes) faults)))).fileManager.file.content = bytes := by
  obtain ⟨hsize, hforeign⟩ := h
  obtain ⟨res, header, hinit, hheader, hres⟩ := fileManagerInit_read faults ⟨signature, toUInt32 pageSize⟩ hsize
  rw [pageManagerInit_eq, run_bind, run_onFileManager hinit, andThen_ok]
  cases res with
  | error message => rfl
  | ok u =>
      obtain ⟨_, hsignature⟩ := hres.mp rfl
      refine initPages_reads ?_
      change header.dynamic.pageCount ≠ 0
      rw [hheader rfl]
      exact (hforeign.resolve_left (not_not_intro hsignature)).1

theorem drives_initPages : Driven Longer initPages := by
  apply Device.Drives.get
  · intro p self
    rfl
  intro self
  apply Device.Drives.ite
  · apply drives_pageNew.bind
    rintro ⟨res, page⟩
    exact drives_keepFreePage (some page)
  · apply (drives_readPage _).bind
    rintro (message | page)
    · exact drives_keepFreePage none
    · exact drives_keepFreePage (some page)

def RoomInFile (signature : Int) (bytes : List UInt8) : Prop :=
  sizeofFileHeader ≤ bytes.length → (headerOf bytes).constants.signature = signature → RoomForHeader (headerOf bytes)

/-- Any other file gets a header or a first page. -/
theorem pageManagerInit_changes (hlen : bytes.length < 2 ^ 32) (hroom : RoomInFile signature bytes)
    (h : ¬LeftAlone signature bytes) (pageSize : Nat) :
    (final (pageManagerInit pageSize signature
      (pageManagerNew (fileOpen (some bytes) noFaults)))).fileManager.file.content ≠ bytes := by
  intro hsame
  have hsize : toUInt32 bytes.length = bytes.length := toUInt32_of_lt hlen
  rw [pageManagerInit_eq, run_bind] at hsame
  by_cases hshort : toUInt32 bytes.length < sizeofFileHeader
  · obtain ⟨fm, hinit, hheader⟩ := fileManagerInit_short ⟨signature, toUInt32 pageSize⟩ hshort
    rw [run_onFileManager hinit, andThen_ok] at hsame
    let opened : PageManager := { pageManagerNew (fileOpen (some bytes) noFaults) with fileManager := fm }
    have hlonger := (drives_initPages.leads opened).onward
    have hle : sizeofFileHeader ≤ bytes.length := by
      rw [← hsame]
      exact Nat.le_trans hheader hlonger
    omega
  · have hlong := Nat.le_of_not_lt hshort
    have hforeign : ¬Foreign signature (headerOf bytes) := fun hforeign => h ⟨hlong, hforeign⟩
    rw [Foreign, not_or, not_not] at hforeign
    obtain ⟨hsignature, hpages⟩ := hforeign
    have hpage := hroom (hsize ▸ hlong) hsignature
    have hcount : (headerOf bytes).dynamic.pageCount = 0 := by
      by_contra hcount
      exact hpages ⟨hcount, hpage⟩
    obtain ⟨res, header, hinit, hheader, hres⟩ :=
      fileManagerInit_read noFaults ⟨signature, toUInt32 pageSize⟩ hlong
    rw [hres.mpr ⟨rfl, hsignature⟩] at hinit hheader
    rw [run_onFileManager hinit, andThen_ok, hheader rfl] at hsame
    let opened : PageManager := { pageManagerNew (fileOpen (some bytes) noFaults) with
      fileManager := headerRead noFaults bytes (headerOf bytes) }
    have hone : (headerOf (final (initPages opened)).fileManager.file.content).dynamic.pageCount = 1 :=
      initPages_counted rfl rfl (hsize ▸ hlong) hcount hpage
    rw [hsame, hcount] at hone
    cases hone

theorem Settled.leftAlone {disk : Disk} (h : Settled disk) : LeftAlone signature disk.bytes := by
  have hlen := disk.length_bytes
  have hsmall := disk.small
  constructor
  · rw [toUInt32_of_lt (by omega)]
    omega
  · rw [headerOf, disk.decode_header]
    exact .inr ⟨h.pages_pos.ne', disk.sizeofPageHeader_le⟩

end Opening

end DocumentDb.Storage
