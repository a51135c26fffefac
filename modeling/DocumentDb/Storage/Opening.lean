import DocumentDb.Storage.Coherence

namespace DocumentDb.Storage

open Bytes Program

/-- The disk on which nothing fails. -/
def noFaults : Nat → Option IoFault := fun _ => none

section NewFile

variable {signature : Int} {pageSize : Nat}

def emptyDisk (signature : Int) (pageSize : Nat) (hs : IsInt32 signature)
    (hmin : sizeofPageHeader ≤ pageSize) (hmax : pageSize < 2 ^ 32) : Disk where
  signature := signature
  pageSize := pageSize
  freePage := 0
  pages := []
  isInt32_signature := hs
  isInt32_freePage := ⟨by decide, by decide⟩
  sizeofPageHeader_le := hmin
  pageSize_lt := hmax
  small := by simp [sizeofFileHeader]
  layout := by simp

def newFile (signature : Int) (pageSize : Nat) : FileManager where
  file := { fileOpen none noFaults with
    content := encodeFileHeader ⟨⟨signature, pageSize⟩, ⟨sizeofFileHeader, 0, 0⟩⟩
    accesses := 1 }
  header := ⟨⟨signature, pageSize⟩, ⟨sizeofFileHeader, 0, 0⟩⟩

theorem fileManagerInit_new (signature : Int) (pageSize : Nat) :
    fileManagerInit ⟨signature, pageSize⟩ (pageManagerNew (fileOpen none noFaults)).fileManager =
      .ok (.ok ()) (newFile signature pageSize) := by
  let header : FileHeader := ⟨⟨signature, pageSize⟩, ⟨sizeofFileHeader, 0, 0⟩⟩
  have hfile : Reliable (fileOpen none noFaults) := ⟨rfl, fun _ => rfl⟩
  have hwrite := hfile.fileWrite_eq (show 0 < (encodeFileHeader header).length by simp [sizeofFileHeader])
    (show 0 < 2 ^ 63 by decide)
  have hpatch : patch (fileOpen none noFaults).content 0 (encodeFileHeader header) =
      encodeFileHeader header := by
    simp [patch, fileOpen]
  have hsize : toUInt32 ((sizeofFileHeader : Int) + (0 : Nat) * (pageSize : Int)) = sizeofFileHeader := by
    rw [Nat.cast_zero, zero_mul, add_zero, toUInt32_of_lt (by decide)]
  have hnew : (fileOpen none noFaults).isNew = true := rfl
  have hnotOne : (fileOpen none noFaults).size ≠ 1 := by
    change toUInt32 ((0 : Nat) : Int) ≠ 1
    rw [toUInt32_of_lt (by decide)]
    decide
  rw [hpatch] at hwrite
  have hrun : fileManagerWriteHeader ⟨fileOpen none noFaults, header⟩ =
      .ok (.ok ()) (newFile signature pageSize) := by
    rw [fileManagerWriteHeader]
    simp only [run_bind, andThen_ok, run_modify, run_get, header, hsize]
    exact run_onFile hwrite
  rw [fileManagerInit, pageManagerNew]
  simp only [run_bind, andThen_ok, run_get, hnotOne, if_false, hnew, true_or, if_true, run_modify]
  rw [show fileManagerWriteHeader _ = _ from hrun]
  simp only [andThen_ok, run_pure, returnIfFail, Except.mapError, run_bind, run_get, newFile, ne_eq,
    not_true_eq_false, if_false]

theorem newFile_opened (hs : IsInt32 signature) (hmin : sizeofPageHeader ≤ pageSize)
    (hmax : pageSize < 2 ^ 32) :
    Opened (newFile signature pageSize) (emptyDisk signature pageSize hs hmin hmax) := by
  have hheader : (emptyDisk signature pageSize hs hmin hmax).header =
      ⟨⟨signature, pageSize⟩, ⟨sizeofFileHeader, 0, 0⟩⟩ := by
    simp [Disk.header, emptyDisk]
  refine ⟨⟨rfl, fun _ => rfl⟩, ?_, hheader.symm⟩
  rw [Disk.bytes, hheader, Disk.body]
  simp [emptyDisk, newFile]

theorem pageManagerInit_toUInt32 (pageSize : Nat) (signature : Int) :
    pageManagerInit pageSize signature = pageManagerInit (toUInt32 pageSize) signature := by
  unfold pageManagerInit
  rw [toUInt32_of_lt (toUInt32_lt pageSize)]

/-- A page that cannot hold its own header is not allocated. -/
theorem pageManagerInit_ok_le {t : PageManager} {res : Result Unit} (hmax : pageSize < 2 ^ 32)
    (hinit : pageManagerInit pageSize signature (pageManagerNew (fileOpen none noFaults)) = .ok res t) :
    sizeofPageHeader ≤ pageSize := by
  by_contra hsmall
  have hrun : onFileManager (fileManagerInit ⟨signature, toUInt32 pageSize⟩)
      (pageManagerNew (fileOpen none noFaults)) = .ok (.ok ())
        { pageManagerNew (fileOpen none noFaults) with fileManager := newFile signature pageSize } :=
    run_onFileManager (by rw [toUInt32_of_lt hmax]; exact fileManagerInit_new signature pageSize)
  have hcount : pageManagerGetPagesCount
      { pageManagerNew (fileOpen none noFaults) with fileManager := newFile signature pageSize } = 0 := rfl
  have hsize : pageManagerGetPageSize
      { pageManagerNew (fileOpen none noFaults) with fileManager := newFile signature pageSize } <
        sizeofPageHeader := Nat.lt_of_not_le hsmall
  rw [pageManagerInit] at hinit
  simp only [run_bind, hrun, andThen_ok, run_get, hcount, if_true] at hinit
  unfold pageManagerPageNew pageManagerAllocatePage at hinit
  simp only [run_bind, run_get, andThen_ok, hsize, if_true, run_throw, andThen_error, reduceCtorEq] at hinit

def freshDisk (signature : Int) (pageSize : Nat) (hs : IsInt32 signature)
    (hmin : sizeofPageHeader ≤ pageSize) (hroom : sizeofFileHeader + pageSize < 2 ^ 32) : Disk :=
  (emptyDisk signature pageSize hs hmin (by omega)).addPage (nextPage _) (nextPage_hasSlots _)
    (by simpa [Disk.HasRoom, emptyDisk] using hroom)

theorem freshDisk_settled (hs : IsInt32 signature) (hmin : sizeofPageHeader ≤ pageSize)
    (hroom : sizeofFileHeader + pageSize < 2 ^ 32) :
    Settled (freshDisk signature pageSize hs hmin hroom) :=
  ⟨by simp [freshDisk], by simp [freshDisk, emptyDisk, Disk.addPage]⟩

theorem pageManagerInit_new (hs : IsInt32 signature) (hmin : sizeofPageHeader ≤ pageSize)
    (hmax : pageSize < 2 ^ 32) :
    (∀ hroom : sizeofFileHeader + pageSize < 2 ^ 32, ∃ t,
      pageManagerInit pageSize signature (pageManagerNew (fileOpen none noFaults)) = .ok (.ok ()) t ∧
      Coherent t (freshDisk signature pageSize hs hmin hroom)) ∧
    (¬sizeofFileHeader + pageSize < 2 ^ 32 →
      AtLeast (2 ^ 32)
        (final (pageManagerInit pageSize signature (pageManagerNew (fileOpen none noFaults))))) := by
  let fm := newFile signature pageSize
  have hempty : Coherent { pageManagerNew (fileOpen none noFaults) with fileManager := fm }
      (emptyDisk signature pageSize hs hmin hmax) := by
    refine ⟨newFile_opened hs hmin hmax, ?_, ?_, ?_, ?_, rfl, ?_⟩ <;> simp [pageManagerNew]
  have hcount : pageManagerGetPagesCount { pageManagerNew (fileOpen none noFaults) with fileManager := fm } = 0 :=
    hempty.opened.pagesCount_eq
  obtain ⟨a, t, hnew, ha, _, _, hover⟩ := hempty.pageNew
  have hrun : onFileManager (fileManagerInit ⟨signature, toUInt32 pageSize⟩)
      (pageManagerNew (fileOpen none noFaults)) =
        .ok (.ok ()) { pageManagerNew (fileOpen none noFaults) with fileManager := fm } :=
    run_onFileManager (by rw [toUInt32_of_lt hmax]; exact fileManagerInit_new signature pageSize)
  have hpage : pageManagerInit pageSize signature (pageManagerNew (fileOpen none noFaults)) =
      .ok (.ok ()) { t with currentFreePage := some a } := by
    rw [pageManagerInit]
    simp only [run_bind, hrun, andThen_ok, run_get, hcount, if_true, hnew, run_pure, reduceCtorEq, if_false,
      run_modify]
  rw [hpage]
  refine ⟨fun hroom => ⟨_, rfl, ?_⟩, fun hfull => ?_⟩
  · have hgrown := hempty.grown (by simpa [Disk.HasRoom, emptyDisk] using hroom)
    rw [hempty.pageNew_eq] at hnew
    cases hnew
    refine hgrown.withCurrent ha ?_
    simp [nextPage, pageNew, emptyDisk, Disk.addPage]
  · exact hover (by simpa [Disk.HasRoom, emptyDisk] using hfull)

end NewFile

section ExistingFile

variable {disk : Disk}

theorem fileManagerInit_existing (hpos : 0 < disk.pages.length) (pageSize : Nat) :
    ∃ fm, fileManagerInit ⟨disk.signature, pageSize⟩
        (pageManagerNew (fileOpen (some disk.bytes) noFaults)).fileManager = .ok (.ok ()) fm ∧
      Opened fm disk := by
  have hlen := disk.length_bytes
  have hsmall := disk.small
  have hpages := Nat.mul_le_mul hpos disk.sizeofPageHeader_le
  rw [sizeofPageHeader] at hpages
  have hsize : (fileOpen (some disk.bytes) noFaults).size = disk.bytes.length := by
    change toUInt32 (disk.bytes.length : Int) = _
    exact toUInt32_of_lt (by omega)
  have hold : (fileOpen (some disk.bytes) noFaults).isNew = false := rfl
  have hfile : Reliable (fileOpen (some disk.bytes) noFaults) := ⟨rfl, fun _ => rfl⟩
  let blank : List UInt8 := encodeFileHeader ⟨⟨0, 0⟩, ⟨0, 0, 0⟩⟩
  have hblank : blank.length = sizeofFileHeader := Disk.length_encodeFileHeader _
  have hread := hfile.fileRead_eq (show 0 < blank.length by rw [hblank]; decide)
    (show 0 < 2 ^ 63 by decide)
    (show 0 + blank.length ≤ disk.bytes.length by rw [hblank]; omega)
  have hcontent : (fileOpen (some disk.bytes) noFaults).content = disk.bytes := rfl
  rw [hcontent, hblank] at hread
  let fm : FileManager := ⟨{ fileOpen (some disk.bytes) noFaults with
    accesses := (fileOpen (some disk.bytes) noFaults).accesses + 1 }, disk.header⟩
  have hrun : fileManagerReadHeader ⟨fileOpen (some disk.bytes) noFaults, ⟨⟨0, 0⟩, ⟨0, 0, 0⟩⟩⟩ =
      .ok (.ok ()) fm := by
    rw [fileManagerReadHeader]
    simp only [run_bind, andThen_ok, run_get]
    rw [run_onFile hread]
    simp only [andThen_ok, run_bind, run_modify, run_pure, disk.decode_header, fm, hcontent]
  have hguard : ¬((fileOpen (some disk.bytes) noFaults).isNew = true ∨
      (fileOpen (some disk.bytes) noFaults).size < sizeofFileHeader) := by
    rw [hold, hsize]
    simp only [reduceCtorEq, false_or]
    omega
  have hone : (fileOpen (some disk.bytes) noFaults).size ≠ 1 := by
    rw [sizeofFileHeader] at hlen
    omega
  have hsig : disk.header.constants.signature = disk.signature := rfl
  refine ⟨fm, ?_, ⟨rfl, fun _ => rfl⟩, rfl, rfl⟩
  rw [fileManagerInit]
  simp only [run_bind, andThen_ok, run_get, pageManagerNew, hone, if_false]
  rw [if_neg hguard, run_bind, hrun]
  simp only [andThen_ok, run_pure, returnIfFail, Except.mapError, run_bind, run_get, fm, hsig, ne_eq,
    not_true_eq_false, if_false]

/-- Opening the file again brings back the disk, whatever page size is asked for. -/
theorem pageManagerInit_existing (hs : Settled disk) (pageSize : Nat) :
    ∃ t a page, pageManagerInit pageSize disk.signature
        (pageManagerNew (fileOpen (some disk.bytes) noFaults)) = .ok (.ok ()) t ∧
      Coherent t disk ∧ t.currentFreePage = some a ∧ findPage t a = some page ∧
        page.pageHeader.pageId = disk.freePage := by
  have hpos := hs.pages_pos
  obtain ⟨fm, hinit, hopened⟩ := fileManagerInit_existing hpos (toUInt32 pageSize)
  have hempty : Coherent { pageManagerNew (fileOpen (some disk.bytes) noFaults) with fileManager := fm }
      disk := by
    refine ⟨hopened, ?_, ?_, ?_, ?_, rfl, ?_⟩ <;> simp [pageManagerNew]
  have hlast := List.getElem?_eq_getElem (show disk.pages.length - 1 < disk.pages.length by omega)
  obtain ⟨a, t, hread, ht, ha, _, _⟩ := hempty.readPage hlast
  have hid := (Disk.pageId_eq hlast).trans hs.freePage.symm
  have hcount : pageManagerGetPagesCount
      { pageManagerNew (fileOpen (some disk.bytes) noFaults) with fileManager := fm } ≠ 0 := by
    rw [hempty.opened.pagesCount_eq]
    omega
  have hfree : fm.header.dynamic.currentFreePage = (disk.pages.length - 1 : Nat) := by
    rw [hopened.header]
    exact hs.freePage
  have hrun : onFileManager (fileManagerInit ⟨disk.signature, toUInt32 pageSize⟩)
      (pageManagerNew (fileOpen (some disk.bytes) noFaults)) =
        .ok (.ok ()) { pageManagerNew (fileOpen (some disk.bytes) noFaults) with fileManager := fm } :=
    run_onFileManager hinit
  refine ⟨{ t with currentFreePage := some a }, a, _, ?_, ht.withCurrent ha hid, rfl, ha, hid⟩
  rw [pageManagerInit]
  simp only [run_bind, hrun, andThen_ok, run_get, hcount, if_false, hfree, hread, run_pure, reduceCtorEq,
    run_modify]

end ExistingFile

end DocumentDb.Storage
