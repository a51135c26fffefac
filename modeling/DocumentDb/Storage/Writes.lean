import Mathlib.Data.List.TakeDrop
import DocumentDb.Storage.Faults
import DocumentDb.Storage.WriteThrough

namespace DocumentDb.Storage

open Bytes Program

section Access

variable {data content : List UInt8} {offset : Nat}

def Reported (fault : Option IoFault) : Prop :=
  match fault with
  | some .seek | some (.transfer _) => True
  | none | some (.flush _) => False

instance : (fault : Option IoFault) → Decidable (Reported fault)
  | some .seek | some (.transfer _) => isTrue trivial
  | none | some (.flush _) => isFalse not_false

theorem not_reported {fault : Option IoFault} (h : fault = none) : ¬Reported fault := by
  rw [h]
  exact not_false

def FileState.written (fs : FileState) (data : List UInt8) (offset : Nat) : FileState :=
  { fs with
    content := writtenContent (fs.faults fs.accesses) data offset fs.content
    accesses := fs.accesses + 1 }

theorem fileWrite_outcome {fs : FileState} (hopen : fs.isOpen = true) (data : List UInt8) (offset : Nat)
    (hdata : 0 < data.length) (hoffset : offset < 2 ^ 63) :
    ∃ res, fileWrite data offset fs = .ok res (fs.written data offset) ∧
      (res = .ok () ↔ ¬Reported (fs.faults fs.accesses)) := by
  rw [fileWrite, nextAccess, FileState.written]
  simp only [run_bind, run_get, run_set, run_pure, andThen_ok, hopen, reduceCtorEq, if_false, if_neg hdata.ne',
    or_iff_left hoffset.not_ge, run_ite, run_modify]
  rcases hfault : fs.faults fs.accesses with _ | _ | bytes | bytes
  · exact ⟨_, rfl, iff_of_true rfl not_false⟩
  · exact ⟨_, rfl, iff_of_false (by simp) (not_not_intro trivial)⟩
  · exact ⟨_, rfl, iff_of_false (by simp) (not_not_intro trivial)⟩
  · exact ⟨_, rfl, iff_of_true rfl not_false⟩

theorem bytesMoved_le (fault : Option IoFault) (size : Nat) : bytesMoved fault size ≤ size := by
  rcases fault with _ | _ | bytes | bytes
  · exact le_rfl
  · exact Nat.zero_le size
  · exact min_le_right bytes size
  · exact min_le_right bytes size

theorem length_take_bytesMoved (fault : Option IoFault) (data : List UInt8) :
    (data.take (bytesMoved fault data.length)).length = bytesMoved fault data.length :=
  List.length_take_of_le (bytesMoved_le fault data.length)

/-- A byte of the file, or zero behind its end. -/
def byteAt (content : List UInt8) (i : Nat) : UInt8 := content.getD i 0

/-- Within its range a write leaves the bytes it has moved, and elsewhere what was there. -/
theorem byteAt_writtenContent (fault : Option IoFault) (data : List UInt8) (offset : Nat) (content : List UInt8)
    (i : Nat) :
    byteAt (writtenContent fault data offset content) i =
      if offset ≤ i ∧ i < offset + bytesMoved fault data.length then byteAt data (i - offset) else byteAt content i := by
  have hmoved := bytesMoved_le fault data.length
  have htaken := length_take_bytesMoved fault data
  rw [writtenContent]
  split
  · rw [if_neg (by omega)]
  rw [byteAt, byteAt, byteAt, List.getD_eq_getElem?_getD, getElem?_patch, htaken]
  by_cases hbefore : i < offset
  · rw [if_pos hbefore, if_neg (show ¬(offset ≤ i ∧ _) by omega), List.getD_eq_getElem?_getD]
    split
    · rfl
    next hlen =>
      rw [List.getElem?_eq_none (Nat.le_of_not_lt hlen)]
      rfl
  rw [if_neg hbefore]
  by_cases hin : i < offset + bytesMoved fault data.length
  · rw [if_pos hin, if_pos ⟨Nat.le_of_not_lt hbefore, hin⟩, List.getElem?_take, if_pos (by omega),
      List.getD_eq_getElem?_getD]
  · rw [if_neg hin, if_neg (show ¬(offset ≤ i ∧ _) by omega), List.getD_eq_getElem?_getD]

theorem decodeLE_slice (content : List UInt8) (off len : Nat) :
    decodeLE (slice content off len) = decodeLE ((List.range len).map fun i => byteAt content (off + i)) := by
  have hprefix (bs : List UInt8) : decodeLE (bs.take len) = decodeLE ((List.range len).map fun i => byteAt bs i) := by
    induction len generalizing bs with
    | zero => rfl
    | succ len ih =>
        rw [List.range_succ_eq_map, List.map_cons, List.map_map]
        cases bs with
        | nil =>
            have hrest := ih []
            rw [List.take_nil] at hrest
            have htail : (fun i => byteAt [] i) ∘ Nat.succ = fun i => byteAt [] i := funext fun _ => rfl
            rw [List.take_nil, htail, decodeLE, decodeLE, ← hrest]
            rfl
        | cons b bs =>
            rw [List.take_succ_cons, decodeLE, decodeLE, ih bs]
            rfl
  rw [slice, hprefix]
  congr 2
  funext i
  rw [byteAt, byteAt, List.getD_eq_getElem?_getD, List.getD_eq_getElem?_getD, List.getElem?_drop]

theorem slice_writtenContent_after (fault : Option IoFault) {off len : Nat} (h : offset + data.length ≤ off) :
    slice (writtenContent fault data offset content) off len = slice content off len := by
  rw [writtenContent]
  split
  · rfl
  · refine slice_patch_after _ _ (le_trans ?_ h)
    rw [List.length_take]
    omega

theorem slice_writtenContent_before (fault : Option IoFault) {off len : Nat} (h : off + len ≤ offset)
    (hlen : off + len ≤ content.length) :
    slice (writtenContent fault data offset content) off len = slice content off len := by
  rw [writtenContent]
  split
  · rfl
  · exact slice_patch_before _ _ h hlen

/-- In its range there are the bytes that it has moved, and then those that were there before. -/
theorem slice_writtenContent_at (fault : Option IoFault) (data : List UInt8) (offset : Nat) (content : List UInt8) :
    slice (writtenContent fault data offset content) offset data.length =
      data.take (bytesMoved fault data.length) ++ (slice content offset data.length).drop (bytesMoved fault data.length) := by
  have hmoved := bytesMoved_le fault data.length
  have htaken := length_take_bytesMoved fault data
  rw [writtenContent]
  split
  case isTrue hzero => rw [hzero, List.take_zero, List.nil_append, List.drop_zero]
  apply List.ext_getElem?
  intro i
  rw [getElem?_slice, getElem?_patch, htaken]
  by_cases hi : i < bytesMoved fault data.length
  · rw [if_pos (by omega), if_neg (by omega), if_pos (by omega), Nat.add_sub_cancel_left,
      List.getElem?_append_left (by omega)]
  · rw [List.getElem?_append_right (by omega), htaken, List.getElem?_drop, Nat.add_sub_cancel' (Nat.le_of_not_lt hi),
      getElem?_slice, if_neg (show ¬offset + i < offset by omega),
      if_neg (show ¬offset + i < offset + bytesMoved fault data.length by omega)]

theorem length_writtenContent (fault : Option IoFault) (h : offset + data.length ≤ content.length) :
    (writtenContent fault data offset content).length = content.length := by
  rw [writtenContent]
  split
  · rfl
  · refine length_patch_of_le (le_trans ?_ h)
    rw [List.length_take]
    omega

/-- Writing over bytes what they already are changes none of them, however much is written. -/
theorem slice_writtenContent_same (fault : Option IoFault) {off len : Nat}
    (h : slice content off len = slice data off len) :
    slice (writtenContent fault data 0 content) off len = slice content off len := by
  have hbyte (i : Nat) (hi : i < len) : content[off + i]? = data[off + i]? := by
    have hslice := congrArg (fun bs => bs[i]?) h
    simpa only [getElem?_slice, if_pos hi] using hslice
  rw [writtenContent]
  split
  · rfl
  generalize bytesMoved fault data.length = n
  apply slice_congr
  intro i hi
  rw [getElem?_patch, if_neg (by omega), Nat.sub_zero]
  by_cases htaken : off + i < 0 + (data.take n).length
  · rw [if_pos htaken, hbyte i hi, List.getElem?_take_of_lt]
    rw [List.length_take] at htaken
    omega
  · rw [if_neg htaken]

end Access

section Header

variable {self : PageManager} {fm : FileManager}

def FileHeader.resized (self : FileHeader) : FileHeader :=
  { self with
    dynamic.fileSize := toUInt32 ((sizeofFileHeader : Int) + self.dynamic.pageCount * self.constants.pageSize) }

def FileManager.headerWritten (self : FileManager) : FileManager where
  file := self.file.written (encodeFileHeader self.header.resized) 0
  header := self.header.resized

theorem fileManagerWriteHeader_outcome (fm : FileManager) (hopen : fm.file.isOpen = true) :
    ∃ res, fileManagerWriteHeader fm = .ok res fm.headerWritten ∧
      (res = .ok () ↔ ¬Reported (fm.file.faults fm.file.accesses)) := by
  obtain ⟨res, hwrite, hres⟩ := fileWrite_outcome hopen (encodeFileHeader fm.header.resized) 0
    (by rw [Disk.length_encodeFileHeader]; decide) (by decide)
  refine ⟨res, ?_, hres⟩
  rw [fileManagerWriteHeader]
  simp only [run_bind, andThen_ok, run_modify, run_get]
  exact run_onFile hwrite

/-- The file header that the next start of the program reads. -/
def headerOnDisk (self : PageManager) : FileHeader :=
  decodeFileHeader (slice self.fileManager.file.content 0 sizeofFileHeader)

def CountStored (fm : FileManager) : Prop :=
  slice fm.file.content 16 4 = encodeUInt32 fm.header.dynamic.pageCount

theorem slice_encodeFileHeader (header : FileHeader) :
    slice (encodeFileHeader header) 16 4 = encodeUInt32 header.dynamic.pageCount := by
  rw [encodeFileHeader, slice]
  simp [List.drop_append, List.drop_of_length_le, List.take_of_length_le]

theorem byteAt_encodeFileHeader (header : FileHeader) {i : Nat} (hi : i < 4) :
    byteAt (encodeFileHeader header) (16 + i) = byteAt (encodeUInt32 header.dynamic.pageCount) i := by
  have hbyte := getElem?_slice (encodeFileHeader header) 16 4 i
  rw [slice_encodeFileHeader, if_pos hi] at hbyte
  rw [byteAt, byteAt, List.getD_eq_getElem?_getD, List.getD_eq_getElem?_getD, hbyte]

theorem byteAt_headerWritten (fm : FileManager) {i : Nat} (hi : i < 4) :
    byteAt fm.headerWritten.file.content (16 + i) =
      if 16 + i < bytesMoved (fm.file.faults fm.file.accesses) sizeofFileHeader then
        byteAt (encodeUInt32 fm.header.dynamic.pageCount) i
      else
        byteAt fm.file.content (16 + i) := by
  have hbyte := byteAt_writtenContent (fm.file.faults fm.file.accesses) (encodeFileHeader fm.header.resized) 0
    fm.file.content (16 + i)
  rw [Disk.length_encodeFileHeader, Nat.zero_add, Nat.sub_zero, byteAt_encodeFileHeader _ hi] at hbyte
  simp only [Nat.zero_le, true_and] at hbyte
  exact hbyte

theorem pageCount_headerOnDisk (self : PageManager) :
    (headerOnDisk self).dynamic.pageCount = decodeLE (slice self.fileManager.file.content 16 4) := by
  have hslice : slice (slice self.fileManager.file.content 0 sizeofFileHeader) 16 4 =
      slice self.fileManager.file.content 16 4 := by
    apply slice_congr
    intro i hi
    rw [getElem?_slice, sizeofFileHeader, if_pos (by omega), Nat.zero_add]
  rw [headerOnDisk, decodeFileHeader]
  simp only [hslice]

theorem CountStored.headerOnDisk (h : CountStored self.fileManager) (hcount : pageManagerGetPagesCount self < 2 ^ 32) :
    (headerOnDisk self).dynamic.pageCount = pageManagerGetPagesCount self := by
  rw [pageCount_headerOnDisk, show slice self.fileManager.file.content 16 4 = _ from h]
  exact decodeLE_encodeUInt32 hcount

/-- However much of the header is written, its page count stays when it was there before. -/
theorem CountStored.headerWritten (h : CountStored fm) : CountStored fm.headerWritten := by
  have hsame : slice fm.file.content 16 4 = slice (encodeFileHeader fm.header.resized) 16 4 := by
    rw [slice_encodeFileHeader]
    exact h
  exact (slice_writtenContent_same _ hsame).trans h

theorem countStored_headerWritten (h : fm.file.faults fm.file.accesses = none) : CountStored fm.headerWritten := by
  have hcontent : fm.headerWritten.file.content =
      patch fm.file.content 0 (encodeFileHeader fm.header.resized) := by
    rw [FileManager.headerWritten, FileState.written, h]
    rfl
  rw [CountStored, ← slice_encodeFileHeader, hcontent]
  apply slice_congr
  intro i hi
  have hlen := Disk.length_encodeFileHeader fm.header.resized
  rw [sizeofFileHeader] at hlen
  rw [getElem?_patch, if_neg (by omega), if_pos (by omega), Nat.sub_zero]
  rfl

theorem CountStored.written (h : CountStored fm) (data : List UInt8) {offset : Nat}
    (hoffset : sizeofFileHeader ≤ offset)
    (hlen : sizeofFileHeader ≤ fm.file.content.length) :
    CountStored { fm with file := fm.file.written data offset } := by
  rw [sizeofFileHeader] at hoffset hlen
  exact (slice_writtenContent_before _ (by omega) (by omega)).trans h

theorem length_headerWritten (h : sizeofFileHeader ≤ fm.file.content.length) :
    fm.headerWritten.file.content.length = fm.file.content.length := by
  apply length_writtenContent
  rw [Disk.length_encodeFileHeader, Nat.zero_add]
  exact h

theorem slice_headerWritten_after {off len : Nat} (h : sizeofFileHeader ≤ off) :
    slice fm.headerWritten.file.content off len = slice fm.file.content off len := by
  apply slice_writtenContent_after
  rw [Disk.length_encodeFileHeader, Nat.zero_add]
  exact h

end Header

section Pages

variable {self : PageManager} {a : PageAddr} {page : Page}

def PageManager.withPagesCount (self : PageManager) (pagesCount : Nat) : PageManager :=
  { self with
    fileManager := { self.fileManager with header.dynamic.pageCount := pagesCount }.headerWritten }

theorem setPagesCount_outcome (hopen : self.fileManager.file.isOpen = true) (pagesCount : Nat) :
    ∃ res, pageManagerSetPagesCount pagesCount self = .ok res (self.withPagesCount pagesCount) ∧
      (res = .ok () ↔ ¬Reported (self.fileManager.file.faults self.fileManager.file.accesses)) := by
  obtain ⟨res, hwrite, hres⟩ := fileManagerWriteHeader_outcome
    { self.fileManager with header.dynamic.pageCount := pagesCount } hopen
  refine ⟨res, ?_, hres⟩
  rw [pageManagerSetPagesCount]
  simp only [run_bind, run_modify, andThen_ok]
  exact run_onFileManager hwrite

def PageManager.withCurrentFreePage (self : PageManager) (a : PageAddr) (pageId : Int) : PageManager :=
  { self with
    fileManager := { self.fileManager with header.dynamic.currentFreePage := pageId }.headerWritten
    currentFreePage := some a }

theorem pagesCount_withCurrentFreePage (self : PageManager) (a : PageAddr) (pageId : Int) :
    pageManagerGetPagesCount (self.withCurrentFreePage a pageId) = pageManagerGetPagesCount self := rfl

theorem setCurrentFreePage_outcome (hopen : self.fileManager.file.isOpen = true) (ha : findPage self a = some page) :
    ∃ res, pageManagerSetCurrentFreePage a self = .ok res (self.withCurrentFreePage a page.pageHeader.pageId) ∧
      (res = .ok () ↔ ¬Reported (self.fileManager.file.faults self.fileManager.file.accesses)) := by
  obtain ⟨res, hwrite, hres⟩ := fileManagerWriteHeader_outcome
    { self.fileManager with header.dynamic.currentFreePage := page.pageHeader.pageId } hopen
  refine ⟨res, ?_, hres⟩
  rw [pageManagerSetCurrentFreePage]
  simp only [run_bind, run_loadPage ha, run_modify, andThen_ok]
  exact run_onFileManager hwrite

def PageManager.pageWritten (self : PageManager) (page : Page) (offset : Nat) : PageManager :=
  { self with fileManager.file := self.fileManager.file.written (encodePage page) offset }

theorem pagesCount_pageWritten (self : PageManager) (page : Page) (offset : Nat) :
    pageManagerGetPagesCount (self.pageWritten page offset) = pageManagerGetPagesCount self := rfl

theorem findPage_pageWritten (self : PageManager) (page : Page) (offset : Nat) (a : PageAddr) :
    findPage (self.pageWritten page offset) a = findPage self a := rfl

theorem pageManagerWritePageOnDisk_outcome (hopen : self.fileManager.file.isOpen = true)
    (ha : findPage self a = some page) :
    ∃ res, pageManagerWritePageOnDisk a self = .ok res
        (self.pageWritten page (toUInt32 (pageManagerGetPageOffset self page.pageHeader.pageId))) ∧
      (res = .ok () ↔ ¬Reported (self.fileManager.file.faults self.fileManager.file.accesses)) := by
  have hoffset := toUInt32_lt (pageManagerGetPageOffset self page.pageHeader.pageId)
  obtain ⟨res, hwrite, hres⟩ := fileWrite_outcome hopen (encodePage page)
    (toUInt32 (pageManagerGetPageOffset self page.pageHeader.pageId))
    (by rw [length_encodePage, sizeofPageHeader]; omega) (by omega)
  have hrun : onFileManager (fileManagerWrite (encodePage page)
      (toUInt32 (pageManagerGetPageOffset self page.pageHeader.pageId))) self = .ok res
        (self.pageWritten page (toUInt32 (pageManagerGetPageOffset self page.pageHeader.pageId))) :=
    run_onFileManager (run_onFile hwrite)
  refine ⟨returnIfFail res "Failed to write page on disk", ?_, ?_⟩
  · rw [pageManagerWritePageOnDisk]
    simp only [run_bind, run_loadPage ha, run_get, andThen_ok, hrun, run_pure]
  · rw [← hres]
    cases res with
    | ok u => simp [returnIfFail, Except.mapError]
    | error e => simp [returnIfFail, Except.mapError]

def PageManager.withAllocated (self : PageManager) (page : Page) : PageManager :=
  { self with
    allocatedPages := ⟨self.nextAddr, page⟩ :: self.allocatedPages
    allocatedPagesCount := toUInt32 ((self.allocatedPagesCount : Int) + 1)
    nextAddr := self.nextAddr + 1 }

def nextPageId (self : PageManager) : Int := toInt32 (pageManagerGetLastPageId self + 1)

def PageManager.raised (self : PageManager) : PageManager :=
  (self.withAllocated (pageNew (nextPageId self) (pageManagerGetPageSize self))).withPagesCount
    (toUInt32 ((pageManagerGetPagesCount self : Int) + 1))

/-- The page manager after `page_manager_page_new`. The page is not written when the header could not be. -/
def PageManager.withPageNew (self : PageManager) : PageManager :=
  if Reported (self.fileManager.file.faults self.fileManager.file.accesses) then
    self.raised
  else
    self.raised.pageWritten (pageNew (nextPageId self) (pageManagerGetPageSize self))
      (toUInt32 (pageManagerGetPageOffset self (nextPageId self)))

theorem findPage_raised (self : PageManager) :
    findPage self.raised self.nextAddr = some (pageNew (nextPageId self) (pageManagerGetPageSize self)) := by
  simp [findPage, PageManager.raised, PageManager.withPagesCount, PageManager.withAllocated]

/-- Whatever fails, the page is in the cache afterwards and the page count is raised. -/
theorem pageManagerPageNew_outcome (hopen : self.fileManager.file.isOpen = true)
    (hsize : sizeofPageHeader ≤ pageManagerGetPageSize self) :
    ∃ res, pageManagerPageNew self = .ok (res, self.nextAddr) self.withPageNew ∧
      (res = .ok () ↔ ¬Reported (self.fileManager.file.faults self.fileManager.file.accesses) ∧
        ¬Reported (self.fileManager.file.faults (self.fileManager.file.accesses + 1))) := by
  let allocated := self.withAllocated (pageNew (nextPageId self) (pageManagerGetPageSize self))
  have halloc : pageManagerAllocatePage (nextPageId self) self = .ok self.nextAddr allocated := by
    rw [pageManagerAllocatePage]
    simp only [run_bind, run_get, andThen_ok, if_neg hsize.not_gt, run_set, run_pure, allocated,
      PageManager.withAllocated]
  obtain ⟨res, hcount, hres⟩ : ∃ res, pageManagerSetPagesCount
      (toUInt32 ((pageManagerGetPagesCount self : Int) + 1)) allocated = .ok res self.raised ∧
        (res = .ok () ↔ ¬Reported (self.fileManager.file.faults self.fileManager.file.accesses)) :=
    setPagesCount_outcome (show allocated.fileManager.file.isOpen = true from hopen) _
  obtain ⟨res', hwrite, hres'⟩ : ∃ res', pageManagerWritePageOnDisk self.nextAddr self.raised = .ok res'
      (self.raised.pageWritten (pageNew (nextPageId self) (pageManagerGetPageSize self))
        (toUInt32 (pageManagerGetPageOffset self (nextPageId self)))) ∧
        (res' = .ok () ↔ ¬Reported (self.fileManager.file.faults (self.fileManager.file.accesses + 1))) :=
    pageManagerWritePageOnDisk_outcome (show self.raised.fileManager.file.isOpen = true from hopen)
      (findPage_raised self)
  have hpages : pageManagerGetPagesCount allocated = pageManagerGetPagesCount self := rfl
  rw [PageManager.withPageNew, pageManagerPageNew]
  rw [run_bind, run_get, andThen_ok, run_bind, ← nextPageId, halloc, andThen_ok, run_bind, run_get, andThen_ok,
    run_bind, hpages, hcount, andThen_ok]
  cases res with
  | error e =>
      have hfault := not_not.mp (hres.not.mp (by simp))
      rw [if_pos hfault]
      exact ⟨_, rfl, by simp [hfault]⟩
  | ok u =>
      have hfault := hres.mp rfl
      simp only [if_neg hfault, run_bind, hwrite, andThen_ok, run_pure]
      rw [and_iff_right hfault, ← hres']
      refine ⟨_, rfl, ?_⟩
      cases res' with
      | ok u => simp [returnIfFail, Except.mapError]
      | error e => simp [returnIfFail, Except.mapError]

end Pages

section NewPage

variable {self : PageManager} {disk : Disk}

def PagesBelow (pm : PageManager) : Prop :=
  sizeofFileHeader + pageManagerGetPagesCount pm * pageManagerGetPageSize pm < 2 ^ 32

theorem PagesBelow.count_lt (h : PagesBelow self) (hsize : sizeofPageHeader ≤ pageManagerGetPageSize self) :
    pageManagerGetPagesCount self < 2 ^ 28 := by
  have hle := Nat.mul_le_mul_left (pageManagerGetPagesCount self) hsize
  rw [PagesBelow] at h
  rw [sizeofPageHeader] at hle
  omega

theorem PagesBelow.nextPageId (h : PagesBelow self) (hsize : sizeofPageHeader ≤ pageManagerGetPageSize self) :
    nextPageId self = pageManagerGetPagesCount self := by
  have hcount := h.count_lt hsize
  rw [Storage.nextPageId, pageManagerGetLastPageId]
  unfold toInt32
  omega

theorem PagesBelow.nextOffset (h : PagesBelow self) (hsize : sizeofPageHeader ≤ pageManagerGetPageSize self) :
    toUInt32 (pageManagerGetPageOffset self (Storage.nextPageId self)) =
      sizeofFileHeader + pageManagerGetPagesCount self * pageManagerGetPageSize self := by
  have hoffset : pageManagerGetPageOffset self (pageManagerGetPagesCount self : Nat) =
      sizeofFileHeader + pageManagerGetPagesCount self * pageManagerGetPageSize self := by
    rw [PagesBelow] at h
    rw [pageManagerGetPageOffset, ← Int.natCast_mul, ← Int.natCast_add]
    omega
  rw [h.nextPageId hsize, hoffset, toUInt32_of_lt h]

theorem PagesBelow.pagesCount_raised (h : PagesBelow self) (hsize : sizeofPageHeader ≤ pageManagerGetPageSize self) :
    pageManagerGetPagesCount self.raised = pageManagerGetPagesCount self + 1 := by
  have hcount := h.count_lt hsize
  change toUInt32 ((pageManagerGetPagesCount self : Int) + 1) = _
  rw [toUInt32_succ (by omega)]

theorem pagesCount_withPageNew (self : PageManager) :
    pageManagerGetPagesCount self.withPageNew = pageManagerGetPagesCount self.raised := by
  rw [PageManager.withPageNew]
  split
  · rfl
  · rw [pagesCount_pageWritten]

theorem findPage_withPageNew (self : PageManager) :
    findPage self.withPageNew self.nextAddr = some (pageNew (nextPageId self) (pageManagerGetPageSize self)) := by
  rw [PageManager.withPageNew]
  split
  · exact findPage_raised self
  · rw [findPage_pageWritten, findPage_raised]

theorem length_withPageNew (self : PageManager) :
    self.withPageNew.allocatedPages.length = self.allocatedPages.length + 1 := by
  rw [PageManager.withPageNew]
  split
  · rfl
  · rfl

theorem isOpen_withPageNew (self : PageManager) :
    self.withPageNew.fileManager.file.isOpen = self.fileManager.file.isOpen := by
  rw [PageManager.withPageNew]
  split
  · rfl
  · rfl

theorem pageSize_withPageNew (self : PageManager) :
    pageManagerGetPageSize self.withPageNew = pageManagerGetPageSize self := by
  rw [PageManager.withPageNew]
  split
  · rfl
  · rfl

theorem faults_withPageNew (self : PageManager) :
    self.withPageNew.fileManager.file.faults = self.fileManager.file.faults := by
  rw [PageManager.withPageNew]
  split
  · rfl
  · rfl

/-- Both callers make the new page the current free page. -/
theorem setCurrentFreePage_withPageNew (hopen : self.fileManager.file.isOpen = true) :
    ∃ res, pageManagerSetCurrentFreePage self.nextAddr self.withPageNew =
        .ok res (self.withPageNew.withCurrentFreePage self.nextAddr (nextPageId self)) ∧
      (res = .ok () ↔ ¬Reported (self.fileManager.file.faults self.withPageNew.fileManager.file.accesses)) := by
  have hid : (pageNew (nextPageId self) (pageManagerGetPageSize self)).pageHeader.pageId = nextPageId self := rfl
  have hset := setCurrentFreePage_outcome ((isOpen_withPageNew self).trans hopen) (findPage_withPageNew self)
  rwa [hid, faults_withPageNew] at hset

theorem accesses_withPageNew (self : PageManager) :
    self.withPageNew.fileManager.file.accesses =
      if Reported (self.fileManager.file.faults self.fileManager.file.accesses) then
        self.fileManager.file.accesses + 1
      else
        self.fileManager.file.accesses + 2 := by
  rw [PageManager.withPageNew]
  split
  · rfl
  · rfl

theorem byteAt_withPageNew
    (hoffset : sizeofFileHeader ≤ toUInt32 (pageManagerGetPageOffset self (Storage.nextPageId self)))
    {i : Nat} (hi : i < 4) :
    byteAt self.withPageNew.fileManager.file.content (16 + i) = byteAt self.raised.fileManager.file.content (16 + i) := by
  rw [sizeofFileHeader] at hoffset
  rw [PageManager.withPageNew]
  split
  · rfl
  · refine (byteAt_writtenContent _ _ _ _ _).trans (if_neg ?_)
    omega

/-- The place of the new page afterwards: what has been moved of it, and then what was there before. -/
theorem slice_withPageNew
    (hoffset : sizeofFileHeader ≤ toUInt32 (pageManagerGetPageOffset self (Storage.nextPageId self)))
    (hsize : sizeofPageHeader ≤ pageManagerGetPageSize self) {moved : Nat}
    (hmoved : moved = if Reported (self.fileManager.file.faults self.fileManager.file.accesses) then 0
      else bytesMoved (self.fileManager.file.faults (self.fileManager.file.accesses + 1)) (pageManagerGetPageSize self)) :
    slice self.withPageNew.fileManager.file.content
        (toUInt32 (pageManagerGetPageOffset self (Storage.nextPageId self))) (pageManagerGetPageSize self) =
      (encodePage (pageNew (Storage.nextPageId self) (pageManagerGetPageSize self))).take moved ++
        (slice self.fileManager.file.content (toUInt32 (pageManagerGetPageOffset self (Storage.nextPageId self)))
          (pageManagerGetPageSize self)).drop moved := by
  have hraised : slice self.raised.fileManager.file.content
      (toUInt32 (pageManagerGetPageOffset self (Storage.nextPageId self))) (pageManagerGetPageSize self) =
        slice self.fileManager.file.content (toUInt32 (pageManagerGetPageOffset self (Storage.nextPageId self)))
          (pageManagerGetPageSize self) := slice_headerWritten_after hoffset
  have hlen : (encodePage (pageNew (Storage.nextPageId self) (pageManagerGetPageSize self))).length =
      pageManagerGetPageSize self := by
    rw [length_encodePage, Nat.add_comm]
    exact (pageNew_hasSlots hsize).payload
  rw [PageManager.withPageNew]
  split at hmoved
  · rename_i hreported
    rw [if_pos hreported, hraised, hmoved, List.take_zero, List.nil_append, List.drop_zero]
  · rename_i hreported
    have hat := slice_writtenContent_at (self.fileManager.file.faults (self.fileManager.file.accesses + 1))
      (encodePage (pageNew (Storage.nextPageId self) (pageManagerGetPageSize self)))
      (toUInt32 (pageManagerGetPageOffset self (Storage.nextPageId self))) self.raised.fileManager.file.content
    rw [hlen, hraised, ← hmoved] at hat
    rw [if_neg hreported]
    exact hat

theorem pagesBelow_of_calm (h : Coherent self.calm disk) : PagesBelow self := by
  have hsmall := disk.small
  rw [PagesBelow, (readable_of_calm h).pagesCount, (readable_of_calm h).pageSize]
  exact hsmall

theorem pageSize_of_calm (h : Coherent self.calm disk) : sizeofPageHeader ≤ pageManagerGetPageSize self := by
  rw [(readable_of_calm h).pageSize]
  exact disk.sizeofPageHeader_le

theorem nextPageId_eq (h : Coherent self.calm disk) : nextPageId self = disk.pages.length := by
  rw [(pagesBelow_of_calm h).nextPageId (pageSize_of_calm h), (readable_of_calm h).pagesCount]

theorem pageNew_nextPageId (h : Coherent self.calm disk) :
    pageNew (nextPageId self) (pageManagerGetPageSize self) = (nextPage disk).page := by
  rw [nextPageId_eq h, (readable_of_calm h).pageSize]
  rfl

theorem nextOffset_eq (h : Coherent self.calm disk) :
    toUInt32 (pageManagerGetPageOffset self (nextPageId self)) = sizeofFileHeader + disk.pages.length * disk.pageSize := by
  rw [(pagesBelow_of_calm h).nextOffset (pageSize_of_calm h), (readable_of_calm h).pagesCount,
    (readable_of_calm h).pageSize]

theorem pagesCount_raised (h : Coherent self.calm disk) :
    pageManagerGetPagesCount self.raised = disk.pages.length + 1 := by
  have hcount : pageManagerGetPagesCount self = disk.pages.length := (readable_of_calm h).pagesCount
  rw [← hcount]
  exact (pagesBelow_of_calm h).pagesCount_raised (pageSize_of_calm h)

theorem countStored_withPageNew (h : Coherent self.calm disk)
    (hfault : self.fileManager.file.faults self.fileManager.file.accesses = none) :
    CountStored self.withPageNew.fileManager := by
  have hraised : CountStored self.raised.fileManager := countStored_headerWritten hfault
  have hlen : self.fileManager.file.content.length = sizeofFileHeader + disk.pages.length * disk.pageSize := by
    rw [show self.fileManager.file.content = disk.bytes from h.opened.content, disk.length_bytes]
  have hheader : sizeofFileHeader ≤ self.fileManager.file.content.length := by omega
  have hraisedLen : self.raised.fileManager.file.content.length = self.fileManager.file.content.length :=
    length_headerWritten hheader
  rw [PageManager.withPageNew, if_neg (not_reported hfault)]
  apply hraised.written
  · rw [nextOffset_eq h]
    exact Nat.le_add_right _ _
  · omega

theorem pageNew_outcome (h : Coherent self.calm disk) :
    ∃ res, pageManagerPageNew self = .ok (res, self.nextAddr) self.withPageNew ∧
      (res = .ok () ↔ ¬Reported (self.fileManager.file.faults self.fileManager.file.accesses) ∧
        ¬Reported (self.fileManager.file.faults (self.fileManager.file.accesses + 1))) :=
  pageManagerPageNew_outcome (isOpen_of_calm h) (pageSize_of_calm h)

theorem pageCount_withPageNew (h : Coherent self.calm disk)
    (hfault : self.fileManager.file.faults self.fileManager.file.accesses = none) (a : PageAddr) (pageId : Int) :
    (headerOnDisk (self.withPageNew.withCurrentFreePage a pageId)).dynamic.pageCount = disk.pages.length + 1 := by
  have hpages := disk.length_pages_lt
  have hcount : pageManagerGetPagesCount (self.withPageNew.withCurrentFreePage a pageId) = disk.pages.length + 1 := by
    rw [pagesCount_withCurrentFreePage, pagesCount_withPageNew, pagesCount_raised h]
  have hstored := countStored_withPageNew h hfault
  have hfinal : CountStored (self.withPageNew.withCurrentFreePage a pageId).fileManager :=
    CountStored.headerWritten hstored
  rw [hfinal.headerOnDisk (by omega), hcount]

end NewPage

end DocumentDb.Storage
