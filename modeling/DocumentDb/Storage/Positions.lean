import DocumentDb.Storage.Opening

namespace DocumentDb.Storage

open Bytes Program

section Positions

variable {self : PageManager} {a : PageAddr} {page : Page} {pageSize k p q : Nat} {message : String}

def pagePosition (pageSize k : Nat) : Nat := sizeofFileHeader + k * pageSize

def writePageAt (position : Nat) (message : String) (page : PageAddr) : PageManagerM (Result Unit) := do
  let raw ← loadPage page
  let res ← onFileManager (fileManagerWrite (encodePage raw) position)
  return returnIfFail res message

/-- `page_manager_read_page`, with the page read from a position of the file. -/
def readPageAt (position : Nat) (id : Int) : PageManagerM (Result PageAddr) := do
  let self ← get
  if toInt32 (pageManagerGetPagesCount self) ≤ id then
    throw (.exit "Page doesn't exist")
  match ← pageManagerGetPageFromRam id with
  | .ok page => return .ok page
  | .error _ =>
    let page ← pageManagerAllocatePage id
    let raw ← loadPage page
    let (res, bytes) ← onFileManager (fileManagerRead (encodePage raw) position)
    storePage page (decodePage bytes)
    match res with
    | .error _ => return .error "[read_page] Failed to read page header from file"
    | .ok () => return .ok page

/-- The three routines take page `k` to be at its position. -/
structure PositionAgrees (pageSize k : Nat) : Prop where
  newPage : ∀ (self : PageManager) (a : PageAddr) (page : Page), pageManagerGetPageSize self = pageSize →
    findPage self a = some page → page.pageHeader.pageId = toInt32 k →
    pageManagerWritePageOnDisk a self =
      writePageAt (pagePosition pageSize k) "Failed to write page on disk" a self
  changedPage : ∀ (self : PageManager) (a : PageAddr) (page : Page), pageManagerGetPageSize self = pageSize →
    findPage self a = some page → page.pageHeader.pageId = toInt32 k →
    writePageOnDisk a self = writePageAt (pagePosition pageSize k) "Failed to write page header to file" a self
  readPage : ∀ self : PageManager, pageManagerGetPageSize self = pageSize →
    pageManagerReadPage (toInt32 k) self = readPageAt (pagePosition pageSize k) (toInt32 k) self

theorem run_writePageAt (ha : findPage self a = some page) (position : Nat) (message : String) :
    writePageAt position message a self = (do
      let res ← onFileManager (fileManagerWrite (encodePage page) position)
      return returnIfFail res message) self := by
  rw [writePageAt, run_bind, run_loadPage ha, andThen_ok]

theorem pageManagerWritePageOnDisk_eq (ha : findPage self a = some page) :
    pageManagerWritePageOnDisk a self =
      writePageAt (toUInt32 (pageManagerGetPageOffset self page.pageHeader.pageId))
        "Failed to write page on disk" a self := by
  rw [run_writePageAt ha, pageManagerWritePageOnDisk]
  simp only [run_bind, run_loadPage ha, andThen_ok, run_get]

theorem writePageOnDisk_eq (ha : findPage self a = some page) :
    writePageOnDisk a self =
      writePageAt (pageManagerGetPageOffset self page.pageHeader.pageId)
        "Failed to write page header to file" a self := by
  rw [run_writePageAt ha, writePageOnDisk]
  simp only [run_bind, run_loadPage ha, andThen_ok, run_get]

theorem pageManagerReadPage_eq {id : Int} (hp : pageManagerGetPageOffset self id = p) :
    pageManagerReadPage id self = readPageAt p id self := by
  subst hp
  rw [pageManagerReadPage, readPageAt, run_bind, run_bind, run_get, andThen_ok]
  refine Eq.trans ?_ (andThen_ok self self _).symm
  rfl

def onePage (pageSize : Nat) (page : Page) : PageManager where
  fileManager := ⟨fileOpen none noFaults, ⟨⟨0, pageSize⟩, ⟨0, 0, 0⟩⟩⟩
  allocatedPages := [⟨0, page⟩]
  allocatedPagesCount := 1
  currentFreePage := none
  nextAddr := 1

theorem findPage_onePage (pageSize : Nat) (page : Page) : findPage (onePage pageSize page) 0 = some page := rfl

theorem run_writePageAt_onePage (position : Nat) (message : String) (page : Page) :
    writePageAt position message 0 (onePage pageSize page) =
      (do
        let res ← onFileManager (fileManagerWrite (encodePage page) position)
        return returnIfFail res message) (onePage pageSize page) :=
  run_writePageAt (findPage_onePage pageSize page) position message

/-- The length of the file shows where the page was written, as far as `fseek` reaches. -/
theorem length_writePageAt (pageSize position : Nat) (message : String) (page : Page) :
    (final (writePageAt position message 0 (onePage pageSize page))).fileManager.file.content.length =
      if position < 2 ^ 63 then position + (encodePage page).length else 0 := by
  rw [run_writePageAt_onePage]
  by_cases hp : position < 2 ^ 63
  · have hfile : Reliable (onePage pageSize page).fileManager.file := ⟨rfl, fun _ => rfl⟩
    have hwrite := hfile.fileWrite_eq (length_encodePage_pos page) hp
    rw [fileManagerWrite, run_bind, run_onFileManager (run_onFile hwrite), andThen_ok, run_pure, final_ok, if_pos hp]
    simp only [onePage, fileOpen, length_patch, Option.getD_none, List.length_nil, Nat.zero_max]
  · have hwrite : ∃ fs, fileWrite (encodePage page) position (onePage pageSize page).fileManager.file =
        .ok (.error "Failed to set file offset") fs ∧ fs.content = [] := by
      rw [fileWrite, nextAccess]
      simp only [run_bind, andThen_ok, run_get, run_set, onePage, fileOpen, noFaults, run_pure, reduceCtorEq, if_false,
        false_or, if_pos (Nat.le_of_not_lt hp)]
      exact ⟨_, rfl, rfl⟩
    obtain ⟨fs, hwrite, hcontent⟩ := hwrite
    rw [fileManagerWrite, run_bind, run_onFileManager (run_onFile hwrite), andThen_ok, run_pure, final_ok, if_neg hp]
    simp only [hcontent, List.length_nil]

/-- Writes at two positions can be told apart when one of them is within reach. -/
theorem position_eq_of_write (hp : p < 2 ^ 63 ∨ q < 2 ^ 63)
    (h : writePageAt p message 0 (onePage pageSize page) = writePageAt q message 0 (onePage pageSize page)) :
    p = q := by
  have hlen := length_writePageAt pageSize p message page
  have hpos := length_encodePage_pos page
  rw [h, length_writePageAt pageSize q message page] at hlen
  split_ifs at hlen <;> omega

theorem pageManagerGetPageOffset_eq (h : pageManagerGetPageSize self = pageSize) (id : Int) :
    pageManagerGetPageOffset self id = ((sizeofFileHeader + id * pageSize) % 2 ^ 64).toNat := by
  rw [pageManagerGetPageOffset, h]

theorem pageManagerGetPageOffset_of_near (h : pageManagerGetPageSize self = pageSize)
    (hpos : pagePosition pageSize k < 2 ^ 32) (hk : k < 2 ^ 31 ∨ pageSize = 0) :
    pageManagerGetPageOffset self (toInt32 k) = pagePosition pageSize k := by
  rw [pageManagerGetPageOffset_eq h]
  rcases hk with hk | rfl
  · rw [toInt32_natCast hk]
    have hcast : (sizeofFileHeader : Int) + k * pageSize = (pagePosition pageSize k : Nat) := by
      simp only [pagePosition, Nat.cast_add, Nat.cast_mul]
    rw [hcast]
    omega
  · simp [pagePosition, sizeofFileHeader]

/-- The id of a page from `2 ^ 31` on is negative. -/
theorem near_of_pageManagerGetPageOffset (h : pageManagerGetPageSize self = pageSize)
    (hpos : pagePosition pageSize k < 2 ^ 32)
    (hoffset : pageManagerGetPageOffset self (toInt32 k) = pagePosition pageSize k) :
    k < 2 ^ 31 ∨ pageSize = 0 := by
  by_contra! hfar
  obtain ⟨hk, hsize⟩ := hfar
  rw [pageManagerGetPageOffset_eq h] at hoffset
  -- Only pages of one byte are that many in a file of this length.
  have hone : pageSize = 1 := by
    by_contra hne
    have hmul : 2 ^ 31 * 2 ≤ k * pageSize := Nat.mul_le_mul hk (by omega)
    unfold pagePosition at hpos
    omega
  subst hone
  unfold pagePosition sizeofFileHeader toInt32 at *
  omega

/-- The routines agree on a page exactly when it lies in the first `2 ^ 32`
bytes and its id is not negative. -/
theorem positionAgrees_iff (pageSize k : Nat) :
    PositionAgrees pageSize k ↔ pagePosition pageSize k < 2 ^ 32 ∧ (k < 2 ^ 31 ∨ pageSize = 0) := by
  constructor
  · intro h
    let page : Page := ⟨{ pageNew (toInt32 k) pageSize |>.pageHeader with pageId := toInt32 k }, []⟩
    have hsize : pageManagerGetPageSize (onePage pageSize page) = pageSize := rfl
    have hpage : page.pageHeader.pageId = toInt32 k := rfl
    have hnew := h.newPage (onePage pageSize page) 0 page hsize (findPage_onePage pageSize page) hpage
    have hchanged := h.changedPage (onePage pageSize page) 0 page hsize (findPage_onePage pageSize page) hpage
    rw [pageManagerWritePageOnDisk_eq (findPage_onePage pageSize page), hpage] at hnew
    rw [writePageOnDisk_eq (findPage_onePage pageSize page), hpage] at hchanged
    have hword := toUInt32_lt (pageManagerGetPageOffset (onePage pageSize page) (toInt32 k))
    have hpos : pagePosition pageSize k < 2 ^ 32 :=
      (position_eq_of_write (Or.inl (hword.trans (by decide))) hnew).symm.trans_lt hword
    have hoffset := position_eq_of_write (Or.inr (hpos.trans (by decide))) hchanged
    exact ⟨hpos, near_of_pageManagerGetPageOffset hsize hpos hoffset⟩
  · rintro ⟨hpos, hk⟩
    refine ⟨?_, ?_, ?_⟩
    · intro self a page hsize ha hid
      rw [pageManagerWritePageOnDisk_eq ha, hid, pageManagerGetPageOffset_of_near hsize hpos hk, toUInt32_of_lt hpos]
    · intro self a page hsize ha hid
      rw [writePageOnDisk_eq ha, hid, pageManagerGetPageOffset_of_near hsize hpos hk]
    · intro self hsize
      exact pageManagerReadPage_eq (pageManagerGetPageOffset_of_near hsize hpos hk)

theorem pagePosition_succ (pageSize k : Nat) : pagePosition pageSize (k + 1) = pagePosition pageSize k + pageSize := by
  simp only [pagePosition, Nat.succ_mul, Nat.add_assoc]

theorem pagePosition_mono {i j : Nat} (h : i ≤ j) : pagePosition pageSize i ≤ pagePosition pageSize j :=
  Nat.add_le_add_left (Nat.mul_le_mul_right pageSize h) sizeofFileHeader

theorem pagePosition_before (pageSize : Nat) {i j : Nat} (h : i < j) :
    pagePosition pageSize i + pageSize ≤ pagePosition pageSize j :=
  (pagePosition_succ pageSize i).symm.trans_le (pagePosition_mono h)

theorem sizeofFileHeader_le_pagePosition (pageSize k : Nat) : sizeofFileHeader ≤ pagePosition pageSize k :=
  Nat.le_add_right _ _

theorem pagePosition_disjoint {i j n : Nat} (hi : pagePosition pageSize i ≤ n ∧ n < pagePosition pageSize i + pageSize)
    (hj : pagePosition pageSize j ≤ n ∧ n < pagePosition pageSize j + pageSize) : i = j ∧ sizeofFileHeader ≤ n := by
  refine ⟨?_, (sizeofFileHeader_le_pagePosition pageSize i).trans hi.1⟩
  rcases Nat.lt_trichotomy i j with h | h | h
  · have := pagePosition_before pageSize h
    omega
  · exact h
  · have := pagePosition_before pageSize h
    omega

end Positions

section Opening

variable {fs : FileState} {bytes : List UInt8} {constants : FileHeaderConstants} {header : FileHeader}
  {faults : Nat → Option IoFault}

def newHeader (constants : FileHeaderConstants) : FileHeader := ⟨constants, ⟨sizeofFileHeader, 0, 0⟩⟩

/-- `file_manager_init` takes a file for empty by its length, and the header of
one that is not stays. -/
structure InitDecides (bytes : List UInt8) : Prop where
  holding : sizeofFileHeader ≤ bytes.length → ∀ constants header,
    (final (fileManagerInit constants ⟨fileOpen (some bytes) noFaults, header⟩)).file.content = bytes
  empty : bytes.length < sizeofFileHeader → ∀ constants header,
    (final (fileManagerInit constants ⟨fileOpen (some bytes) noFaults, header⟩)).file.content =
      encodeFileHeader (newHeader constants)

theorem run_fileRead (ho : fs.isOpen = true) (buffer : List UInt8) (offset : Nat) :
    ∃ r, fileRead buffer offset fs = .ok r { fs with accesses := fs.accesses + 1 } := by
  rw [fileRead, nextAccess]
  simp only [run_bind, andThen_ok, run_get, run_set, ho, reduceCtorEq, if_false, run_pure]
  cases fs.faults fs.accesses with
  | some fault => cases fault <;> exact ⟨_, rfl⟩
  | none =>
    simp only [run_ite, run_pure]
    split_ifs <;> exact ⟨_, rfl⟩

theorem fileManagerReadHeader_content (ho : fs.isOpen = true) (header : FileHeader) :
    ∃ res header', fileManagerReadHeader ⟨fs, header⟩ = .ok res ⟨{ fs with accesses := fs.accesses + 1 }, header'⟩ := by
  obtain ⟨⟨res, read⟩, hread⟩ := run_fileRead ho (encodeFileHeader header) 0
  refine ⟨res, decodeFileHeader read, ?_⟩
  rw [fileManagerReadHeader]
  simp only [run_bind, run_get, andThen_ok]
  rw [run_onFile hread, andThen_ok]
  rfl

theorem fileManagerInit_reads (ho : fs.isOpen = true) (hn : fs.isNew = false) (hsize : sizeofFileHeader ≤ fs.size)
    (constants : FileHeaderConstants) (header : FileHeader) :
    (final (fileManagerInit constants ⟨fs, header⟩)).file.content = fs.content := by
  obtain ⟨res, header', hread⟩ := fileManagerReadHeader_content ho header
  have hone : fs.size ≠ 1 := by unfold sizeofFileHeader at hsize; omega
  have hrewrite : ¬(fs.isNew ∨ fs.size < sizeofFileHeader) := by simp [hn, hsize]
  rw [fileManagerInit]
  simp only [run_bind, run_get, andThen_ok, if_neg hone, if_neg hrewrite, hread, run_pure]
  cases res with
  | error message => rfl
  | ok _ =>
    simp only [returnIfFail, Except.mapError, run_bind, run_get, andThen_ok, run_ite, run_pure]
    split_ifs <;> rfl

theorem fileManagerWriteHeader_new (hf : Reliable fs) (constants : FileHeaderConstants) :
    fileManagerWriteHeader ⟨fs, newHeader constants⟩ = .ok (.ok ())
      ⟨{ fs with
        content := patch fs.content 0 (encodeFileHeader (newHeader constants))
        accesses := fs.accesses + 1 }, newHeader constants⟩ := by
  have hwrite :=
    hf.fileWrite_eq (show 0 < (encodeFileHeader (newHeader constants)).length by simp [sizeofFileHeader]) (show 0 < 2 ^ 63 by decide)
  have hsize : toUInt32 ((sizeofFileHeader : Int) + (0 : Nat) * (constants.pageSize : Int)) = sizeofFileHeader := by
    rw [Nat.cast_zero, zero_mul, add_zero, toUInt32_of_lt (by decide)]
  rw [fileManagerWriteHeader]
  simp only [run_bind, andThen_ok, run_modify, run_get, newHeader, hsize]
  exact run_onFile hwrite

theorem fileManagerInit_writes (hf : Reliable fs) (hsize : fs.size < sizeofFileHeader)
    (constants : FileHeaderConstants) (header : FileHeader) :
    (final (fileManagerInit constants ⟨fs, header⟩)).file.content =
      patch fs.content 0 (encodeFileHeader (newHeader constants)) := by
  obtain ⟨r, hread⟩ := run_fileRead hf.isOpen [0] 0
  have hlog : onFile (fileRead [0] 0) ⟨fs, header⟩ = .ok r ⟨{ fs with accesses := fs.accesses + 1 }, header⟩ :=
    run_onFile hread
  have hrewrite : fs.isNew ∨ fs.size < sizeofFileHeader := Or.inr hsize
  have hlogged : Reliable { fs with accesses := fs.accesses + 1 } := ⟨hf.isOpen, hf.faults⟩
  have hwrite := fileManagerWriteHeader_new hf constants
  have hwriteLogged := fileManagerWriteHeader_new hlogged constants
  rw [newHeader] at hwrite hwriteLogged
  rw [fileManagerInit]
  by_cases hone : fs.size = 1
  · simp only [run_bind, run_get, andThen_ok, if_pos hone, if_pos hrewrite, hlog, run_modify, hwriteLogged,
      run_pure, returnIfFail, Except.mapError, ne_eq, not_true_eq_false, if_false, final_ok, newHeader]
  · simp only [run_bind, run_get, andThen_ok, if_neg hone, if_pos hrewrite, run_modify, hwrite, run_pure, returnIfFail,
      Except.mapError, ne_eq, not_true_eq_false, if_false, final_ok, newHeader]

theorem patch_of_short {new : List UInt8} (h : bytes.length ≤ new.length) : patch bytes 0 new = new := by
  simp [patch, h]

/-- Two files that differ in their signatures have different headers. -/
theorem encodeFileHeader_ne : encodeFileHeader (newHeader ⟨0, 0⟩) ≠ encodeFileHeader (newHeader ⟨1, 0⟩) := by
  intro h
  have hs := congrArg (fun bs => bs.take 4) h
  simp only [encodeFileHeader, newHeader, List.take_left' (length_encodeInt32 _)] at hs
  have hz := congrArg decodeInt32 hs
  rw [decodeInt32_encodeInt32 (by decide) (by decide), decodeInt32_encodeInt32 (by decide) (by decide)] at hz
  exact absurd hz (by decide)

theorem initDecides_iff (bytes : List UInt8) :
    InitDecides bytes ↔ bytes.length < sizeofFileHeader ∨ sizeofFileHeader ≤ bytes.length % 2 ^ 32 := by
  have hsize : (fileOpen (some bytes) noFaults).size = bytes.length % 2 ^ 32 := by
    simp only [fileOpen, Option.getD_some, toUInt32]
    omega
  constructor
  · intro h
    by_contra! hlong
    obtain ⟨hlong, hsmall⟩ := hlong
    have hkept (signature : Int) : patch bytes 0 (encodeFileHeader (newHeader ⟨signature, 0⟩)) = bytes := by
      have hfile : Reliable (fileOpen (some bytes) noFaults) := ⟨rfl, fun _ => rfl⟩
      have hwrites := fileManagerInit_writes hfile (hsize.trans_lt hsmall) ⟨signature, 0⟩ (newHeader ⟨0, 0⟩)
      rw [h.holding hlong] at hwrites
      exact hwrites.symm
    have hfirst (signature : Int) : slice bytes 0 sizeofFileHeader = encodeFileHeader (newHeader ⟨signature, 0⟩) := by
      have hslice := slice_patch_same bytes (encodeFileHeader (newHeader ⟨signature, 0⟩)) 0
      rwa [hkept, Disk.length_encodeFileHeader] at hslice
    exact encodeFileHeader_ne ((hfirst 0).symm.trans (hfirst 1))
  · intro h
    refine ⟨?_, ?_⟩
    · intro hlong constants header
      have hread : sizeofFileHeader ≤ (fileOpen (some bytes) noFaults).size := by omega
      exact fileManagerInit_reads rfl rfl hread constants header
    · intro hshort constants header
      have hless : bytes.length % 2 ^ 32 < sizeofFileHeader := (Nat.mod_le _ _).trans_lt hshort
      rw [fileManagerInit_writes ⟨rfl, fun _ => rfl⟩ (hsize.trans_lt hless)]
      exact patch_of_short (hshort.le.trans_eq (Disk.length_encodeFileHeader _).symm)

end Opening

section Result

/-- The positions of the pages of a file: all routines use the same ones, no two
pages share a byte and none lies in the header. A file that holds a header is
never taken for an empty one. -/
structure PagePositions (pagesCount pageSize : Nat) (bytes : List UInt8) : Prop where
  agrees : ∀ k < pagesCount, PositionAgrees pageSize k
  disjoint : ∀ i < pagesCount, ∀ j < pagesCount, ∀ n,
    pagePosition pageSize i ≤ n ∧ n < pagePosition pageSize i + pageSize →
    pagePosition pageSize j ≤ n ∧ n < pagePosition pageSize j + pageSize → i = j ∧ sizeofFileHeader ≤ n
  init : InitDecides bytes

/-- `page_manager_write_page_on_disk` keeps the position in 32 bits, a page id is a
signed word, and the length of an open file is kept in 32 bits. Within these
bounds, and only there, the positions are right. -/
theorem pagePositions_iff (pagesCount pageSize : Nat) (bytes : List UInt8) :
    PagePositions pagesCount pageSize bytes ↔
      (∀ k < pagesCount, pagePosition pageSize k < 2 ^ 32 ∧ (k < 2 ^ 31 ∨ pageSize = 0)) ∧
      (bytes.length < sizeofFileHeader ∨ sizeofFileHeader ≤ bytes.length % 2 ^ 32) := by
  constructor
  · intro h
    refine ⟨?_, (initDecides_iff bytes).mp h.init⟩
    intro k hk
    exact (positionAgrees_iff pageSize k).mp (h.agrees k hk)
  · rintro ⟨hnear, hlength⟩
    refine ⟨?_, ?_, (initDecides_iff bytes).mpr hlength⟩
    · intro k hk
      exact (positionAgrees_iff pageSize k).mpr (hnear k hk)
    · intro i _ j _ n hi hj
      exact pagePosition_disjoint hi hj

/-- Pages of 4096 bytes, one more than `2 ^ 20` of them. -/
theorem not_pagePositions_4096 : ¬PagePositions (2 ^ 20 + 1) 4096 [] := by
  intro h
  have hlast := h.agrees (2 ^ 20) (Nat.lt_succ_self _)
  have hpos := ((positionAgrees_iff 4096 (2 ^ 20)).mp hlast).1
  exact absurd hpos (by decide)

end Result

end DocumentDb.Storage
