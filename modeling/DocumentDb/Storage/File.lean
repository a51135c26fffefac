import DocumentDb.Lib.Bytes
import DocumentDb.Util.Result

namespace DocumentDb.Storage

open Bytes

/-- What goes wrong in one access of the disk: the seek, the transfer after some of the bytes have
already been moved, or, when `fwrite` has only filled the buffer of the stream, the `fflush` after some
of the bytes. -/
inductive IoFault
  | seek
  | transfer (bytes : Nat)
  | flush (bytes : Nat)
  deriving DecidableEq, Repr

def bytesMoved (fault : Option IoFault) (size : Nat) : Nat :=
  match fault with
  | none => size
  | some .seek => 0
  | some (.transfer bytes) | some (.flush bytes) => min bytes size

/-- An open file. The accesses are numbered, and the environment decides for
each of them whether it fails. -/
structure FileState where
  content : List UInt8
  isOpen : Bool
  isNew : Bool
  size : Nat
  faults : Nat → Option IoFault
  accesses : Nat

structure FileHeaderConstants where
  signature : Int
  pageSize : Nat
  deriving DecidableEq, Repr

structure FileHeaderDynamic where
  fileSize : Nat
  currentFreePage : Int
  pageCount : Nat
  deriving DecidableEq, Repr

structure FileHeader where
  constants : FileHeaderConstants
  dynamic : FileHeaderDynamic
  deriving DecidableEq, Repr

structure FileManager where
  file : FileState
  header : FileHeader

def sizeofFileHeader : Nat := 20

section Memory

def encodeFileHeader (self : FileHeader) : List UInt8 :=
  encodeInt32 self.constants.signature ++ (encodeUInt32 self.constants.pageSize ++
    (encodeUInt32 self.dynamic.fileSize ++
      (encodeInt32 self.dynamic.currentFreePage ++ encodeUInt32 self.dynamic.pageCount)))

def decodeFileHeader (bs : List UInt8) : FileHeader where
  constants := ⟨decodeInt32 (slice bs 0 4), decodeLE (slice bs 4 4)⟩
  dynamic := ⟨decodeLE (slice bs 8 4), decodeInt32 (slice bs 12 4), decodeLE (slice bs 16 4)⟩

end Memory

section File

variable {σ : Type}

def nextAccess : EStateM Fault FileState (Option IoFault) := do
  let fs ← get
  set { fs with accesses := fs.accesses + 1 }
  return fs.faults fs.accesses

/-- A file that does not exist is created empty. Opening it and finding its size do not fail. -/
def fileOpen (existing : Option (List UInt8)) (faults : Nat → Option IoFault) : FileState where
  content := existing.getD []
  isOpen := true
  isNew := existing.isNone
  size := toUInt32 (existing.getD []).length
  faults := faults
  accesses := 0

/-- What a write leaves in the file. It does not get longer when no byte is moved. -/
def writtenContent (fault : Option IoFault) (data : List UInt8) (offset : Nat) (content : List UInt8) : List UInt8 :=
  if bytesMoved fault data.length = 0 then content
  else patch content offset (data.take (bytesMoved fault data.length))

theorem writtenContent_none {data : List UInt8} (hdata : 0 < data.length) (offset : Nat) (content : List UInt8) :
    writtenContent none data offset content = patch content offset data := by
  rw [writtenContent, bytesMoved, if_neg hdata.ne', List.take_length]

theorem length_writtenContent_ge (fault : Option IoFault) (data : List UInt8) (offset : Nat) (content : List UInt8) :
    content.length ≤ (writtenContent fault data offset content).length := by
  rw [writtenContent]
  split
  · exact le_rfl
  · rw [length_patch]
    exact Nat.le_max_left _ _

/-- The offset is converted to `long`, and a negative one makes `fseek` fail. -/
def fileWrite (data : List UInt8) (offset : Nat) : EStateM Fault FileState (Result Unit) := do
  let fs ← get
  if fs.isOpen = false then
    throw (.assertion "fs->is_open == true")
  let fault ← nextAccess
  if fault = some .seek ∨ 2 ^ 63 ≤ offset then
    return .error "Failed to set file offset"
  if data.length = 0 then
    return .error "Failed to write to file"
  modify fun fs => { fs with content := writtenContent fault data offset fs.content }
  match fault with
  | some (.transfer _) => return .error "Failed to write to file"
  -- What `fflush` reports is not looked at.
  | _ => return .ok ()

/-- The buffer comes back with the bytes that were read, also when the read
fails in the middle or at the end of the file. -/
def fileRead (buffer : List UInt8) (offset : Nat) :
    EStateM Fault FileState (Result Unit × List UInt8) := do
  let fs ← get
  if fs.isOpen = false then
    throw (.assertion "fs->is_open == true")
  let data := slice fs.content offset buffer.length
  match ← nextAccess with
  | some .seek => return (.error "Failed to set file offset", buffer)
  -- A read has nothing to flush.
  | some (.transfer bytes) | some (.flush bytes) =>
    return (.error "Failed to read from file", patch buffer 0 (data.take bytes))
  | none =>
    if 2 ^ 63 ≤ offset then
      return (.error "Failed to set file offset", buffer)
    if buffer.length = 0 ∨ data.length < buffer.length then
      return (.error "Failed to read from file", patch buffer 0 data)
    return (.ok (), data)

end File

section Manager

def onFile {α : Type} (x : EStateM Fault FileState α) : EStateM Fault FileManager α :=
  Program.zoom FileManager.file (fun fs self => { self with file := fs }) x

def fileManagerWriteHeader : EStateM Fault FileManager (Result Unit) := do
  modify fun self => { self with
    header.dynamic.fileSize := toUInt32
      ((sizeofFileHeader : Int) + self.header.dynamic.pageCount * self.header.constants.pageSize) }
  let self ← get
  onFile (fileWrite (encodeFileHeader self.header) 0)

def fileManagerReadHeader : EStateM Fault FileManager (Result Unit) := do
  let self ← get
  let (res, bytes) ← onFile (fileRead (encodeFileHeader self.header) 0)
  modify fun self => { self with header := decodeFileHeader bytes }
  return res

def fileManagerRead (buffer : List UInt8) (offset : Nat) :
    EStateM Fault FileManager (Result Unit × List UInt8) :=
  onFile (fileRead buffer offset)

def fileManagerWrite (data : List UInt8) (offset : Nat) : EStateM Fault FileManager (Result Unit) :=
  onFile (fileWrite data offset)

/-- The file has just been opened by `file_manager_open`. -/
def fileManagerInit (headerForNewFile : FileHeaderConstants) :
    EStateM Fault FileManager (Result Unit) := do
  let self ← get
  if self.file.size = 1 then
    -- The single byte is only logged.
    let _ ← onFile (fileRead [0] 0)
  let res ← do
    if self.file.isNew ∨ self.file.size < sizeofFileHeader then
      modify fun self => { self with header := ⟨headerForNewFile, ⟨sizeofFileHeader, 0, 0⟩⟩ }
      let res ← fileManagerWriteHeader
      pure (returnIfFail res "Failed to write file header")
    else
      let res ← fileManagerReadHeader
      pure (returnIfFail res "Failed to read file header")
  match res with
  | .error message => return .error message
  | .ok () =>
    let self ← get
    if self.header.constants.signature ≠ headerForNewFile.signature then
      return .error "File signature doesn't match"
    return .ok ()

end Manager

end DocumentDb.Storage
