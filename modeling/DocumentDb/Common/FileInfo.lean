import DocumentDb.Common.Structures

namespace DocumentDb

open Bytes

section Strings

def bytesOf (string : String) : List UInt8 := string.toUTF8.data.toList

/-- `strcmp(a, b) == 0`. -/
def strEq (a b : List UInt8) : Bool := cString a == cString b

/-- `strtok`: a token, and what is kept for the next call. -/
def strtok (string delimiters : List UInt8) : Option (List UInt8) × List UInt8 :=
  match string.dropWhile (· ∈ delimiters) with
  | [] => (none, [])
  | b :: bs =>
    (some ((b :: bs).takeWhile (· ∉ delimiters)), ((b :: bs).dropWhile (· ∉ delimiters)).drop 1)

theorem strtok_last {token delimiters : List UInt8} (hne : token ≠ []) (htoken : ∀ b ∈ token, b ∉ delimiters) :
    strtok token delimiters = (some token, []) := by
  cases token with
  | nil => exact absurd rfl hne
  | cons b bs =>
      have hb := htoken b List.mem_cons_self
      have hall : ∀ c ∈ b :: bs, decide (c ∉ delimiters) = true := fun c hc => decide_eq_true (htoken c hc)
      rw [strtok, List.dropWhile_cons_of_neg (by simpa using hb)]
      simp only [List.takeWhile_eq_self_iff.mpr hall, List.dropWhile_eq_nil_iff.mpr hall, List.drop_nil]

theorem strtok_append {token delimiters : List UInt8} {d : UInt8} (hne : token ≠ [])
    (htoken : ∀ b ∈ token, b ∉ delimiters) (hd : d ∈ delimiters) (rest : List UInt8) :
    strtok (token ++ d :: rest) delimiters = (some token, rest) := by
  cases token with
  | nil => exact absurd rfl hne
  | cons b bs =>
      have hb := htoken b List.mem_cons_self
      have hall : ∀ c ∈ b :: bs, decide (c ∉ delimiters) = true := fun c hc => decide_eq_true (htoken c hc)
      rw [strtok, List.cons_append, List.dropWhile_cons_of_neg (by simpa using hb)]
      dsimp only
      rw [← List.cons_append, List.takeWhile_append_of_pos hall, List.dropWhile_append_of_pos hall,
        List.takeWhile_cons_of_neg (by simpa using hd), List.dropWhile_cons_of_neg (by simpa using hd),
        List.append_nil, List.drop_one, List.tail_cons]

def isDigit (b : UInt8) : Bool := 48 ≤ b && b ≤ 57

/-- `atoi`: blanks, a sign, and digits up to the first byte that is none. What it does with
a number that does not fit is not defined. -/
def atoi (string : List UInt8) : Except Fault Int :=
  let string := (cString string).dropWhile fun b => b == 32 || (9 ≤ b && b ≤ 13)
  let rest := if string.head? = some 45 ∨ string.head? = some 43 then string.tail else string
  let magnitude : Nat := (rest.takeWhile isDigit).foldl (fun n b => 10 * n + (b - 48).toNat) 0
  let value : Int := if string.head? = some 45 then -(magnitude : Int) else magnitude
  if -2 ^ 31 ≤ value ∧ value < 2 ^ 31 then .ok value else .error (.undefined "atoi out of range")

end Strings

section FileInfo

structure FileInfo where
  name : Option (List UInt8)
  owner : Option (List UInt8)
  accessTime : Option (List UInt8)
  mimeType : Option (List UInt8)
  deriving DecidableEq

inductive FileInfoAttributes
  | name
  | owner
  | accessTime
  | mimeType
  deriving DecidableEq

def parseFileInfo (fileInfo : List UInt8) : FileInfo :=
  let (name, rest) := strtok fileInfo (bytesOf " ")
  let (owner, rest) := strtok rest (bytesOf " ")
  let (accessTime, rest) := strtok rest (bytesOf " ")
  let (mimeType, _) := strtok rest (bytesOf " ")
  ⟨name, owner, accessTime, mimeType⟩

/-- `sprintf` with `%s` for a field that is not set reads a null pointer. -/
def fileInfoToString (fileInfo : FileInfo) : Except Fault (List UInt8) :=
  match fileInfo with
  | ⟨some name, some owner, some accessTime, some mimeType⟩ =>
    .ok (name ++ bytesOf " " ++ owner ++ bytesOf " " ++ accessTime ++ bytesOf " " ++ mimeType)
  | _ => .error (.undefined "null string")

def fileInfoSetAttribute (fileInfo : FileInfo) (attr : FileInfoAttributes) (value : List UInt8) : FileInfo :=
  match attr with
  | .name => { fileInfo with name := some value }
  | .owner => { fileInfo with owner := some value }
  | .accessTime => { fileInfo with accessTime := some value }
  | .mimeType => { fileInfo with mimeType := some value }

def containsFileInfoAttribute (attributeName : List UInt8) : Bool :=
  strEq attributeName (bytesOf "name") || strEq attributeName (bytesOf "owner") ||
    strEq attributeName (bytesOf "access_time") || strEq attributeName (bytesOf "mime_type")

def fileInfoAttributeFromString (attributeName : List UInt8) : Except Fault FileInfoAttributes :=
  if strEq attributeName (bytesOf "name") then .ok .name
  else if strEq attributeName (bytesOf "owner") then .ok .owner
  else if strEq attributeName (bytesOf "access_time") then .ok .accessTime
  else if strEq attributeName (bytesOf "mime_type") then .ok .mimeType
  else .error (.exit "Unknown file info attribute")

def FileInfo.field (fileInfo : FileInfo) : FileInfoAttributes → Option (List UInt8)
  | .name => fileInfo.name
  | .owner => fileInfo.owner
  | .accessTime => fileInfo.accessTime
  | .mimeType => fileInfo.mimeType

/-- A field that the string did not have is a null pointer. -/
def fileInfoAttributeMatches (attr : FileInfoAttributes) (value : List UInt8) (fileInfo : FileInfo) :
    Except Fault Bool :=
  match fileInfo.field attr with
  | some text => .ok (strEq text value)
  | none => .error (.undefined "null string")

end FileInfo

end DocumentDb
