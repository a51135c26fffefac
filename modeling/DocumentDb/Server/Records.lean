import DocumentDb.Server.Filters

namespace DocumentDb.Server

open Storage Program Bytes Documents Rpc

section Records

variable {string : List UInt8}

structure IsField (string : List UInt8) : Prop where
  ne_nil : string ≠ []
  no_blank : 32 ∉ string
  no_zero : 0 ∉ string

structure FileRecord where
  field : FileInfoAttributes → List UInt8
  isField : ∀ attr, IsField (field attr)

def FileRecord.text (record : FileRecord) : List UInt8 :=
  record.field .name ++ 32 :: (record.field .owner ++ 32 :: (record.field .accessTime ++
    32 :: record.field .mimeType))

def FileRecord.fileInfo (record : FileRecord) : FileInfo :=
  ⟨some (record.field .name), some (record.field .owner), some (record.field .accessTime),
    some (record.field .mimeType)⟩

theorem IsField.notMem_blanks (h : IsField string) : ∀ b ∈ string, b ∉ bytesOf " " := by
  intro b hb hblank
  obtain rfl : b = 32 := List.mem_singleton.mp hblank
  exact h.no_blank hb

theorem strEq_field {a b : List UInt8} (ha : IsField a) (hb : IsField b) : strEq a b = (a == b) := by
  rw [strEq, cString_eq_self ha.no_zero, cString_eq_self hb.no_zero]

theorem parseFileInfo_text (record : FileRecord) : parseFileInfo record.text = record.fileInfo := by
  have happend := fun (attr : FileInfoAttributes) (rest : List UInt8) =>
    strtok_append (record.isField attr).ne_nil (record.isField attr).notMem_blanks
      (show (32 : UInt8) ∈ bytesOf " " by decide) rest
  have hlast := strtok_last (record.isField .mimeType).ne_nil (record.isField .mimeType).notMem_blanks
  rw [parseFileInfo, FileRecord.text]
  simp only [happend, hlast]
  rfl

theorem FileRecord.zero_notMem_text (record : FileRecord) : 0 ∉ record.text := by
  have hfield := fun attr => (record.isField attr).no_zero
  simp [FileRecord.text, hfield]

theorem FileRecord.text_ne_nil (record : FileRecord) : record.text ≠ [] := by simp [FileRecord.text]

theorem FileRecord.field_fileInfo (record : FileRecord) (attr : FileInfoAttributes) :
    record.fileInfo.field attr = some (record.field attr) := by
  cases attr <;> rfl

end Records

section Evaluation

variable {filter : RpcFilter} {node : Node} {name argument string : List UInt8} {attr : FileInfoAttributes}
  {record : FileRecord}

structure Asks (filter : RpcFilter) (attr : FileInfoAttributes) (argument : List UInt8) : Prop where
  type : filter.type ≠ .all
  name : ∃ name, filter.name = some name ∧ fileInfoAttributeFromString name = .ok attr
  argument : filter.argument = .stringArgument argument

theorem Asks.named (h : Asks filter attr argument) : Named filter := by
  obtain ⟨name, hname, _⟩ := h.name
  exact Or.inr ⟨name, argument, hname, h.argument⟩

theorem Asks.evaluate_string (h : Asks filter attr argument) (hstring : node.value.type = .string)
    (hvalue : node.value.stringValue = .ok string) (hne : string ≠ []) :
    evaluate filter node = fileInfoAttributeMatches attr argument (parseFileInfo string) := by
  obtain ⟨htype, ⟨name, hname, hattr⟩, hargument⟩ := h
  have hcondition : filterCondition filter = .ok (fsNewAttributeCondition name (.ok argument)) := by
    rw [filterCondition]
    rw [if_neg htype, hname, hargument]
    simp only [stringArgument, bind, Except.bind, containsFileInfoAttribute_of_ok hattr, if_true]
    rfl
  rw [evaluate, hcondition]
  simp only [bind, Except.bind, fsNewAttributeCondition, hstring, ne_eq, not_true_eq_false, if_false, hvalue,
    List.length_eq_zero_iff, hne, hattr]

def HasRecord (node : Node) (record : FileRecord) : Prop :=
  node.value.type = .string ∧ node.value.stringValue = .ok record.text

theorem Asks.evaluate_eq (h : Asks filter attr argument) (hrecord : HasRecord node record) :
    evaluate filter node = .ok (strEq (record.field attr) argument) := by
  rw [h.evaluate_string hrecord.1 hrecord.2 record.text_ne_nil, parseFileInfo_text, fileInfoAttributeMatches,
    record.field_fileInfo]

theorem Asks.satisfies_eq (h : Asks filter attr argument) (hrecord : HasRecord node record) :
    satisfies filter node = strEq (record.field attr) argument := by
  rw [satisfies, h.evaluate_eq hrecord]

def Meets (filter : RpcFilter) (record : FileRecord) : Prop :=
  ∃ attr argument, Asks filter attr argument ∧ strEq (record.field attr) argument = true

theorem evaluates_of_asks {nodes : List Node} {filters : List RpcFilter}
    (hnodes : ∀ node ∈ nodes, ∃ record, HasRecord node record)
    (hfilters : ∀ filter ∈ filters, ∃ attr argument, Asks filter attr argument) (id : NodeId) :
    Evaluates nodes filters id := by
  induction filters generalizing id with
  | nil => trivial
  | cons filter filters ih =>
      obtain ⟨⟨attr, argument, hfilter⟩, hrest⟩ := List.forall_mem_cons.mp hfilters
      refine ⟨fun node hnode => ?_, fun first _ => ih hrest first.id⟩
      obtain ⟨record, hrecord⟩ := hnodes node hnode
      exact ⟨_, hfilter.evaluate_eq hrecord⟩

end Evaluation

section Values

variable {record : FileRecord} {value value' : NodeValue}

theorem nodeValueStringNew_text (record : FileRecord) (hlen : record.text.length < 256) :
    ∃ value, nodeValueStringNew record.text = .ok value ∧ value.type = .string ∧
      value.stringValue = .ok record.text := by
  have hself := cString_eq_self record.zero_notMem_text
  have hvalue : nodeValueStringNew record.text =
      .ok (nodeValueOfBytes .string (encodeUInt32 record.text.length ++ record.text)) := by
    rw [nodeValueStringNew, hself, if_neg (Nat.not_le.mpr hlen)]
  obtain ⟨_, htype, hstring, _⟩ := nodeValueStringNew_ok hvalue
  rw [hself] at hstring
  exact ⟨_, hvalue, htype, hstring⟩

theorem exists_recordValue (record : FileRecord) (hlen : record.text.length < 256) :
    ∃ value, convertFromRpcNodeValue ⟨.string, .stringValue record.text⟩ = .ok value ∧
      ∀ id parentId, HasRecord ⟨id, parentId, value⟩ record := by
  obtain ⟨value, hvalue, htype, hstring⟩ := nodeValueStringNew_text record hlen
  exact ⟨value, hvalue, fun id parentId => ⟨htype, hstring⟩⟩

theorem isField_dash : IsField (bytesOf "-") := ⟨by decide, by decide, by decide⟩

def FileRecord.named (name : List UInt8) (hname : IsField name) : FileRecord where
  field
    | .name => name
    | _ => bytesOf "-"
  isField attr := by
    cases attr with
    | name => exact hname
    | owner | accessTime | mimeType => exact isField_dash

def FileRecord.dashes : FileRecord := .named (bytesOf "-") isField_dash

def FileRecord.set (record : FileRecord) (attr : FileInfoAttributes) (string : List UInt8) (h : IsField string) :
    FileRecord where
  field := Function.update record.field attr string
  isField other := by
    by_cases hother : other = attr
    · subst hother
      rw [Function.update_self]
      exact h
    · rw [Function.update_of_ne hother]
      exact record.isField other

variable {string : List UInt8} {attr : FileInfoAttributes}

@[simp] theorem FileRecord.field_set (record : FileRecord) (h : IsField string) :
    (record.set attr string h).field attr = string := Function.update_self ..

theorem FileRecord.field_set_of_ne {other : FileInfoAttributes} (hne : other ≠ attr) (record : FileRecord)
    (h : IsField string) : (record.set attr string h).field other = record.field other :=
  Function.update_of_ne hne ..

theorem FileRecord.length_text_set (attr : FileInfoAttributes) (record : FileRecord) (h : IsField string) :
    (record.set attr string h).text.length + (record.field attr).length = record.text.length + string.length := by
  cases attr <;> simp [FileRecord.text, FileRecord.set, Function.update] <;> omega

theorem FileRecord.length_field_dashes (attr : FileInfoAttributes) : (FileRecord.dashes.field attr).length = 1 := by
  cases attr <;> rfl

theorem FileRecord.length_text_dashes_set (h : IsField string) :
    (FileRecord.dashes.set attr string h).text.length = string.length + 6 := by
  have hlength := FileRecord.length_text_set attr FileRecord.dashes h
  have htext : FileRecord.dashes.text.length = 7 := rfl
  rw [FileRecord.length_field_dashes, htext] at hlength
  omega

end Values

section RoundTrip

variable {record : FileRecord} {string argument : List UInt8} {value : NodeValue}

def FourFields (string : List UInt8) : Prop :=
  ∃ name owner accessTime mimeType : List UInt8,
    string = name ++ 32 :: (owner ++ 32 :: (accessTime ++ 32 :: mimeType)) ∧
    ∀ field ∈ [name, owner, accessTime, mimeType], field ≠ [] ∧ 32 ∉ field

theorem fileInfoToString_fileInfo (record : FileRecord) :
    fileInfoToString record.fileInfo = .ok record.text := by
  have hblank : bytesOf " " = [32] := by decide
  rw [FileRecord.fileInfo, fileInfoToString, FileRecord.text, hblank]
  simp only [List.append_assoc, List.cons_append, List.nil_append]

theorem FourFields.exists_record (h : FourFields string) (hzero : 0 ∉ string) :
    ∃ record : FileRecord, record.text = string := by
  obtain ⟨name, owner, accessTime, mimeType, rfl, hfields⟩ := h
  simp only [List.forall_mem_cons, List.not_mem_nil, false_implies, implies_true, and_true] at hfields
  obtain ⟨⟨hname, hname'⟩, ⟨howner, howner'⟩, ⟨htime, htime'⟩, hmime, hmime'⟩ := hfields
  simp only [List.mem_append, List.mem_cons, not_or] at hzero
  obtain ⟨hname0, _, howner0, _, htime0, _, hmime0⟩ := hzero
  let fileInfo : FileInfo := ⟨some name, some owner, some accessTime, some mimeType⟩
  refine ⟨⟨fun attr => (fileInfo.field attr).getD [], ?_⟩, rfl⟩
  rintro (_ | _ | _ | _)
  · exact ⟨hname, hname', hname0⟩
  · exact ⟨howner, howner', howner0⟩
  · exact ⟨htime, htime', htime0⟩
  · exact ⟨hmime, hmime', hmime0⟩

theorem stringValue_zero_notMem (h : value.stringValue = .ok string) : 0 ∉ string := by
  rw [NodeValue.stringValue] at h
  split at h
  · cases h
    exact zero_notMem_cString _
  · cases h

theorem fileInfoAttributeMatches_fileInfo (record : FileRecord) (attr : FileInfoAttributes) (hzero : 0 ∉ argument) :
    fileInfoAttributeMatches attr argument record.fileInfo = .ok (decide (argument = record.field attr)) := by
  rw [fileInfoAttributeMatches, record.field_fileInfo]
  dsimp only
  rw [strEq, cString_eq_self (record.isField attr).no_zero, cString_eq_self hzero, beq_eq_decide]
  simp only [eq_comm]

/-- A record that is printed and stored is read back, and the server finds it by each of its
fields and by nothing else. A stored text of four fields is printed as it was. -/
theorem fileInfo_roundTrips :
    (∀ record : FileRecord, record.text.length ≤ 255 →
      ∃ value, (fileInfoToString record.fileInfo >>= nodeValueStringNew) = .ok value ∧
        value.type = .string ∧ parseFileInfo <$> value.stringValue = .ok record.fileInfo ∧
        ∀ attr argument, 0 ∉ argument →
          (value.stringValue >>= fun string => fileInfoAttributeMatches attr argument (parseFileInfo string)) =
            .ok (decide (argument = record.field attr))) ∧
    ∀ (value : NodeValue) (string : List UInt8), value.stringValue = .ok string → FourFields string →
      (value.stringValue >>= fun string => fileInfoToString (parseFileInfo string)) = .ok string := by
  constructor
  · intro record hlen
    obtain ⟨value, hvalue, htype, hstring⟩ := nodeValueStringNew_text record (by omega)
    refine ⟨value, by rw [fileInfoToString_fileInfo]; exact hvalue, htype, ?_, fun attr argument hzero => ?_⟩
    · rw [hstring, ← parseFileInfo_text record]
      rfl
    · rw [hstring, ← fileInfoAttributeMatches_fileInfo record attr hzero, ← parseFileInfo_text record]
      rfl
  · intro value string hstring hfields
    obtain ⟨record, rfl⟩ := hfields.exists_record (stringValue_zero_notMem hstring)
    have hparsed : fileInfoToString (parseFileInfo record.text) = .ok record.text := by
      rw [parseFileInfo_text, fileInfoToString_fileInfo]
    rw [hstring]
    exact hparsed

/-- The record whose owner, time and type are dashes. -/
theorem fileInfo_roundTrips_dashes :
    ∃ value, (fileInfoToString FileRecord.dashes.fileInfo >>= nodeValueStringNew) = .ok value ∧
      parseFileInfo <$> value.stringValue = .ok FileRecord.dashes.fileInfo ∧
      (value.stringValue >>= fun string => fileInfoToString (parseFileInfo string)) = .ok (bytesOf "- - - -") := by
  have hdash : (bytesOf "-") ≠ [] ∧ 32 ∉ bytesOf "-" := by decide
  obtain ⟨value, hvalue, _, hparsed, _⟩ := fileInfo_roundTrips.1 FileRecord.dashes (by decide)
  refine ⟨value, hvalue, hparsed, fileInfo_roundTrips.2 value _ ?_ ?_⟩
  · rw [fileInfoToString_fileInfo] at hvalue
    have hnew : nodeValueStringNew FileRecord.dashes.text = .ok value := hvalue
    have htext : cString FileRecord.dashes.text = bytesOf "- - - -" := by decide
    rw [← htext]
    exact (nodeValueStringNew_ok hnew).2.2.1
  · exact ⟨bytesOf "-", bytesOf "-", bytesOf "-", bytesOf "-", by decide, by simp [hdash]⟩

end RoundTrip

end DocumentDb.Server
