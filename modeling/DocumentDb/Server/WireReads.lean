import DocumentDb.Lib.Reads
import DocumentDb.Server.AttributeFilters

namespace DocumentDb.Server

open Bytes Documents Rpc Program Reads Reading

section Values

inductive NodeValueMember
  | intValue
  | doubleValue
  | stringValue
  | boolValue
  | fileInfoValue
  deriving DecidableEq

def valueCase : RpcNodeValueCase → Option NodeValueMember
  | .notSet => none
  | .intValue _ => some .intValue
  | .doubleValue _ => some .doubleValue
  | .stringValue _ => some .stringValue
  | .boolValue _ => some .boolValue
  | .fileInfoValue => some .fileInfoValue

/-- A node value as the decoder delivers it. Its type may be any number. -/
structure WireNodeValue where
  type : Int32
  value : RpcNodeValueCase
  deriving DecidableEq

def valueTypeOfTag (tag : Int32) : ValueType :=
  if tag = 1 then .int32
  else if tag = 2 then .double
  else if tag = 3 then .string
  else if tag = 4 then .bool
  else if tag = 5 then .fileInfo
  else .unknown

def memberOfType : ValueType → Option NodeValueMember
  | .int32 => some .intValue
  | .double => some .doubleValue
  | .string => some .stringValue
  | .bool => some .boolValue
  | .unknown | .fileInfo => none

def convertFromRpcNodeValueReading (value : WireNodeValue) : Reading NodeValueMember Fault NodeValue :=
  match valueTypeOfTag value.type with
  | .int32 => do return nodeValueOfBytes .int32 (encodeInt32 (← read .intValue (intValue value.value)).toInt)
  | .double => do return nodeValueOfBytes .double (encodeLE 8 (← read .doubleValue (doubleValue value.value)).toNat)
  | .string => do lift (nodeValueStringNew (← read .stringValue (stringValue value.value)))
  | .bool => do return nodeValueOfBytes .bool [if ← read .boolValue (boolValue value.value) then 1 else 0]
  | .unknown | .fileInfo => lift (.error (.exit "Unknown type"))

theorem outcome_convertFromRpcNodeValueReading (value : WireNodeValue) :
    (convertFromRpcNodeValueReading value).outcome =
      convertFromRpcNodeValue ⟨valueTypeOfTag value.type, value.value⟩ := by
  rw [convertFromRpcNodeValueReading, convertFromRpcNodeValue]
  cases valueTypeOfTag value.type with
  | unknown | fileInfo => rfl
  | int32 | double | string | bool =>
      simp only [outcome_bind, outcome_read, outcome_lift, pure, Except.pure]

/-- The converter reads the member that the type asks for, and no other. -/
theorem onlyReads_nodeValue {P : NodeValueMember → Prop} (value : WireNodeValue) :
    OnlyReads P (convertFromRpcNodeValueReading value) ↔
      ∀ member, memberOfType (valueTypeOfTag value.type) = some member → P member := by
  rw [convertFromRpcNodeValueReading]
  cases valueTypeOfTag value.type <;>
    simp [memberOfType, onlyReads_bind, onlyReads_read, onlyReads_pure, onlyReads_lift]

/-- Only the member that is set is read, and a message whose type asks for another one,
or for none, is rejected. -/
structure ReadsSetMember (value : WireNodeValue) : Prop where
  reads : OnlyReads (fun member => valueCase value.value = some member) (convertFromRpcNodeValueReading value)
  rejects : memberOfType (valueTypeOfTag value.type) = none ∨
    memberOfType (valueTypeOfTag value.type) ≠ valueCase value.value →
    ∃ e, (convertFromRpcNodeValueReading value).outcome = .error e

theorem readsSetMember_iff (value : WireNodeValue) :
    ReadsSetMember value ↔ memberOfType (valueTypeOfTag value.type) = none ∨
      memberOfType (valueTypeOfTag value.type) = valueCase value.value := by
  constructor
  · rintro ⟨hreads, _⟩
    have hread := (onlyReads_nodeValue value).mp hreads
    cases hmember : memberOfType (valueTypeOfTag value.type) with
    | none => exact Or.inl rfl
    | some member => exact Or.inr (hread member hmember).symm
  · intro h
    refine ⟨(onlyReads_nodeValue value).mpr ?_, ?_⟩
    · intro member hmember
      rcases h with hnone | hcase
      · rw [hnone] at hmember
        cases hmember
      · exact hcase.symm.trans hmember
    · intro hother
      have hnone : memberOfType (valueTypeOfTag value.type) = none := by tauto
      rw [outcome_convertFromRpcNodeValueReading, convertFromRpcNodeValue]
      cases htype : valueTypeOfTag value.type <;> rw [htype] at hnone <;> cases hnone
      · exact ⟨_, rfl⟩
      · exact ⟨_, rfl⟩

end Values

section Filters

inductive FilterMember
  | stringArgument
  | name
  deriving DecidableEq

structure WireFilter where
  type : Int32
  argument : RpcFilterArgument
  name : Option (List UInt8)
  deriving DecidableEq

def WireFilter.IsSet (filter : WireFilter) : FilterMember → Prop
  | .stringArgument => ∃ value, filter.argument = .stringArgument value
  | .name => filter.name ≠ none

def filterTypeOfTag (tag : Int32) : RpcFilterType :=
  if tag = 1 then .greater
  else if tag = 2 then .less
  else if tag = 3 then .equal
  else if tag = 4 then .notEqual
  else if tag = 5 then .all
  else if tag = 6 then .fieldName
  else .unknownType

def WireFilter.message (filter : WireFilter) : RpcFilter := ⟨filterTypeOfTag filter.type, filter.argument, filter.name⟩

def filterConditionReading (filter : WireFilter) : Reading (WireFilter × FilterMember) Fault NodeConditionFunc :=
  if filterTypeOfTag filter.type = .all then
    return nodeConditionAll
  else
    match filter.name with
    | none => lift (.error (.exit "Filter field name not set"))
    | some name => do
      let name ← read (filter, .name) (.ok name)
      let argument ← read (filter, .stringArgument) (stringArgument filter.argument)
      if containsFileInfoAttribute name then
        return fsNewAttributeCondition name argument
      else
        return fsSingleArgumentCondition argument

def fsNewNodeMatcherArrayReading (filters : List WireFilter) :
    Reading (WireFilter × FilterMember) Fault (List NodeMatcher) := do
  return nodeMatcherArrayNew (← filters.mapM' filterConditionReading)

theorem outcome_filterConditionReading (filter : WireFilter) :
    (filterConditionReading filter).outcome = filterCondition filter.message := by
  obtain ⟨type, argument, name⟩ := filter
  rw [filterConditionReading, filterCondition]
  by_cases hall : filterTypeOfTag type = .all
  · simp only [WireFilter.message, hall, if_true, outcome_pure]
  simp only [WireFilter.message, hall, if_false]
  cases name with
  | none => rfl
  | some name =>
      rw [outcome_bind, outcome_read]
      refine outcome_bind_eq rfl ?_
      intro argument
      split_ifs <;> rfl

theorem outcome_fsNewNodeMatcherArrayReading (filters : List WireFilter) :
    (fsNewNodeMatcherArrayReading filters).outcome = fsNewNodeMatcherArray ⟨filters.map WireFilter.message⟩ := by
  rw [fsNewNodeMatcherArrayReading, fsNewNodeMatcherArray, outcome_bind, outcome_mapM', List.mapM_map]
  simp only [outcome_filterConditionReading]
  rfl

/-- An `ALL` filter, or one with a name and a string, is what the server has a condition for without
reading another member. -/
theorem named_iff (filter : WireFilter) : Named filter.message ↔
    (∃ condition, (filterConditionReading filter).outcome = .ok condition) ∧
      (filter.message.type = .all ∨ filter.name = none ∨ filter.IsSet .stringArgument) := by
  rw [outcome_filterConditionReading]
  constructor
  · intro hnamed
    refine ⟨named_condition hnamed, ?_⟩
    rcases hnamed with hall | ⟨_, argument, _, hargument⟩
    · exact Or.inl hall
    · exact Or.inr (Or.inr ⟨argument, hargument⟩)
  · rintro ⟨⟨condition, hcondition⟩, hset⟩
    rcases filterCondition_cases hcondition with ⟨hall, _⟩ | ⟨hother, name, _, hname, _⟩
    · exact Or.inl hall
    · rcases hset with hall | hnone | ⟨argument, hargument⟩
      · exact absurd hall hother
      · have hnone' : filter.message.name = none := hnone
        rw [hname] at hnone'
        cases hnone'
      · exact Or.inr ⟨name, argument, hname, hargument⟩

theorem onlyReads_filterCondition (filter : WireFilter) :
    OnlyReads (fun field => field.1.IsSet field.2) (filterConditionReading filter) ↔
      filter.message.type = .all ∨ filter.name = none ∨ filter.IsSet .stringArgument := by
  rw [filterConditionReading]
  by_cases hall : filterTypeOfTag filter.type = .all
  · simp [hall, WireFilter.message, onlyReads_pure]
  cases hname : filter.name with
  | none => simp [hall, onlyReads_lift]
  | some name =>
      rw [if_neg hall]
      simp only [onlyReads_bind, onlyReads_read, WireFilter.message, hall, reduceCtorEq, false_or]
      constructor
      · rintro ⟨_, hrest⟩
        exact (hrest name rfl).1
      · intro hset
        refine ⟨by simp [WireFilter.IsSet, hname], ?_⟩
        rintro _ ⟨⟩
        refine ⟨hset, ?_⟩
        intro argument _
        split_ifs <;> exact onlyReads_pure _

/-- Only members that are set are read, and a chain with a filter that the server has no
condition for is rejected. -/
structure ReadsSetMembers (filters : List WireFilter) : Prop where
  reads : OnlyReads (fun field => field.1.IsSet field.2) (fsNewNodeMatcherArrayReading filters)
  rejects : (∃ filter ∈ filters, ¬Named filter.message) →
    ∃ e, (fsNewNodeMatcherArrayReading filters).outcome = .error e

theorem onlyReads_filters_iff (filters : List WireFilter) :
    OnlyReads (fun field => field.1.IsSet field.2) (fsNewNodeMatcherArrayReading filters) ↔
      ∀ k filter, filters[k]? = some filter → (∀ earlier ∈ filters.take k, Named earlier.message) →
        filter.message.type = .all ∨ filter.name = none ∨ filter.IsSet .stringArgument := by
  have hreads : OnlyReads (fun field => field.1.IsSet field.2) (fsNewNodeMatcherArrayReading filters) ↔
      OnlyReads (fun field => field.1.IsSet field.2) (filters.mapM' filterConditionReading) := by
    rw [fsNewNodeMatcherArrayReading, onlyReads_bind]
    exact ⟨fun h => h.1, fun h => ⟨h, fun _ _ => onlyReads_pure _⟩⟩
  rw [hreads, onlyReads_mapM']
  simp only [onlyReads_filterCondition, named_iff]
  exact forall_reached_iff filters

theorem rejects_unnamed {filters : List WireFilter}
    (hreads : OnlyReads (fun field => field.1.IsSet field.2) (fsNewNodeMatcherArrayReading filters))
    (h : ∃ filter ∈ filters, ¬Named filter.message) :
    ∃ e, (fsNewNodeMatcherArrayReading filters).outcome = .error e := by
  rw [outcome_fsNewNodeMatcherArrayReading]
  cases hmatchers : fsNewNodeMatcherArray ⟨filters.map WireFilter.message⟩ with
  | error e => exact ⟨e, rfl⟩
  | ok matchers =>
      obtain ⟨conditions, _, hall⟩ := fsNewNodeMatcherArray_eq_ok.mp hmatchers
      have hok : ∀ filter ∈ filters, ∃ condition, (filterConditionReading filter).outcome = .ok condition := by
        intro filter hfilter
        obtain ⟨condition, _, hcondition⟩ := forall₂_exists hall _ (List.mem_map_of_mem hfilter)
        exact ⟨condition, (outcome_filterConditionReading filter).trans hcondition⟩
      obtain ⟨filter, hfilter, hunnamed⟩ := h
      obtain ⟨k, hk⟩ := List.getElem?_of_mem hfilter
      rw [onlyReads_filters_iff] at hreads
      simp only [named_iff] at hreads hunnamed
      have hset := (forall_reached_iff filters).mpr hreads k filter hk fun earlier hearlier =>
        hok earlier (List.mem_of_mem_take hearlier)
      exact absurd ⟨hok filter hfilter, hset⟩ hunnamed

theorem readsSetMembers_iff (filters : List WireFilter) :
    ReadsSetMembers filters ↔ ∀ k filter, filters[k]? = some filter →
      (∀ earlier ∈ filters.take k, Named earlier.message) →
      filter.message.type = .all ∨ filter.name = none ∨ filter.IsSet .stringArgument := by
  rw [← onlyReads_filters_iff]
  exact ⟨fun h => h.reads, fun h => ⟨h, rejects_unnamed h⟩⟩

end Filters

section Result

/-- A node value is read as its case says exactly when its type asks for that member, or
for none. A chain is, exactly when no filter in it, with only such filters before it that
have a condition, has a name and an argument that is not a string. -/
theorem reads_set_members_iff (value : WireNodeValue) (filters : List WireFilter) :
    (ReadsSetMember value ↔ memberOfType (valueTypeOfTag value.type) = none ∨
      memberOfType (valueTypeOfTag value.type) = valueCase value.value) ∧
    (ReadsSetMembers filters ↔ ∀ k filter, filters[k]? = some filter →
      (∀ earlier ∈ filters.take k, Named earlier.message) →
      filter.message.type = .all ∨ filter.name = none ∨ filter.IsSet .stringArgument) :=
  ⟨readsSetMember_iff value, readsSetMembers_iff filters⟩

/-- A string that is a number, and a filter with a number for its argument. -/
theorem reads_number_as_string :
    ¬ReadsSetMember ⟨3, .intValue 1⟩ ∧ ¬ReadsSetMembers [⟨3, .intArgument 1, some (bytesOf "name")⟩] := by
  constructor
  · intro h
    exact absurd (h.reads .stringValue (by decide)) (by decide)
  · intro h
    obtain ⟨_, hargument⟩ := h.reads (⟨3, .intArgument 1, some (bytesOf "name")⟩, .stringArgument) (by decide)
    cases hargument

end Result

end DocumentDb.Server
