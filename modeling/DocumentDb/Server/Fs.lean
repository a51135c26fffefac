import DocumentDb.Common.FileInfo
import DocumentDb.Rpc.Converters

namespace DocumentDb.Server

open Documents Rpc

/-- A pointer to a string, with what comes of reading it. -/
abbrev StringPointer := Except Fault (List UInt8)

def fsNewAttributeCondition (attributeName : List UInt8) (value : StringPointer) : NodeConditionFunc := fun node => do
  if node.value.type ≠ .string then
    throw (.assertion "node.value.type == STRING")
  let string ← node.value.stringValue
  if string.length = 0 then
    throw (.assertion "strlen(node.value.string_value.value) > 0")
  let fileInfo := parseFileInfo string
  let attr ← fileInfoAttributeFromString attributeName
  fileInfoAttributeMatches attr (← value) fileInfo

def fsSingleArgumentCondition (value : StringPointer) : NodeConditionFunc := fun node => do
  if node.value.type ≠ .string then
    throw (.assertion "node.value.type == STRING")
  return strEq (← node.value.stringValue) (← value)

/-- The union of a filter whose `oneof` is not set is a null pointer. Another member that is not zero
passes for a pointer, which is only read when the condition is evaluated. -/
def stringArgument : RpcFilterArgument → Except Fault StringPointer
  | .stringArgument value => .ok (.ok value)
  | .notSet | .intArgument 0 | .doubleArgument 0 | .boolArgument false =>
    .error (.assertion "filter->string_argument")
  | _ => .ok (.error (.undefined "string_argument of another member"))

/-- The condition of one filter. Its type is only asked whether it is `ALL`. -/
def filterCondition (filter : RpcFilter) : Except Fault NodeConditionFunc :=
  if filter.type = .all then
    .ok nodeConditionAll
  else
    match filter.name with
    | none => .error (.exit "Filter field name not set")
    | some name => do
      let argument ← stringArgument filter.argument
      if containsFileInfoAttribute name then
        return fsNewAttributeCondition name argument
      else
        return fsSingleArgumentCondition argument

def fsNewNodeMatcherArray (filterChain : RpcFilterChain) : Except Fault (List NodeMatcher) := do
  return nodeMatcherArrayNew (← filterChain.filters.mapM filterCondition)

end DocumentDb.Server
