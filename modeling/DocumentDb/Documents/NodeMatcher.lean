import DocumentDb.Common.Structures

namespace DocumentDb.Documents

open Storage

/-- `is_root_node` compares with this id. -/
def rootNodeId : NodeId := ⟨0, 0⟩

def nullNodeId : NodeId := ⟨-1, -1⟩

/-- A condition may stop the program, for a value it was not made for. -/
abbrev NodeConditionFunc := Node → Except Fault Bool

structure NodeMatcher where
  conditions : List NodeConditionFunc

section Conditions

def nodeConditionParentIdEq (nodeId : NodeId) : NodeConditionFunc := fun value =>
  .ok (value.parentId == nodeId)

def nodeConditionAll : NodeConditionFunc := fun _ => .ok true

end Conditions

section Matchers

def nodeMatcherNew (condition : NodeConditionFunc) : NodeMatcher := ⟨[condition]⟩

/-- The conditions are tried in order until one does not hold. -/
def nodeConditionMatches (self : NodeMatcher) (value : Node) : Except Fault Bool :=
  self.conditions.allM fun condition => condition value

def nodeAddCondition (self : NodeMatcher) (condition : NodeConditionFunc) : Except Fault NodeMatcher :=
  if 8 < self.conditions.length then
    .error (.exit "NodeMatcher conditions exceeded maximum value of 10")
  else
    .ok ⟨self.conditions ++ [condition]⟩

def nodeRemoveLastCondition (self : NodeMatcher) : NodeMatcher := ⟨self.conditions.dropLast⟩

def nodeMatcherArrayNew (conditions : List NodeConditionFunc) : List NodeMatcher :=
  conditions.map nodeMatcherNew

end Matchers

end DocumentDb.Documents
