import DocumentDb.Common.FileInfo

namespace DocumentDb.Client

section Types

inductive FunctionType
  | nop
  | updateOp
  | createOp
  | deleteOp
  deriving DecidableEq, Repr

inductive LogicalOperation
  | noOp
  | equalsOp
  | notEqualsOp
  | lessThanOp
  | greaterThanOp
  | allOp
  deriving DecidableEq, Repr

/-- A double is kept as the text that `atof` reads. -/
inductive Element
  | boolean (value : Bool)
  | number (value : Int)
  | double (text : List UInt8)
  | string (value : List UInt8)
  deriving DecidableEq, Repr

inductive FilterExprType
  | selectByPropName
  | selectByValue
  | selectByLogicalOp
  deriving DecidableEq, Repr

/-- What an allocation that is filled in part leaves out is a null pointer. -/
structure FilterExpr where
  operation : LogicalOperation
  left : Option (List UInt8)
  right : Option Element
  type : FilterExprType
  deriving DecidableEq, Repr

/-- The chain of filters of a node is the list of their expressions. -/
structure ParsedNode where
  name : List UInt8
  filters : List FilterExpr
  deriving DecidableEq, Repr

structure Query where
  func : FunctionType
  nodes : List ParsedNode
  deriving DecidableEq, Repr

end Types

section Filters

/-- The numbers that the lexer gives to the comparisons. -/
def operationOfInt : Nat → LogicalOperation
  | 0 => .equalsOp
  | 1 => .notEqualsOp
  | 2 => .lessThanOp
  | 3 => .greaterThanOp
  | _ => .noOp

def createFilter (attributeName : List UInt8) (op : Nat) (value : Element) : FilterExpr :=
  ⟨operationOfInt op, some attributeName, some value, .selectByLogicalOp⟩

def createFilterSingleValue (value : Element) : FilterExpr :=
  ⟨.noOp, none, some value, .selectByValue⟩

def createFilterByVarName (varName : List UInt8) : FilterExpr :=
  ⟨.noOp, none, some (.string varName), .selectByPropName⟩

def createFilterAll : FilterExpr := ⟨.allOp, none, none, .selectByPropName⟩

end Filters

section Queries

def getFunctionType (func : List UInt8) : FunctionType :=
  if strEq func (bytesOf "update") then .updateOp
  else if strEq func (bytesOf "create") then .createOp
  else if strEq func (bytesOf "delete") then .deleteOp
  else .nop

/-- The name of a node that has been made for the filters in front of it. -/
def placeholder : List UInt8 := bytesOf "_root"

def addNode (query : Query) (node : List UInt8) : Query :=
  match query.nodes with
  | [] => { query with nodes := [⟨node, []⟩] }
  | first :: rest =>
    if strEq first.name placeholder then
      -- filter already applied
      { query with nodes := { first with name := node } :: rest }
    else
      { query with nodes := first :: rest ++ [⟨node, []⟩] }

def addToLast (filter : FilterExpr) : List ParsedNode → List ParsedNode
  | [] => []
  | [node] => [{ node with filters := node.filters ++ [filter] }]
  | node :: nodes => node :: addToLast filter nodes

def addFilter (query : Query) (filter : FilterExpr) : Query :=
  match query.nodes with
  | [] => { query with nodes := [⟨placeholder, [filter]⟩] }
  | nodes => { query with nodes := addToLast filter nodes }

end Queries

end DocumentDb.Client
