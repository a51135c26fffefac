import DocumentDb.Client.Lexer

namespace DocumentDb.Client

open Lexing

section Parser

/-- What the parser has read since it last finished a part: a path goes on with the
identifier whose word is kept until its filters have been read. -/
inductive Position
  | query
  | functionName
  | path
  | identifier (word : List UInt8)
  | attributeSign (word : List UInt8)
  | bracket (word : List UInt8)
  | bracketSign (word : List UInt8)
  | bracketAttribute (word attributeName : List UInt8)
  | comparison (word attributeName : List UInt8) (op : Nat)
  | filterExpr (word : List UInt8) (filter : FilterExpr)
  | operation
  | finished
  deriving DecidableEq

structure ParserState where
  position : Position
  /-- The name of the function whose path is read. -/
  function : Option (List UInt8)
  query : Query

def nodeValue : Token → Option Element
  | .int value => some (.number value)
  | .double text => some (.double text)
  | .word text => some (.string text)
  | _ => none

def parseError : Fault := .exit "failed to parse query"

/-- One token of the grammar. The actions of a rule are run when its last symbol has been
read: those of filters before the node is added that they stand behind. -/
def shift (state : ParserState) (token : Token) : Except Fault ParserState :=
  match state.position, token with
  | .query, .function name => .ok { state with position := .functionName, function := some name }
  | .query, .word word => .ok { state with position := .identifier word }
  | .functionName, .lparen => .ok { state with position := .path }
  | .path, .word word => .ok { state with position := .identifier word }
  | .identifier word, .lbracket => .ok { state with position := .bracket word }
  | .identifier word, .atSign => .ok { state with position := .attributeSign word }
  | .identifier word, .slash => .ok { state with position := .path, query := addNode state.query word }
  | .identifier word, .rparen =>
    match state.function with
    | none => .error parseError
    | some name =>
      let query := addNode state.query word
      .ok { state with position := .operation, query := { query with func := getFunctionType name } }
  | .identifier word, .eol =>
    match state.function with
    | none => .ok { state with position := .finished, query := addNode state.query word }
    | some _ => .error parseError
  | .attributeSign word, .word name =>
    .ok { state with position := .identifier word, query := addFilter state.query (createFilterByVarName name) }
  | .bracket word, .atSign => .ok { state with position := .bracketSign word }
  | .bracket word, .asterisk => .ok { state with position := .filterExpr word createFilterAll }
  | .bracket word, token =>
    match nodeValue token with
    | none => .error parseError
    | some value => .ok { state with position := .filterExpr word (createFilterSingleValue value) }
  | .bracketSign word, .word name => .ok { state with position := .bracketAttribute word name }
  | .bracketAttribute word name, .comparison op => .ok { state with position := .comparison word name op }
  | .comparison word name op, token =>
    match nodeValue token with
    | none => .error parseError
    | some value => .ok { state with position := .filterExpr word (createFilter name op value) }
  | .filterExpr word filter, .rbracket =>
    .ok { state with position := .identifier word, query := addFilter state.query filter }
  | .operation, .eol => .ok { state with position := .finished }
  | _, _ => .error parseError

/-- The tokens are asked for one by one, so a text that is no token stops the parser only
when it gets there. -/
def yyparse (state : ParserState) (tokens : List (Except Fault Token)) : Except Fault ParserState :=
  tokens.foldlM (fun state token => do shift state (← token)) state

def parserParseCommand (command : List UInt8) : Except Fault Query := do
  let state ← yyparse ⟨.query, none, ⟨.nop, []⟩⟩ (yylex command)
  -- a query may be empty
  if state.position = .query ∨ state.position = .finished then
    return state.query
  else
    throw parseError

end Parser

end DocumentDb.Client
