import DocumentDb.Client.Helpers

namespace DocumentDb.Client

open Lexing Rpc Server

section Texts

/-- `s1/s2/.../sn`. -/
def pathText : List (List UInt8) → List UInt8
  | [] => []
  | [s] => s
  | s :: names => s ++ 47 :: pathText names

def functionName : FunctionType → Option (List UInt8)
  | .nop => none
  | .updateOp => some (bytesOf "update")
  | .createOp => some (bytesOf "create")
  | .deleteOp => some (bytesOf "delete")

/-- A command is a path with its filters, alone or in the parentheses of a function. -/
def commandText (func : FunctionType) (text : List UInt8) : List UInt8 :=
  match functionName func with
  | none => text ++ bytesOf "\n"
  | some name => name ++ 40 :: (text ++ bytesOf ")\n")

inductive FilterTokens : List Token → FilterExpr → Prop
  | value {token value} : nodeValue token = some value →
      FilterTokens [.lbracket, token, .rbracket] (createFilterSingleValue value)
  | logical {name op token value} : nodeValue token = some value →
      FilterTokens [.lbracket, .atSign, .word name, .comparison op, token, .rbracket] (createFilter name op value)
  | all : FilterTokens [.lbracket, .asterisk, .rbracket] createFilterAll
  | varName {name} : FilterTokens [.atSign, .word name] (createFilterByVarName name)

structure FilterText (text : List UInt8) (filter : FilterExpr) : Prop where
  tokens : ∃ tokens, yylex text = tokens.map .ok ∧ FilterTokens tokens filter
  start : text.head? = some 91 ∨ text.head? = some 64

end Texts

section Tokens

variable {names : List (List UInt8)} {texts : List (List UInt8)} {filters : List FilterExpr} {rest : List UInt8}

def pathTokens : List (List UInt8) → List Token
  | [] => []
  | [s] => [.word s]
  | s :: names => .word s :: .slash :: pathTokens names

def Stops (rest : List UInt8) : Prop := ∃ c ∈ rest.head?, StopsAt lexRules c ∧ EndsWord c

theorem stopsAt_special {c : UInt8} (hc : c = 10 ∨ c = 40 ∨ c = 41 ∨ c = 64 ∨ c = 91) :
    StopsAt lexRules c ∧ EndsWord c := by
  have hends : EndsWord c := by
    rcases hc with rfl | rfl | rfl | rfl | rfl <;> exact ⟨by decide, by decide⟩
  refine ⟨hends.stopsAt ?_ ?_, hends⟩ <;> rintro rfl <;> simp at hc

theorem yylex_append {text : List UInt8} {tokens : List Token} (htext : yylex text = tokens.map .ok)
    (hrest : Stops rest) : yylex (text ++ rest) = tokens.map .ok ++ yylex rest := by
  obtain ⟨c, hc, hstop, _⟩ := hrest
  cases rest with
  | nil => cases hc
  | cons d rest =>
      cases hc
      exact hstop.lex_append complete_lexRules htext rest

theorem Stops.ends (h : Stops rest) : Ends rest := by
  obtain ⟨c, hc, _, hends⟩ := h
  intro d hd
  rw [Option.mem_def] at hc hd
  rw [hc] at hd
  cases hd
  exact hends

theorem yylex_slash {b : UInt8} (hb : b ≠ 47) (rest : List UInt8) :
    yylex (47 :: b :: rest) = .ok .slash :: yylex (b :: rest) := by
  have hapart : Apart lexRules [47] (b :: rest) := by
    have hdouble : literalLength (bytesOf "//") (47 :: b :: rest) = literalLength (bytesOf "//") [47] := by
      change literalLength [47, 47] _ = 0
      refine if_neg fun hprefix => hb ?_
      exact (List.cons_prefix_cons.mp (List.cons_prefix_cons.mp hprefix).2).1.symm
    rw [Apart, lexRules]
    simp only [List.forall_mem_cons]
    and_intros
    all_goals first
      | exact hdouble
      | rfl
      | exact List.forall_mem_nil _
  rw [yylex, ← List.singleton_append, hapart.lex_eq complete_lexRules (List.cons_ne_nil _ _)
    (show select lexRules [47] = some (literalRule "/" (some .slash)) from rfl)]
  rfl

theorem yylex_path (hwords : ∀ s ∈ names, IsWord s) (hrest : Stops rest) :
    yylex (pathText names ++ rest) = (pathTokens names).map .ok ++ yylex rest := by
  induction names with
  | nil => rfl
  | cons s names ih =>
      obtain ⟨hs, hnames⟩ := List.forall_mem_cons.mp hwords
      cases names with
      | nil => exact hs.yylex hrest.ends
      | cons t names =>
          have ht := hnames t List.mem_cons_self
          obtain ⟨b, u, rfl⟩ := List.exists_cons_of_ne_nil ht.ne_nil
          have hb : b ≠ 47 := by
            rintro rfl
            exact absurd (ht.bytes 47 List.mem_cons_self) (by decide)
          obtain ⟨more, hmore⟩ : ∃ more, pathText ((b :: u) :: names) = b :: more := by
            cases names with
            | nil => exact ⟨u, rfl⟩
            | cons v names => exact ⟨u ++ 47 :: pathText (v :: names), rfl⟩
          have hslash : Ends (47 :: (pathText ((b :: u) :: names) ++ rest)) := by
            rintro c ⟨⟩
            exact ⟨by decide, by decide⟩
          rw [pathText, List.append_assoc, List.cons_append, hs.yylex hslash, hmore, List.cons_append,
            yylex_slash hb, ← List.cons_append, ← hmore, ih hnames]
          · rfl
          · simp

theorem FilterText.stops {text : List UInt8} {filter : FilterExpr} (h : FilterText text filter)
    (rest : List UInt8) : Stops (text ++ rest) := by
  cases text with
  | nil => rcases h.start with hstart | hstart <;> cases hstart
  | cons c text =>
      refine ⟨c, rfl, stopsAt_special ?_⟩
      rcases h.start with hstart | hstart <;> cases hstart <;> simp

theorem exists_filterTokens (h : List.Forall₂ FilterText texts filters) (hrest : Stops rest) :
    Stops (texts.flatten ++ rest) ∧ ∃ tokens : List (List Token), List.Forall₂ FilterTokens tokens filters ∧
      yylex (texts.flatten ++ rest) = tokens.flatten.map .ok ++ yylex rest := by
  induction h with
  | nil => exact ⟨hrest, [], .nil, rfl⟩
  | @cons text filter texts filters htext _ ih =>
      obtain ⟨hstops, tokens, htokens, hlex⟩ := ih
      obtain ⟨first, hfirst, hfilter⟩ := htext.tokens
      rw [List.flatten_cons, List.append_assoc]
      refine ⟨htext.stops _, first :: tokens, .cons hfilter htokens, ?_⟩
      rw [yylex_append hfirst hstops, hlex, List.flatten_cons, List.map_append, List.append_assoc]

def openTokens (func : FunctionType) : List Token :=
  match functionName func with
  | none => []
  | some name => [.function name, .lparen]

def closeTokens (func : FunctionType) : List Token :=
  match functionName func with
  | none => [.eol]
  | some _ => [.rparen, .eol]

theorem stops_of_special {c : UInt8} (hc : c = 10 ∨ c = 40 ∨ c = 41 ∨ c = 64 ∨ c = 91) (rest : List UInt8) :
    Stops (c :: rest) := ⟨c, rfl, stopsAt_special hc⟩

theorem yylex_function {name : List UInt8} (hname : yylex name = [.ok (.function name)]) (rest : List UInt8) :
    yylex (name ++ 40 :: rest) = .ok (.function name) :: .ok .lparen :: yylex rest := by
  have hlparen : yylex (40 :: rest) = .ok .lparen :: yylex rest :=
    yylex_byte (show select lexRules (40 :: rest) = some (literalRule "(" (some .lparen)) from rfl) rfl rfl
  have happend : yylex (name ++ 40 :: rest) = [Token.function name].map .ok ++ yylex (40 :: rest) :=
    yylex_append hname (stops_of_special (by simp) rest)
  rw [happend, hlparen]
  rfl

theorem yylex_command (func : FunctionType) (hwords : ∀ s ∈ names, IsWord s)
    (hfilters : List.Forall₂ FilterText texts filters) :
    ∃ tokens : List (List Token), List.Forall₂ FilterTokens tokens filters ∧
      yylex (commandText func (pathText names ++ texts.flatten)) =
        (openTokens func ++ (pathTokens names ++ (tokens.flatten ++ closeTokens func))).map .ok := by
  have hpath : ∀ rest : List UInt8, Stops rest → ∃ tokens : List (List Token), List.Forall₂ FilterTokens tokens filters ∧
      yylex (pathText names ++ texts.flatten ++ rest) =
        (pathTokens names ++ tokens.flatten).map .ok ++ yylex rest := by
    intro rest hrest
    obtain ⟨hstops, tokens, htokens, hlex⟩ := exists_filterTokens hfilters hrest
    refine ⟨tokens, htokens, ?_⟩
    rw [List.append_assoc, yylex_path hwords hstops, hlex, List.map_append, List.append_assoc]
  have heol : yylex (bytesOf "\n") = [.ok .eol] := rfl
  have hclose : yylex (bytesOf ")\n") = [.ok .rparen, .ok .eol] := rfl
  rw [commandText, openTokens, closeTokens]
  cases hfunction : functionName func with
  | none =>
      obtain ⟨tokens, htokens, hlex⟩ := hpath (bytesOf "\n") (stops_of_special (by simp) [])
      refine ⟨tokens, htokens, ?_⟩
      dsimp only
      rw [hlex, heol]
      simp
  | some name =>
      have hname : yylex name = [.ok (.function name)] := by
        cases func <;> cases hfunction <;> rfl
      obtain ⟨tokens, htokens, hlex⟩ := hpath (bytesOf ")\n") (stops_of_special (by simp) _)
      refine ⟨tokens, htokens, ?_⟩
      dsimp only
      rw [yylex_function hname, hlex, hclose]
      simp

end Tokens

section Parsing

variable {names : List (List UInt8)} {filters : List FilterExpr} {word : List UInt8}
  {function : Option (List UInt8)} {query : Query}

def shiftAll (state : ParserState) (tokens : List Token) : Except Fault ParserState := tokens.foldlM shift state

theorem yyparse_ok (state : ParserState) (tokens : List Token) :
    yyparse state (tokens.map .ok) = shiftAll state tokens := by
  rw [yyparse, shiftAll]
  rw [List.foldlM_map]
  rfl

theorem shiftAll_append {state middle : ParserState} {first : List Token} (h : shiftAll state first = .ok middle)
    (last : List Token) : shiftAll state (first ++ last) = shiftAll middle last := by
  rw [shiftAll] at h ⊢
  rw [List.foldlM_append, h]
  rfl

/-- A filter goes to the node that has been added last, in front of the one that it
stands behind. -/
theorem shiftAll_filter {tokens : List Token} {filter : FilterExpr} (h : FilterTokens tokens filter) :
    shiftAll ⟨.identifier word, function, query⟩ tokens =
      .ok ⟨.identifier word, function, addFilter query filter⟩ := by
  cases h with
  | @value token value hvalue => cases token <;> cases hvalue <;> rfl
  | @logical name op token value hvalue => cases token <;> cases hvalue <;> rfl
  | all => rfl
  | varName => rfl

theorem shiftAll_filters {tokens : List (List Token)} (h : List.Forall₂ FilterTokens tokens filters) :
    shiftAll ⟨.identifier word, function, query⟩ tokens.flatten =
      .ok ⟨.identifier word, function, filters.foldl addFilter query⟩ := by
  induction h generalizing query with
  | nil => rfl
  | cons hfilter _ ih => rw [List.flatten_cons, shiftAll_append (shiftAll_filter hfilter), ih, List.foldl_cons]

theorem shiftAll_path {position : Position} (hposition : position = .query ∨ position = .path)
    (init : List (List UInt8)) (last : List UInt8) :
    shiftAll ⟨position, function, query⟩ (pathTokens (init ++ [last])) =
      .ok ⟨.identifier last, function, init.foldl addNode query⟩ := by
  induction init generalizing position query with
  | nil => rcases hposition with rfl | rfl <;> rfl
  | cons s init ih =>
      have hcons : pathTokens (s :: init ++ [last]) = [.word s, .slash] ++ pathTokens (init ++ [last]) := by
        cases init <;> rfl
      have hstep : shiftAll ⟨position, function, query⟩ [.word s, .slash] =
          .ok ⟨.path, function, addNode query s⟩ := by
        rcases hposition with rfl | rfl <;> rfl
      rw [hcons, shiftAll_append hstep, ih (Or.inr rfl), List.foldl_cons]

def pathQuery (init : List (List UInt8)) (filters : List FilterExpr) (last : List UInt8) : Query :=
  addNode (filters.foldl addFilter (init.foldl addNode ⟨.nop, []⟩)) last

theorem addNode_func (query : Query) (word : List UInt8) : (addNode query word).func = query.func := by
  rw [addNode]
  split
  · rfl
  · split <;> rfl

theorem addFilter_func (query : Query) (filter : FilterExpr) : (addFilter query filter).func = query.func := by
  rw [addFilter]
  split <;> rfl

theorem pathQuery_func (init : List (List UInt8)) (filters : List FilterExpr) (last : List UInt8) :
    (pathQuery init filters last).func = .nop := by
  have hnodes : ∀ query : Query, (init.foldl addNode query).func = query.func := by
    induction init with
    | nil => exact fun query => rfl
    | cons s init ih => exact fun query => (ih _).trans (addNode_func query s)
  have hfilters : ∀ query : Query, (filters.foldl addFilter query).func = query.func := by
    induction filters with
    | nil => exact fun query => rfl
    | cons filter filters ih => exact fun query => (ih _).trans (addFilter_func query filter)
  rw [pathQuery, addNode_func, hfilters, hnodes]

theorem parse_command {texts : List (List UInt8)} (func : FunctionType) (init : List (List UInt8))
    (last : List UInt8) (hwords : ∀ s ∈ init ++ [last], IsWord s)
    (hfilters : List.Forall₂ FilterText texts filters) :
    parserParseCommand (commandText func (pathText (init ++ [last]) ++ texts.flatten)) =
      .ok { pathQuery init filters last with func := func } := by
  obtain ⟨tokens, htokens, hlex⟩ := yylex_command func hwords hfilters
  have hbody : ∀ function position, position = .query ∨ position = .path →
      shiftAll ⟨position, function, ⟨.nop, []⟩⟩ (pathTokens (init ++ [last]) ++ (tokens.flatten ++ closeTokens func)) =
        shiftAll ⟨.identifier last, function, filters.foldl addFilter (init.foldl addNode ⟨.nop, []⟩)⟩
          (closeTokens func) := fun function position hposition => by
    rw [shiftAll_append (shiftAll_path hposition init last), shiftAll_append (shiftAll_filters htokens)]
  rw [parserParseCommand]
  rw [hlex, yyparse_ok]
  rw [openTokens]
  cases hfunction : functionName func with
  | none =>
      have hfunc : func = .nop := by cases func <;> first | rfl | cases hfunction
      dsimp only
      rw [List.nil_append, hbody none .query (Or.inl rfl)]
      subst hfunc
      change Except.ok (pathQuery init filters last) = _
      rw [← pathQuery_func init filters last]
  | some name =>
      have hfunc : getFunctionType name = func := by
        cases func <;> cases hfunction <;> decide
      have hclose : closeTokens func = [.rparen, .eol] := by rw [closeTokens, hfunction]
      dsimp only
      rw [shiftAll_append (show shiftAll ⟨.query, none, ⟨.nop, []⟩⟩ [.function name, .lparen] =
        .ok ⟨.path, some name, ⟨.nop, []⟩⟩ from rfl), hbody (some name) .path (Or.inr rfl), hclose, ← hfunc]
      rfl

end Parsing

section Nodes

variable {func : FunctionType} {first : ParsedNode} {nodes : List ParsedNode} {filters : List FilterExpr}
  {s last : List UInt8} {init : List (List UInt8)}

theorem IsWord.isField (h : IsWord s) : IsField s := by
  refine ⟨h.ne_nil, fun hblank => ?_, fun hzero => ?_⟩
  · exact absurd (h.bytes 32 hblank) (by decide)
  · exact absurd (h.bytes 0 hzero) (by decide)

theorem IsWord.strEq_placeholder (h : IsWord s) : strEq s placeholder = decide (s = placeholder) := by
  have hplaceholder : IsField placeholder := ⟨by decide, by decide, by decide⟩
  rw [strEq_field h.isField hplaceholder, beq_eq_decide]

theorem addNode_append (hfirst : ∀ first ∈ nodes.head?, strEq first.name placeholder = false) (s : List UInt8) :
    addNode ⟨func, nodes⟩ s = ⟨func, nodes ++ [⟨s, []⟩]⟩ := by
  cases nodes with
  | nil => rfl
  | cons first nodes => simp [addNode, hfirst first rfl]

theorem foldl_addNode (hfirst : ∀ first ∈ nodes.head?, strEq first.name placeholder = false)
    (hne : nodes ≠ []) (names : List (List UInt8)) :
    names.foldl addNode ⟨func, nodes⟩ = ⟨func, nodes ++ names.map fun s => ⟨s, []⟩⟩ := by
  induction names generalizing nodes with
  | nil => simp
  | cons s names ih =>
      rw [List.foldl_cons, addNode_append hfirst, ih (by rwa [List.head?_append_of_ne_nil _ hne]) (by simp)]
      simp

theorem addToLast_append (filter : FilterExpr) (nodes : List ParsedNode) (last : ParsedNode) :
    addToLast filter (nodes ++ [last]) = nodes ++ [{ last with filters := last.filters ++ [filter] }] := by
  induction nodes with
  | nil => rfl
  | cons node nodes ih =>
      cases nodes with
      | nil => rfl
      | cons next nodes =>
          change node :: addToLast filter (next :: nodes ++ [last]) = _
          rw [ih]
          rfl

theorem foldl_addFilter (filters : List FilterExpr) (nodes : List ParsedNode) (last : ParsedNode) :
    filters.foldl addFilter ⟨func, nodes ++ [last]⟩ =
      ⟨func, nodes ++ [{ last with filters := last.filters ++ filters }]⟩ := by
  induction filters generalizing last with
  | nil => simp
  | cons filter filters ih =>
      have hstep : addFilter ⟨func, nodes ++ [last]⟩ filter =
          ⟨func, nodes ++ [{ last with filters := last.filters ++ [filter] }]⟩ := by
        rw [← addToLast_append]
        rw [addFilter]
        cases nodes <;> rfl
      rw [List.foldl_cons, hstep, ih]
      simp

theorem pathQuery_one (hne : filters ≠ []) (last : List UInt8) :
    pathQuery [] filters last = ⟨.nop, [⟨last, filters⟩]⟩ := by
  cases filters with
  | nil => exact absurd rfl hne
  | cons filter filters =>
      have hfilters : filters.foldl addFilter ⟨.nop, [] ++ [⟨placeholder, [filter]⟩]⟩ =
          ⟨.nop, [] ++ [⟨placeholder, [filter] ++ filters⟩]⟩ := foldl_addFilter filters [] _
      rw [pathQuery, List.foldl_nil, List.foldl_cons]
      change addNode (filters.foldl addFilter ⟨.nop, [] ++ [⟨placeholder, [filter]⟩]⟩) last = _
      rw [hfilters]
      rfl

theorem pathQuery_longer (hs : strEq s placeholder = false) (init : List (List UInt8)) (filters : List FilterExpr)
    (last : List UInt8) :
    ∃ front back, (front ++ [back]).map ParsedNode.name = s :: init ∧ (∀ node ∈ front, node.filters = []) ∧
      back.filters = filters ∧ pathQuery (s :: init) filters last = ⟨.nop, front ++ [back] ++ [⟨last, []⟩]⟩ := by
  have hnodes : (s :: init).foldl addNode ⟨.nop, []⟩ = ⟨.nop, (s :: init).map fun s => ⟨s, []⟩⟩ :=
    foldl_addNode (by rintro _ ⟨⟩; exact hs) (List.cons_ne_nil ⟨s, []⟩ []) init
  obtain ⟨front, back, hsplit⟩ : ∃ front back, s :: init = front ++ [back] :=
    ⟨_, _, (List.dropLast_append_getLast (List.cons_ne_nil s init)).symm⟩
  refine ⟨front.map fun s => ⟨s, []⟩, ⟨back, filters⟩, ?_, ?_, rfl, ?_⟩
  · rw [hsplit, List.map_append, List.map_map, List.map_singleton]
    exact congrArg (· ++ [back]) (List.map_id front)
  · intro node hnode
    obtain ⟨s, _, rfl⟩ := List.mem_map.mp hnode
    rfl
  · rw [pathQuery, hnodes, hsplit, List.map_append, List.map_singleton, foldl_addFilter, List.nil_append]
    refine addNode_append ?_ last
    cases front with
    | nil =>
        obtain ⟨rfl, _⟩ := List.cons.inj hsplit
        rintro _ ⟨⟩
        exact hs
    | cons t front =>
        obtain ⟨rfl, _⟩ := List.cons.inj hsplit
        rintro _ ⟨⟩
        exact hs

/-- The name of the placeholder in front of a path is lost. -/
theorem pathQuery_placeholder (hne : filters ≠ []) (init : List (List UInt8)) (last : List UInt8) :
    pathQuery (placeholder :: init) filters last = pathQuery init filters last := by
  cases init with
  | nil =>
      have hone : filters.foldl addFilter ⟨.nop, [] ++ [⟨placeholder, []⟩]⟩ =
          ⟨.nop, [] ++ [⟨placeholder, [] ++ filters⟩]⟩ := foldl_addFilter filters [] _
      rw [pathQuery_one hne]
      change addNode (filters.foldl addFilter ⟨.nop, [] ++ [⟨placeholder, []⟩]⟩) last = _
      rw [hone]
      rfl
  | cons t init => rfl

def ShortPath (names : List (List UInt8)) : Prop :=
  names.length = 1 ∨ names.length = 2 ∧ names.head? ≠ some placeholder

/-- The nodes that a path is read to. Filters are found at the first one of as many nodes as
the path has only if it is short. -/
theorem pathQuery_nodes (hwords : ∀ s ∈ init ++ [last], IsWord s) (hne : filters ≠ []) :
    ∃ head rest, (pathQuery init filters last).nodes = head :: rest ∧
      (∀ node ∈ head :: rest, node.name ∈ init ++ [last]) ∧ rest.length ≤ init.length ∧
      (head.filters = [] ∨ head.filters = filters ∧ (rest.length < init.length ∨ ShortPath (init ++ [last]))) := by
  induction init with
  | nil =>
      rw [pathQuery_one hne]
      exact ⟨_, [], rfl, by simp, le_rfl, Or.inr ⟨rfl, Or.inr (Or.inl rfl)⟩⟩
  | cons s init ih =>
      obtain ⟨hs, hinit⟩ := List.forall_mem_cons.mp hwords
      by_cases hplaceholder : s = placeholder
      · subst hplaceholder
        obtain ⟨head, rest, hnodes, hnames, hle, hfilters⟩ := ih hinit
        rw [pathQuery_placeholder hne]
        refine ⟨head, rest, hnodes, fun node hnode => List.mem_cons_of_mem _ (hnames node hnode),
          Nat.le_succ_of_le hle, hfilters.imp_right fun h => ⟨h.1, Or.inl (Nat.lt_succ_of_le hle)⟩⟩
      · have hstr : strEq s placeholder = false := by rw [hs.strEq_placeholder, decide_eq_false hplaceholder]
        obtain ⟨front, back, hnames, hfront, hback, hquery⟩ := pathQuery_longer hstr init filters last
        have hlength := congrArg List.length hnames
        rw [hquery]
        have hall : ∀ node ∈ front ++ [back] ++ [⟨last, []⟩], node.name ∈ s :: init ++ [last] := by
          rw [← hnames]
          intro node hnode
          rcases List.mem_append.mp hnode with hnode | hnode
          · exact List.mem_append_left _ (List.mem_map_of_mem hnode)
          · obtain rfl := List.mem_singleton.mp hnode
            exact List.mem_append_right _ List.mem_cons_self
        cases front with
        | nil =>
            have hone : init = [] := by simpa using hlength
            subst hone
            exact ⟨back, _, rfl, hall, le_rfl, Or.inr ⟨hback, Or.inr (Or.inr ⟨rfl, by simpa using hplaceholder⟩)⟩⟩
        | cons node front =>
            refine ⟨node, front ++ [back] ++ [⟨last, []⟩], rfl, fun other hother => hall other (by simpa using hother), ?_,
              Or.inl (hfront node List.mem_cons_self)⟩
            simp only [List.length_map, List.length_append, List.length_cons, List.length_nil] at hlength ⊢
            omega

end Nodes

section Reading

variable {func : FunctionType} {names : List (List UInt8)} {texts : List (List UInt8)} {first : FilterExpr}
  {filters : List FilterExpr} {query : Query} {init : List (List UInt8)} {last : List UInt8} {room : Nat → Nat}

/-- A query has the names of a path in their order, and the filters behind it at its first
node, where the commands look for them. -/
structure ReadsAs (func : FunctionType) (names : List (List UInt8)) (filters : List FilterExpr) (query : Query) :
    Prop where
  func : query.func = func
  names : query.nodes.map ParsedNode.name = names
  filters : query.nodes.head?.map ParsedNode.filters = some filters

def Sendable (filter : FilterExpr) : Prop :=
  filter.operation = .allOp ∨ ∃ name text, filter.left = some name ∧ filter.right = some (.string text)

theorem sendable_iff : (∃ filter, additionalFilter first = .ok filter) ↔ Sendable first := by
  obtain ⟨operation, left, right, type⟩ := first
  rw [additionalFilter, Sendable]
  dsimp only
  by_cases hall : operation = .allOp
  · simp [hall]
  · rw [if_neg hall]
    cases left with
    | none => simp [hall, derefArg, bind, Except.bind]
    | some name =>
        rcases right with _ | _ | _ | _ | _ <;>
          simp [hall, derefArg, elementString, bind, Except.bind, pure, Except.pure]

theorem readsAs_iff (func : FunctionType) (hwords : ∀ s ∈ init ++ [last], IsWord s) (hne : filters ≠ []) :
    ReadsAs func (init ++ [last]) filters { pathQuery init filters last with func := func } ↔
      ShortPath (init ++ [last]) := by
  cases init with
  | nil =>
      rw [pathQuery_one hne]
      exact ⟨fun _ => Or.inl rfl, fun _ => ⟨rfl, rfl, rfl⟩⟩
  | cons s init =>
      have hs : strEq s placeholder = decide (s = placeholder) :=
        (hwords s (by simp)).strEq_placeholder
      by_cases hplaceholder : s = placeholder
      · subst hplaceholder
        constructor
        · intro hreads
          have hlength := congrArg List.length hreads.names
          obtain ⟨head, rest, hnodes, _, hle, _⟩ := pathQuery_nodes (List.forall_mem_cons.mp hwords).2 hne
          simp only [pathQuery_placeholder hne, hnodes, List.length_map, List.length_append, List.length_cons,
            List.length_nil] at hlength
          omega
        · rintro (hone | ⟨_, hhead⟩)
          · simp at hone
          · exact absurd rfl hhead
      · rw [decide_eq_false hplaceholder] at hs
        obtain ⟨front, back, hnames, hfront, hback, hquery⟩ := pathQuery_longer hs init filters last
        rw [hquery]
        constructor
        · rintro ⟨_, _, hfilters⟩
          refine Or.inr ⟨?_, by simpa using hplaceholder⟩
          cases front with
          | nil =>
              have hinit : init = [] := by simpa using congrArg List.length hnames
              rw [hinit]
              rfl
          | cons node front =>
              simp only [List.cons_append, List.head?_cons, Option.map_some, Option.some.injEq,
                hfront node List.mem_cons_self] at hfilters
              exact absurd hfilters.symm hne
        · rintro (hone | ⟨htwo, _⟩)
          · simp at hone
          · have hinit : init = [] := by simpa using htwo
            subst hinit
            have hfrontNil : front = [] := by
              have hlength := congrArg List.length hnames
              simpa using hlength
            subst hfrontNil
            have hbackName : back.name = s := by simpa using hnames
            exact ⟨rfl, by simp [hbackName], by simp [hback]⟩

theorem convertNodesToFilterChain_reads (hreads : ReadsAs func names (first :: filters) query) {filter : RpcFilter} :
    (additionalFilter first = .ok filter ∧
        convertNodesToFilterChain room query.nodes = .ok ⟨names.map nameFilter ++ [filter]⟩) ↔
      additionalFilter first = .ok filter ∧ names.length < room names.length := by
  obtain ⟨_, rfl, hfilters⟩ := hreads
  refine and_congr_right fun hfilter => ?_
  cases hnodes : query.nodes with
  | nil =>
      rw [hnodes] at hfilters
      cases hfilters
  | cons node nodes =>
      rw [hnodes, List.head?_cons, Option.map_some, Option.some.injEq] at hfilters
      rw [convertNodesToFilterChain]
      simp only [List.head?_cons, assertArgNotNull, bind, Except.bind, hfilters, hfilter, List.length_map, pure,
        Except.pure]
      by_cases hroom : room (nodes.length + 1) ≤ nodes.length + 1
      · simp [hroom, throw, throwThe, MonadExceptOf.throw]
      · simp only [List.length_cons, hroom, if_false, Nat.lt_of_not_le hroom, iff_true, List.map_map]
        rfl

/-- A command with a path and filters is read as it is written exactly when the path is
short, and its chain can be made of it exactly when besides the first filter can be sent
and finds room behind the names. -/
theorem parserParseCommand_reads_iff (func : FunctionType) (room : Nat → Nat) (hne : names ≠ [])
    (hwords : ∀ s ∈ names, IsWord s) (hfilters : List.Forall₂ FilterText texts (first :: filters)) :
    ((∃ query, parserParseCommand (commandText func (pathText names ++ texts.flatten)) = .ok query ∧
        ReadsAs func names (first :: filters) query) ↔ ShortPath names) ∧
      ((∃ query filter, parserParseCommand (commandText func (pathText names ++ texts.flatten)) = .ok query ∧
          ReadsAs func names (first :: filters) query ∧ additionalFilter first = .ok filter ∧
          convertNodesToFilterChain room query.nodes = .ok ⟨names.map nameFilter ++ [filter]⟩) ↔
        ShortPath names ∧ Sendable first ∧ names.length < room names.length) := by
  obtain ⟨init, last, rfl⟩ : ∃ init last, names = init ++ [last] :=
    ⟨_, _, (List.dropLast_append_getLast hne).symm⟩
  rw [parse_command func init last hwords hfilters]
  have hreads := readsAs_iff func hwords (List.cons_ne_nil first filters)
  refine ⟨?reads, ?chain⟩
  case reads =>
    rw [← hreads]
    exact ⟨fun ⟨_, hquery, h⟩ => by cases hquery; exact h, fun h => ⟨_, rfl, h⟩⟩
  case chain =>
    rw [← hreads, ← sendable_iff]
    constructor
    · rintro ⟨_, filter, ⟨⟩, h, hchain⟩
      obtain ⟨hfilter, hroom⟩ := (convertNodesToFilterChain_reads h).mp hchain
      exact ⟨h, ⟨filter, hfilter⟩, hroom⟩
    · rintro ⟨h, ⟨filter, hfilter⟩, hroom⟩
      exact ⟨_, filter, rfl, h, (convertNodesToFilterChain_reads h).mpr ⟨hfilter, hroom⟩⟩

theorem parserParseCommand_reads_iff_one :
    (∃ query, parserParseCommand (commandText .nop (pathText [bytesOf "ssl"] ++ [bytesOf "[*]"].flatten)) =
        .ok query ∧ ReadsAs .nop [bytesOf "ssl"] [createFilterAll] query) ↔ ShortPath [bytesOf "ssl"] := by
  have hword : IsWord (bytesOf "ssl") := isWord_of_all (by decide) (by decide) (by decide)
  have hfilter : FilterText (bytesOf "[*]") createFilterAll := ⟨⟨_, rfl, .all⟩, Or.inl rfl⟩
  exact (parserParseCommand_reads_iff .nop (fun n => n + 1) (List.cons_ne_nil _ [])
    (List.forall_mem_singleton.mpr hword) (.cons hfilter .nil)).1

/-- The filter of a path of three nodes is not at its first one. -/
theorem parserParseCommand_misreads :
    parserParseCommand (commandText .nop (pathText [bytesOf "a", bytesOf "b", bytesOf "c"] ++ bytesOf "[*]")) =
        .ok ⟨.nop, [⟨bytesOf "a", []⟩, ⟨bytesOf "b", [createFilterAll]⟩, ⟨bytesOf "c", []⟩]⟩ ∧
      ∀ query, parserParseCommand (commandText .nop (pathText [bytesOf "a", bytesOf "b", bytesOf "c"] ++
        bytesOf "[*]")) = .ok query →
          ¬ReadsAs .nop [bytesOf "a", bytesOf "b", bytesOf "c"] [createFilterAll] query := by
  have hparse : parserParseCommand (commandText .nop (pathText [bytesOf "a", bytesOf "b", bytesOf "c"] ++
      bytesOf "[*]")) =
        .ok ⟨.nop, [⟨bytesOf "a", []⟩, ⟨bytesOf "b", [createFilterAll]⟩, ⟨bytesOf "c", []⟩]⟩ := (rfl)
  refine ⟨hparse, fun query hquery hreads => ?_⟩
  rw [hparse] at hquery
  cases hquery
  exact absurd hreads.filters (by decide)

end Reading

end DocumentDb.Client
