import DocumentDb.Client.Paths

namespace DocumentDb.Client

open Lexing

section Productions

inductive DerivesNodeValue : List Token → Element → Prop
  | int (value : Int) : DerivesNodeValue [.int value] (.number value)
  | double (text : List UInt8) : DerivesNodeValue [.double text] (.double text)
  | word (text : List UInt8) : DerivesNodeValue [.word text] (.string text)

inductive DerivesAttribute : List Token → List UInt8 → Prop
  | word (name : List UInt8) : DerivesAttribute [.atSign, .word name] name

inductive DerivesCompareOp : List Token → Nat → Prop
  | comparison (op : Nat) : DerivesCompareOp [.comparison op] op

inductive DerivesFilterExpr : List Token → FilterExpr → Prop
  | value {ts value} : DerivesNodeValue ts value → DerivesFilterExpr ts (createFilterSingleValue value)
  | comparison {ts us vs name op value} : DerivesAttribute ts name → DerivesCompareOp us op →
      DerivesNodeValue vs value → DerivesFilterExpr (ts ++ us ++ vs) (createFilter name op value)
  | all : DerivesFilterExpr [.asterisk] createFilterAll

inductive DerivesFilter : List Token → FilterExpr → Prop
  | bracket {ts f} : DerivesFilterExpr ts f → DerivesFilter ([.lbracket] ++ ts ++ [.rbracket]) f
  | sign {ts name} : DerivesAttribute ts name → DerivesFilter ts (createFilterByVarName name)

/-- From here on a rule also says what its actions make of the query. -/
inductive DerivesFilters : List Token → Query → Query → Prop
  | one {ts f q} : DerivesFilter ts f → DerivesFilters ts q (addFilter q f)
  | more {ts us f q q'} : DerivesFilters ts q q' → DerivesFilter us f → DerivesFilters (ts ++ us) q (addFilter q' f)

inductive DerivesIdentifier : List Token → Query → Query → List UInt8 → Prop
  | word {word q} : DerivesIdentifier [.word word] q q word
  | filters {ts word q q'} : DerivesFilters ts q q' → DerivesIdentifier ([.word word] ++ ts) q q' word

inductive DerivesPath : List Token → Query → Query → Prop
  | identifier {ts word q q'} : DerivesIdentifier ts q q' word → DerivesPath ts q (addNode q' word)
  | slash {ts us word q q' q''} : DerivesPath ts q q' → DerivesIdentifier us q' q'' word →
      DerivesPath (ts ++ [.slash] ++ us) q (addNode q'' word)

inductive DerivesFunctionName : List Token → List UInt8 → Prop
  | function (name : List UInt8) : DerivesFunctionName [.function name] name

inductive DerivesFunctionCall : List Token → Query → Query → Prop
  | call {ts us name q q'} : DerivesFunctionName ts name → DerivesPath us q q' →
      DerivesFunctionCall (ts ++ [.lparen] ++ us ++ [.rparen]) q { q' with func := getFunctionType name }

inductive DerivesOperation : List Token → Query → Query → Prop
  | path {ts q q'} : DerivesPath ts q q' → DerivesOperation ts q q'
  | functionCall {ts q q'} : DerivesFunctionCall ts q q' → DerivesOperation ts q q'

inductive DerivesQuery : List Token → Query → Query → Prop
  | empty {q} : DerivesQuery [] q q
  | operation {ts q q'} : DerivesOperation ts q q' → DerivesQuery (ts ++ [.eol]) q q'

end Productions

section Completeness

variable {q q' : Query} {ts us : List Token} {f : FilterExpr} {value : Element} {word : List UInt8}
  {function : Option (List UInt8)} {s s' s'' : ParserState}

theorem shiftAll_trans (h : shiftAll s ts = .ok s') (h' : shiftAll s' us = .ok s'') :
    shiftAll s (ts ++ us) = .ok s'' :=
  (shiftAll_append h us).trans h'

theorem shiftAll_derives_filterExpr (h : DerivesFilterExpr ts f) :
    shiftAll ⟨.bracket word, function, q⟩ ts = .ok ⟨.filterExpr word f, function, q⟩ := by
  cases h with
  | value hvalue => cases hvalue <;> rfl
  | comparison hname hop hvalue =>
      cases hname
      cases hop
      cases hvalue <;> rfl
  | all => rfl

theorem shiftAll_derives_filter (h : DerivesFilter ts f) :
    shiftAll ⟨.identifier word, function, q⟩ ts = .ok ⟨.identifier word, function, addFilter q f⟩ := by
  cases h with
  | bracket hexpr => exact shiftAll_trans (shiftAll_trans rfl (shiftAll_derives_filterExpr hexpr)) rfl
  | sign hname =>
      cases hname
      rfl

theorem shiftAll_derives_filters (h : DerivesFilters ts q q') :
    shiftAll ⟨.identifier word, function, q⟩ ts = .ok ⟨.identifier word, function, q'⟩ := by
  induction h with
  | one hfilter => exact shiftAll_derives_filter hfilter
  | more _ hfilter ih => exact shiftAll_trans ih (shiftAll_derives_filter hfilter)

theorem shiftAll_derives_identifier (h : DerivesIdentifier ts q q' word) :
    shiftAll ⟨.path, function, q⟩ ts = .ok ⟨.identifier word, function, q'⟩ := by
  cases h with
  | word => rfl
  | filters hfilters => exact shiftAll_trans rfl (shiftAll_derives_filters hfilters)

/-- A path is read up to its last identifier, whose node the next token adds. -/
theorem shiftAll_derives_path (h : DerivesPath ts q q') :
    ∃ q₁ word, q' = addNode q₁ word ∧ shiftAll ⟨.path, function, q⟩ ts = .ok ⟨.identifier word, function, q₁⟩ := by
  induction h with
  | identifier hident => exact ⟨_, _, rfl, shiftAll_derives_identifier hident⟩
  | slash _ hident ih =>
      obtain ⟨q₁, word, rfl, hpath⟩ := ih
      exact ⟨_, _, rfl, shiftAll_trans (shiftAll_trans hpath rfl) (shiftAll_derives_identifier hident)⟩

theorem shiftAll_derives_query (h : DerivesPath ts q q') :
    shiftAll ⟨.query, none, q⟩ ts = shiftAll ⟨.path, none, q⟩ ts := by
  have hword : ∀ {us q q' word}, DerivesIdentifier us q q' word → ∃ w vs, us = .word w :: vs := fun h => by
    cases h with
    | word => exact ⟨_, _, rfl⟩
    | filters => exact ⟨_, _, rfl⟩
  have hfirst : ∃ w us, ts = .word w :: us := by
    induction h with
    | identifier hident => exact hword hident
    | slash _ _ ih =>
        obtain ⟨w, us, rfl⟩ := ih
        exact ⟨w, _, rfl⟩
  obtain ⟨w, us, rfl⟩ := hfirst
  rfl

theorem shiftAll_derives_operation (h : DerivesQuery ts q q') (hne : ts ≠ []) :
    ∃ function, shiftAll ⟨.query, none, q⟩ ts = .ok ⟨.finished, function, q'⟩ := by
  cases h with
  | empty => exact absurd rfl hne
  | operation hop =>
      cases hop with
      | path hpath =>
          obtain ⟨q₁, word, rfl, hread⟩ := shiftAll_derives_path hpath
          exact ⟨none, shiftAll_trans ((shiftAll_derives_query hpath).trans hread) rfl⟩
      | functionCall hcall =>
          cases hcall with
          | call hname hpath =>
              cases hname
              obtain ⟨q₁, word, rfl, hread⟩ := shiftAll_derives_path hpath
              exact ⟨_, shiftAll_trans (shiftAll_trans (shiftAll_trans rfl hread) rfl) rfl⟩

end Completeness

section Prefixes

def noQuery : Query := ⟨.nop, []⟩

inductive Opens : Option (List UInt8) → List Token → Prop
  | path : Opens none []
  | call (name : List UInt8) : Opens (some name) ([.function name] ++ [.lparen])

inductive PathStart : List Token → Query → Prop
  | first : PathStart [] noQuery
  | next {ts q} : DerivesPath ts noQuery q → PathStart (ts ++ [.slash]) q

inductive FilterStart : Position → List UInt8 → List Token → Prop
  | identifier (word : List UInt8) : FilterStart (.identifier word) word []
  | attributeSign (word : List UInt8) : FilterStart (.attributeSign word) word [.atSign]
  | bracket (word : List UInt8) : FilterStart (.bracket word) word [.lbracket]
  | bracketSign (word : List UInt8) : FilterStart (.bracketSign word) word ([.lbracket] ++ [.atSign])
  | bracketAttribute {ts name word} : DerivesAttribute ts name →
      FilterStart (.bracketAttribute word name) word ([.lbracket] ++ ts)
  | comparison {ts us name op word} : DerivesAttribute ts name → DerivesCompareOp us op →
      FilterStart (.comparison word name op) word ([.lbracket] ++ (ts ++ us))
  | filterExpr {ts f word} : DerivesFilterExpr ts f → FilterStart (.filterExpr word f) word ([.lbracket] ++ ts)

inductive Reads : List Token → ParserState → Prop
  | query : Reads [] ⟨.query, none, noQuery⟩
  | functionName (name : List UInt8) : Reads [.function name] ⟨.functionName, some name, noQuery⟩
  | path {ts us function q} : Opens function ts → PathStart us q → Reads (ts ++ us) ⟨.path, function, q⟩
  | inside {ts us vs ws function position word q q'} : Opens function ts → PathStart us q →
      DerivesIdentifier vs q q' word → FilterStart position word ws →
      Reads (ts ++ us ++ vs ++ ws) ⟨position, function, q'⟩
  | operation {ts function q} : DerivesOperation ts noQuery q → Reads ts ⟨.operation, function, q⟩
  | finished {ts function q} : DerivesQuery ts noQuery q → Reads ts ⟨.finished, function, q⟩

end Prefixes

section Soundness

variable {ts us : List Token} {q q' : Query} {f : FilterExpr} {word : List UInt8} {t : Token} {s s' : ParserState}
  {position : Position}

theorem DerivesIdentifier.filter (h : DerivesIdentifier ts q q' word) (hfilter : DerivesFilter us f) :
    DerivesIdentifier (ts ++ us) q (addFilter q' f) word := by
  cases h with
  | word => exact .filters (.one hfilter)
  | filters hfilters =>
      rw [List.append_assoc]
      exact .filters (.more hfilters hfilter)

theorem PathStart.identifier (h : PathStart ts q) (hident : DerivesIdentifier us q q' word) :
    DerivesPath (ts ++ us) noQuery (addNode q' word) := by
  cases h with
  | first => exact .identifier hident
  | next hpath => exact .slash hpath hident

theorem shift_inside {fs : List Token} {function : Option (List UInt8)} {pre start : List Token}
    (hopens : Opens function pre) (hstart : PathStart start q) (hident : DerivesIdentifier us q q' word)
    (hfilter : FilterStart position word fs) (h : shift ⟨position, function, q'⟩ t = .ok s') :
    Reads (pre ++ start ++ us ++ fs ++ [t]) s' := by
  have inside : ∀ {next fs'}, FilterStart next word fs' → fs' = fs ++ [t] →
      Reads (pre ++ start ++ us ++ fs ++ [t]) ⟨next, function, q'⟩ := fun hnext heq => by
    rw [List.append_assoc, ← heq]
    exact .inside hopens hstart hident hnext
  have filtered : ∀ {f}, DerivesFilter (fs ++ [t]) f →
      Reads (pre ++ start ++ us ++ fs ++ [t]) ⟨.identifier word, function, addFilter q' f⟩ := fun hf => by
    have hnext := Reads.inside hopens hstart (hident.filter hf) (.identifier word)
    simpa only [List.append_nil, List.append_assoc] using hnext
  cases hfilter with
  | identifier word =>
      have hpath := hstart.identifier hident
      cases t <;> try cases h
      case identifier.lbracket.refl => exact inside (.bracket word) rfl
      case identifier.atSign.refl => exact inside (.attributeSign word) rfl
      case identifier.slash.refl =>
          have hnext := Reads.path hopens (.next hpath)
          simpa only [List.append_nil, List.append_assoc] using hnext
      case identifier.rparen =>
          cases hopens with
          | path => cases h
          | call name =>
              cases h
              have hcall := @Reads.operation _ (some name) _ (.functionCall (.call (.function name) hpath))
              simpa only [List.append_nil, List.append_assoc] using hcall
      case identifier.eol =>
          cases hopens with
          | path =>
              cases h
              have hquery := @Reads.finished _ none _ (.operation (.path hpath))
              simpa only [List.append_nil, List.nil_append, List.append_assoc] using hquery
          | call name => cases h
  | attributeSign word =>
      cases t <;> cases h
      exact filtered (.sign (.word _))
  | bracket word =>
      cases t <;> try cases h
      case bracket.atSign.refl => exact inside (.bracketSign word) rfl
      case bracket.asterisk.refl => exact inside (.filterExpr .all) rfl
      case bracket.int.refl value => exact inside (.filterExpr (.value (.int value))) rfl
      case bracket.word.refl text => exact inside (.filterExpr (.value (.word text))) rfl
      case bracket.double.refl text => exact inside (.filterExpr (.value (.double text))) rfl
  | bracketSign word =>
      cases t <;> cases h
      exact inside (.bracketAttribute (.word _)) rfl
  | bracketAttribute hname =>
      cases t <;> cases h
      exact inside (.comparison hname (.comparison _)) (by simp)
  | comparison hname hop =>
      cases t <;> try cases h
      case comparison.int.refl value => exact inside (.filterExpr (.comparison hname hop (.int value))) (by simp)
      case comparison.word.refl text => exact inside (.filterExpr (.comparison hname hop (.word text))) (by simp)
      case comparison.double.refl text => exact inside (.filterExpr (.comparison hname hop (.double text))) (by simp)
  | filterExpr hexpr =>
      cases t <;> cases h
      exact filtered (.bracket hexpr)

theorem shift_reads (hreads : Reads ts s) (h : shift s t = .ok s') : Reads (ts ++ [t]) s' := by
  cases hreads with
  | query =>
      cases t <;> cases h
      case function.refl name => exact .functionName name
      case word.refl word =>
          have hnext := Reads.inside .path .first .word (.identifier word)
          exact hnext
  | functionName name =>
      cases t <;> cases h
      have hnext := Reads.path (.call name) .first
      exact hnext
  | path hopens hstart =>
      cases t <;> cases h
      case word.refl word =>
          have hnext := Reads.inside hopens hstart .word (.identifier word)
          simpa only [List.append_nil] using hnext
  | inside hopens hstart hident hfilter => exact shift_inside hopens hstart hident hfilter h
  | operation hop =>
      cases t <;> cases h
      exact .finished (.operation hop)
  | finished hquery => cases t <;> cases h

theorem shiftAll_reads (h : shiftAll ⟨.query, none, noQuery⟩ ts = .ok s) : Reads ts s := by
  induction ts using List.reverseRecOn generalizing s with
  | nil =>
      cases h
      exact .query
  | append_singleton ts t ih =>
      rw [shiftAll, List.foldlM_append] at h
      cases hread : List.foldlM shift ⟨.query, none, noQuery⟩ ts with
      | error e =>
          rw [hread] at h
          cases h
      | ok s₁ =>
          rw [hread] at h
          have hlast : (shift s₁ t >>= pure) = .ok s := h
          rw [bind_pure] at hlast
          exact shift_reads (ih hread) hlast

end Soundness

section Parsing

variable {state state' : ParserState} {tokens : List (Except Fault Token)}

theorem exists_of_yyparse (h : yyparse state tokens = .ok state') : ∃ ts : List Token, tokens = ts.map .ok := by
  induction tokens generalizing state with
  | nil => exact ⟨[], rfl⟩
  | cons token tokens ih =>
      cases token with
      | error e => cases h
      | ok t =>
          change (shift state t >>= fun next => yyparse next tokens) = _ at h
          cases hshift : shift state t with
          | error e =>
              rw [hshift] at h
              cases h
          | ok next =>
              rw [hshift] at h
              obtain ⟨ts, rfl⟩ := ih h
              exact ⟨t :: ts, rfl⟩

theorem Reads.derives {ts : List Token} {s : ParserState} (h : Reads ts s)
    (hend : s.position = .query ∨ s.position = .finished) : DerivesQuery ts noQuery s.query := by
  cases h with
  | query => exact .empty
  | functionName name => rcases hend with hend | hend <;> cases hend
  | path => rcases hend with hend | hend <;> cases hend
  | inside _ _ _ hfilter => cases hfilter <;> rcases hend with hend | hend <;> cases hend
  | operation => rcases hend with hend | hend <;> cases hend
  | finished hquery => exact hquery

theorem DerivesQuery.eq_of_nil {q q' : Query} (h : DerivesQuery [] q q') : q' = q := by
  generalize hts : [] = ts at h
  cases h with
  | empty => rfl
  | operation => exact absurd hts.symm (List.append_ne_nil_of_right_ne_nil _ (List.cons_ne_nil _ _))

/-- A command is accepted exactly when the grammar derives its tokens, and the query is the
one that the actions of the derivation make. -/
theorem parserParseCommand_derives (command : List UInt8) (query : Query) :
    parserParseCommand command = .ok query ↔
      ∃ tokens, yylex command = tokens.map .ok ∧ DerivesQuery tokens ⟨.nop, []⟩ query := by
  change (yyparse ⟨.query, none, noQuery⟩ (yylex command) >>= fun state =>
    if state.position = .query ∨ state.position = .finished then pure state.query else throw parseError) = _ ↔ _
  constructor
  · intro h
    cases hparse : yyparse ⟨.query, none, noQuery⟩ (yylex command) with
    | error e =>
        rw [hparse] at h
        cases h
    | ok state =>
        obtain ⟨ts, hts⟩ := exists_of_yyparse hparse
        rw [hts, yyparse_ok] at hparse
        rw [hts, yyparse_ok, hparse] at h
        change (if state.position = .query ∨ state.position = .finished then pure state.query else throw parseError) =
          Except.ok query at h
        split at h
        · rename_i hend
          cases h
          exact ⟨ts, hts, (shiftAll_reads hparse).derives hend⟩
        · cases h
  · rintro ⟨ts, hts, h⟩
    rw [hts, yyparse_ok]
    by_cases hne : ts = []
    · subst hne
      obtain rfl := h.eq_of_nil
      rfl
    · obtain ⟨function, hread⟩ := shiftAll_derives_operation h hne
      change shiftAll ⟨.query, none, noQuery⟩ ts = _ at hread
      rw [hread]
      rfl

end Parsing

end DocumentDb.Client
