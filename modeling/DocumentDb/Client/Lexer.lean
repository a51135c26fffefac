import DocumentDb.Client.Types
import DocumentDb.Lib.Lexing

namespace DocumentDb.Client

open Lexing

section Tokens

/-- The tokens of the parser with their values. A comparison has the number of its
operator, and a double the text that `atof` reads. -/
inductive Token
  | lparen
  | rparen
  | lbracket
  | rbracket
  | pipe
  | slashslash
  | slash
  | atSign
  | asterisk
  | comparison (op : Nat)
  | function (name : List UInt8)
  | eol
  | word (text : List UInt8)
  | int (value : Int)
  | double (text : List UInt8)
  deriving DecidableEq, Repr

end Tokens

section Patterns

/-- `[a-zA-Z0-9_.:-]`. -/
def isWordByte (b : UInt8) : Bool :=
  (97 ≤ b && b ≤ 122) || (65 ≤ b && b ≤ 90) || isDigit b || b == 95 || b == 46 || b == 58 || b == 45

def isSign (b : UInt8) : Bool := b == 43 || b == 45

def literalLength (text bs : List UInt8) : Nat := if text <+: bs then text.length else 0

def wordLength (bs : List UInt8) : Nat := (bs.takeWhile isWordByte).length

/-- The bytes that `([+-]?[0-9])+` matches. -/
def intLength : List UInt8 → Nat
  | [] => 0
  | b :: bs => if isDigit b || isSign b && bs.head?.any isDigit then intLength bs + 1 else 0

/-- The bytes that `([0-9]*[.])?[0-9]+` matches. -/
def decimalLength (bs : List UInt8) : Nat :=
  let whole := (bs.takeWhile isDigit).length
  match bs.dropWhile isDigit with
  | [] => whole
  | b :: ds =>
    if b = 46 ∧ (ds.takeWhile isDigit).length ≠ 0 then whole + 1 + (ds.takeWhile isDigit).length else whole

/-- The bytes that `[+-]?([0-9]*[.])?[0-9]+` matches. -/
def doubleLength : List UInt8 → Nat
  | [] => 0
  | b :: bs =>
    if isSign b then if decimalLength bs = 0 then 0 else decimalLength bs + 1 else decimalLength (b :: bs)

theorem literalLength_le (text bs : List UInt8) : literalLength text bs ≤ bs.length := by
  rw [literalLength]
  split
  · rename_i h
    exact h.length_le
  · exact Nat.zero_le _

theorem wordLength_le (bs : List UInt8) : wordLength bs ≤ bs.length := (List.takeWhile_prefix _).length_le

theorem intLength_le (bs : List UInt8) : intLength bs ≤ bs.length := by
  induction bs with
  | nil => exact le_rfl
  | cons b bs ih =>
      rw [intLength, List.length_cons]
      split <;> omega

theorem decimalLength_le (bs : List UInt8) : decimalLength bs ≤ bs.length := by
  have hsplit := congrArg List.length (List.takeWhile_append_dropWhile (p := isDigit) (l := bs))
  rw [List.length_append] at hsplit
  rw [decimalLength]
  cases hdrop : bs.dropWhile isDigit with
  | nil => exact (List.takeWhile_prefix _).length_le
  | cons b ds =>
      rw [hdrop, List.length_cons] at hsplit
      have hle := (List.takeWhile_prefix (l := ds) isDigit).length_le
      dsimp only
      split <;> omega

theorem doubleLength_le (bs : List UInt8) : doubleLength bs ≤ bs.length := by
  cases bs with
  | nil => exact le_rfl
  | cons b bs =>
      have hle := decimalLength_le bs
      have hle' := decimalLength_le (b :: bs)
      rw [doubleLength, List.length_cons] at *
      split
      · split <;> omega
      · exact hle'

end Patterns

section Rules

abbrev LexRule := Rule UInt8 Fault Token

/-- Text that is a token, or that is skipped. -/
def literalRule (text : String) (token : Option Token) : LexRule :=
  ⟨literalLength (bytesOf text), literalLength_le _, fun _ => .ok token⟩

def functionRule (text : String) : LexRule :=
  ⟨literalLength (bytesOf text), literalLength_le _, fun yytext => .ok (some (.function yytext))⟩

def wordRule : LexRule := ⟨wordLength, wordLength_le, fun yytext => .ok (some (.word yytext))⟩

def intRule : LexRule := ⟨intLength, intLength_le, fun yytext => do return some (.int (← atoi yytext))⟩

def doubleRule : LexRule := ⟨doubleLength, doubleLength_le, fun yytext => .ok (some (.double yytext))⟩

/-- The rule `.`. There is another one for the end of a line. -/
def otherRule : LexRule :=
  ⟨fun bs => min 1 bs.length, fun _ => Nat.min_le_right _ _, fun _ => .error (.exit "Unrecognized character")⟩

def lexRules : List LexRule :=
  [literalRule "(" (some .lparen), literalRule ")" (some .rparen),
    literalRule "[" (some .lbracket), literalRule "]" (some .rbracket),
    literalRule "|" (some .pipe), literalRule "//" (some .slashslash), literalRule "/" (some .slash),
    literalRule "@" (some .atSign), literalRule "*" (some .asterisk),
    literalRule "=" (some (.comparison 0)), literalRule "!=" (some (.comparison 1)),
    literalRule "<" (some (.comparison 2)), literalRule ">" (some (.comparison 3)),
    functionRule "update", functionRule "delete", functionRule "create",
    literalRule "select_all" (some .asterisk), literalRule "\n" (some .eol),
    wordRule, intRule, doubleRule, literalRule " " none, literalRule "\t" none, otherRule]

/-- What the parser is given of a text, up to the first failure. -/
def yylex (text : List UInt8) : List (Except Fault Token) := lex lexRules text

theorem complete_lexRules : Complete lexRules := by
  intro input hinput
  refine ⟨otherRule, by simp [lexRules], ?_⟩
  exact Nat.lt_min.mpr ⟨Nat.zero_lt_one, List.length_pos_of_ne_nil hinput⟩

end Rules

section Boundaries

variable {c : UInt8} {text rest s : List UInt8} {token : Token}

def EndsWord (c : UInt8) : Prop := isWordByte c = false ∧ c ≠ 43

theorem EndsWord.not_isDigit (h : EndsWord c) : isDigit c = false := by
  have hc := h.1
  simp only [isWordByte, Bool.or_eq_false_iff] at hc
  exact hc.1.1.1.1.2

theorem EndsWord.not_isSign (h : EndsWord c) : isSign c = false := by
  have hc := h.1
  simp only [isWordByte, Bool.or_eq_false_iff] at hc
  rw [isSign, hc.2, beq_false_of_ne h.2]
  rfl

theorem EndsWord.ne_point (h : EndsWord c) : c ≠ 46 := by
  rintro rfl
  exact absurd h.1 (by decide)

theorem takeWhile_append_stop {p : UInt8 → Bool} (hc : p c = false) (text rest : List UInt8) :
    (text ++ c :: rest).takeWhile p = text.takeWhile p := by
  induction text with
  | nil => simp [hc]
  | cons b text ih => simp only [List.cons_append, List.takeWhile_cons, ih]

theorem dropWhile_append_stop {p : UInt8 → Bool} (hc : p c = false) (text rest : List UInt8) :
    (text ++ c :: rest).dropWhile p = text.dropWhile p ++ c :: rest := by
  induction text with
  | nil => simp [hc]
  | cons b text ih =>
      simp only [List.cons_append, List.dropWhile_cons, ih]
      split <;> rfl

theorem wordLength_append (h : EndsWord c) (text rest : List UInt8) :
    wordLength (text ++ c :: rest) = wordLength text := by
  rw [wordLength, wordLength, takeWhile_append_stop h.1]

theorem intLength_append (h : EndsWord c) (text rest : List UInt8) :
    intLength (text ++ c :: rest) = intLength text := by
  induction text with
  | nil => simp [intLength, h.not_isDigit, h.not_isSign]
  | cons b text ih =>
      have hhead : (text ++ c :: rest).head?.any isDigit = text.head?.any isDigit := by
        cases text with
        | nil => simp [h.not_isDigit]
        | cons d text => rfl
      rw [List.cons_append, intLength, intLength, ih, hhead]

theorem decimalLength_append (h : EndsWord c) (text rest : List UInt8) :
    decimalLength (text ++ c :: rest) = decimalLength text := by
  rw [decimalLength, decimalLength, takeWhile_append_stop h.not_isDigit, dropWhile_append_stop h.not_isDigit]
  cases text.dropWhile isDigit with
  | nil => simp [h.ne_point]
  | cons b text => simp only [List.cons_append, takeWhile_append_stop h.not_isDigit]

theorem doubleLength_append (h : EndsWord c) (htext : text ≠ []) (rest : List UInt8) :
    doubleLength (text ++ c :: rest) = doubleLength text := by
  cases text with
  | nil => exact absurd rfl htext
  | cons b text =>
      rw [List.cons_append, doubleLength, doubleLength, decimalLength_append h, ← List.cons_append,
        decimalLength_append h]

theorem literalLength_append {literal : List UInt8} (hc : c ∉ literal.tail) (htext : text ≠ [])
    (rest : List UInt8) : literalLength literal (text ++ c :: rest) = literalLength literal text := by
  have hiff : literal <+: text ++ c :: rest ↔ literal <+: text := by
    refine ⟨fun hprefix => ?_, fun hprefix => hprefix.trans (List.prefix_append _ _)⟩
    by_contra hnot
    rcases List.prefix_or_prefix_of_prefix hprefix (List.prefix_append text (c :: rest)) with hshort | hlong
    · exact hnot hshort
    · obtain ⟨more, rfl⟩ := hlong
      rw [List.prefix_append_right_inj] at hprefix
      cases more with
      | nil => exact hnot (by simp)
      | cons d more =>
          obtain ⟨rfl, _⟩ := List.cons_prefix_cons.mp hprefix
          rw [List.tail_append_of_ne_nil htext] at hc
          exact hc (List.mem_append_right _ List.mem_cons_self)
  unfold literalLength
  simp only [hiff]

/-- Literals have such a byte at most in front, apart from the two that are doubled. -/
theorem EndsWord.notMem_tail (h : EndsWord c) (hslash : c ≠ 47) (hequals : c ≠ 61) {literal : List UInt8}
    (hliteral : literal.tail.all (fun b => isWordByte b || b == 47 || b == 61) = true) : c ∉ literal.tail := by
  intro hc
  have hb := List.all_eq_true.mp hliteral c hc
  simp [h.1, hslash, hequals] at hb

theorem EndsWord.stopsAt (h : EndsWord c) (hslash : c ≠ 47) (hequals : c ≠ 61) : StopsAt lexRules c := by
  intro text htext rest
  have hliteral : ∀ literal : List UInt8,
      literal.tail.all (fun b => isWordByte b || b == 47 || b == 61) = true →
        literalLength literal (text ++ c :: rest) = literalLength literal text := fun literal hall =>
    literalLength_append (h.notMem_tail hslash hequals hall) htext rest
  have hother : min 1 (text ++ c :: rest).length = min 1 text.length := by
    have hpos := List.length_pos_of_ne_nil htext
    rw [List.length_append]
    omega
  rw [Apart, lexRules]
  simp only [List.forall_mem_cons]
  and_intros
  all_goals first
    | exact hliteral _ (by decide)
    | exact wordLength_append h text rest
    | exact intLength_append h text rest
    | exact doubleLength_append h htext rest
    | exact hother
    | exact List.forall_mem_nil _

theorem yylex_byte {rule : LexRule} (hselect : select lexRules (c :: rest) = some rule)
    (hlength : rule.matchLength (c :: rest) = 1) (haction : rule.action [c] = .ok (some token)) :
    yylex (c :: rest) = .ok token :: yylex rest := by
  rw [yylex, complete_lexRules.lex_eq (List.cons_ne_nil c rest) hselect, hlength, List.take_succ_cons,
    List.take_zero, haction]
  rfl

end Boundaries

section Words

variable {c : UInt8} {s rest literal : List UInt8}

def keywords : List (List UInt8) := [bytesOf "update", bytesOf "delete", bytesOf "create", bytesOf "select_all"]

structure IsWord (s : List UInt8) : Prop where
  ne_nil : s ≠ []
  bytes : ∀ b ∈ s, isWordByte b = true
  not_keyword : s ∉ keywords

theorem isWord_of_all (hne : s ≠ []) (hbytes : s.all isWordByte = true) (hkeyword : s ∉ keywords) : IsWord s :=
  ⟨hne, List.all_eq_true.mp hbytes, hkeyword⟩

def Ends (rest : List UInt8) : Prop := ∀ c ∈ rest.head?, EndsWord c

theorem IsWord.wordLength_eq (h : IsWord s) (hrest : Ends rest) : wordLength (s ++ rest) = s.length := by
  have hall : s.takeWhile isWordByte = s := List.takeWhile_eq_self_iff.mpr h.bytes
  cases rest with
  | nil => rw [List.append_nil, wordLength, hall]
  | cons c rest => rw [wordLength_append (hrest c rfl), wordLength, hall]

theorem IsWord.literalLength_eq_zero (h : IsWord s) (hliteral : literal.head?.any isWordByte = false)
    (hne : literal ≠ []) (rest : List UInt8) : literalLength literal (s ++ rest) = 0 := by
  refine if_neg fun hprefix => ?_
  cases literal with
  | nil => exact hne rfl
  | cons b literal =>
      cases s with
      | nil => exact h.ne_nil rfl
      | cons d s =>
          obtain ⟨rfl, _⟩ := List.cons_prefix_cons.mp hprefix
          have hb := h.bytes b List.mem_cons_self
          simp [hb] at hliteral

theorem IsWord.literalLength_lt (h : IsWord s) (hrest : Ends rest) (hliteral : ∀ b ∈ literal, isWordByte b = true)
    (hne : literal ≠ s) : literalLength literal (s ++ rest) < s.length := by
  have hpos := List.length_pos_of_ne_nil h.ne_nil
  rw [literalLength]
  split
  · rename_i hprefix
    rcases List.prefix_or_prefix_of_prefix hprefix (List.prefix_append s rest) with hshort | ⟨more, rfl⟩
    · have hle := hshort.length_le
      exact lt_of_le_of_ne hle fun hlength => hne (hshort.eq_of_length hlength)
    · rw [List.prefix_append_right_inj] at hprefix
      cases more with
      | nil => exact absurd (List.append_nil s) hne
      | cons d more =>
          obtain ⟨later, rfl⟩ := hprefix
          have hd := (hrest d rfl).1
          rw [hliteral d (List.mem_append_right _ List.mem_cons_self)] at hd
          cases hd
  · exact hpos

theorem IsWord.numberLength_le (h : IsWord s) (hrest : Ends rest) :
    intLength (s ++ rest) ≤ s.length ∧ doubleLength (s ++ rest) ≤ s.length := by
  cases rest with
  | nil =>
      rw [List.append_nil]
      exact ⟨intLength_le s, doubleLength_le s⟩
  | cons c rest =>
      rw [intLength_append (hrest c rfl), doubleLength_append (hrest c rfl) h.ne_nil]
      exact ⟨intLength_le s, doubleLength_le s⟩

theorem IsWord.select_eq (h : IsWord s) (hrest : Ends rest) : select lexRules (s ++ rest) = some wordRule := by
  have hpos := List.length_pos_of_ne_nil h.ne_nil
  have hword : wordRule.matchLength (s ++ rest) = s.length := h.wordLength_eq hrest
  have hzero : ∀ literal : List UInt8, literal.head?.any isWordByte = false → literal ≠ [] →
      literalLength literal (s ++ rest) = 0 := fun literal hhead hne => h.literalLength_eq_zero hhead hne rest
  have hbytes : keywords.all (fun literal => literal.all isWordByte) = true := by decide
  have hshorter : ∀ literal ∈ keywords, literalLength literal (s ++ rest) < s.length := fun literal hliteral =>
    h.literalLength_lt hrest (List.all_eq_true.mp (List.all_eq_true.mp hbytes literal hliteral))
      fun heq => h.not_keyword (heq ▸ hliteral)
  change select (lexRules.take 18 ++ wordRule :: lexRules.drop 19) (s ++ rest) = some wordRule
  apply select_longest
  · rw [hword]
    simp only [lexRules, List.take_succ_cons, List.take_zero, List.forall_mem_cons]
    and_intros
    all_goals first
      | exact (hzero _ (by decide) (by decide)).trans_lt hpos
      | exact hshorter _ (by decide)
      | exact List.forall_mem_nil _
  · rw [hword]
    simp only [lexRules, List.drop_succ_cons, List.drop_zero, List.forall_mem_cons]
    and_intros
    all_goals first
      | exact (h.numberLength_le hrest).1
      | exact (h.numberLength_le hrest).2
      | exact (hzero _ (by decide) (by decide)).le.trans hpos.le
      | exact (Nat.min_le_left _ _).trans hpos
      | exact List.forall_mem_nil _

theorem IsWord.yylex (h : IsWord s) (hrest : Ends rest) :
    Client.yylex (s ++ rest) = .ok (.word s) :: Client.yylex rest := by
  have hne : s ++ rest ≠ [] := by simp [h.ne_nil]
  have hlength : wordRule.matchLength (s ++ rest) = s.length := h.wordLength_eq hrest
  rw [Client.yylex, complete_lexRules.lex_eq hne (h.select_eq hrest), hlength, List.take_left, List.drop_left]
  rfl

end Words

section Lengths

variable {text : List UInt8} {tokens : List Token}

def tokenLength : Token → Nat
  | .word text | .function text => text.length
  | _ => 1

theorem tokenLength_le {rule : LexRule} (hrule : rule ∈ lexRules) (htext : text ≠ []) {token : Token}
    (haction : rule.action text = .ok (some token)) : tokenLength token ≤ text.length := by
  have hpos := List.length_pos_of_ne_nil htext
  have hliteral : ∀ literal (t : Option Token), (∀ u ∈ t, tokenLength u ≤ 1) →
      (literalRule literal t).action text = .ok (some token) → tokenLength token ≤ text.length := by
    intro literal t ht h
    exact (ht token (Except.ok.inj h)).trans hpos
  have hfunction : ∀ literal, (functionRule literal).action text = .ok (some token) →
      tokenLength token ≤ text.length := by
    rintro literal ⟨⟩
    exact le_rfl
  have hint : intRule.action text = .ok (some token) → tokenLength token ≤ text.length := by
    intro h
    simp only [intRule] at h
    cases hvalue : atoi text with
    | error e => rw [hvalue] at h; cases h
    | ok value => rw [hvalue] at h; cases h; exact hpos
  have hall : ∀ rule ∈ lexRules, rule.action text = .ok (some token) → tokenLength token ≤ text.length := by
    rw [lexRules]
    simp only [List.forall_mem_cons]
    and_intros
    all_goals first
      | exact hliteral _ _ (by rintro _ ⟨⟩; exact le_rfl)
      | exact hliteral _ none (fun _ h => by cases h)
      | exact hfunction _
      | exact hint
      | exact List.forall_mem_nil _
      | exact fun h => by cases h; exact le_rfl
      | exact fun h => by cases h; exact hpos
      | exact fun h => by cases h
  exact hall rule hrule haction

theorem tokenLength_sum_le (h : yylex text = tokens.map .ok) : (tokens.map tokenLength).sum ≤ text.length :=
  complete_lexRules.weight_le tokenLength (fun _ hrule _ htext _ haction => tokenLength_le hrule htext haction) h

end Lengths

end DocumentDb.Client
