import Mathlib.Algebra.GroupWithZero.Nat
import Mathlib.Data.List.MinMax

namespace DocumentDb.Lexing

variable {α ε τ : Type}

/-- A rule says how much of an input it matches at most, and what becomes of the text that
it has matched: a token, nothing, or a failure. -/
structure Rule (α ε τ : Type) where
  matchLength : List α → Nat
  matchLength_le : ∀ input, matchLength input ≤ input.length
  action : List α → Except ε (Option τ)

def select (rules : List (Rule α ε τ)) (input : List α) : Option (Rule α ε τ) :=
  rules.argmax fun rule => rule.matchLength input

def lexLoop (rules : List (Rule α ε τ)) : Nat → List α → List (Except ε τ)
  | 0, _ => []
  | _ + 1, [] => []
  | fuel + 1, a :: input =>
    match select rules (a :: input) with
    | none => []
    | some rule =>
      let length := rule.matchLength (a :: input)
      match rule.action ((a :: input).take length) with
      | .error e => [.error e]
      | .ok token => token.toList.map .ok ++ lexLoop rules fuel ((a :: input).drop length)

def lex (rules : List (Rule α ε τ)) (input : List α) : List (Except ε τ) :=
  lexLoop rules input.length input

section Progress

variable {rules : List (Rule α ε τ)} {rule : Rule α ε τ} {input : List α}

def Complete (rules : List (Rule α ε τ)) : Prop :=
  ∀ input ≠ [], ∃ rule ∈ rules, 0 < rule.matchLength input

theorem matchLength_select (h : select rules input = some rule) (other : Rule α ε τ) (hother : other ∈ rules) :
    other.matchLength input ≤ rule.matchLength input :=
  List.le_of_mem_argmax hother h

theorem Complete.exists_select (hcomplete : Complete rules) (hinput : input ≠ []) :
    ∃ rule, select rules input = some rule ∧ 0 < rule.matchLength input := by
  obtain ⟨other, hother, hpos⟩ := hcomplete input hinput
  cases hselect : select rules input with
  | none =>
      rw [select, List.argmax_eq_none] at hselect
      rw [hselect] at hother
      cases hother
  | some rule => exact ⟨rule, rfl, hpos.trans_le (matchLength_select hselect other hother)⟩

theorem Complete.lexLoop_eq (hcomplete : Complete rules) {fuel : Nat} (hfuel : input.length ≤ fuel) :
    lexLoop rules fuel input = lex rules input := by
  suffices h : ∀ fuel fuel' input, input.length ≤ fuel → input.length ≤ fuel' →
      lexLoop rules fuel input = lexLoop rules fuel' input from h _ _ _ hfuel le_rfl
  intro fuel
  induction fuel with
  | zero =>
      intro fuel' input hfuel _
      rw [List.eq_nil_of_length_eq_zero (Nat.le_zero.mp hfuel)]
      cases fuel' <;> rfl
  | succ fuel ih =>
      intro fuel' input hfuel hfuel'
      cases input with
      | nil => cases fuel' <;> rfl
      | cons a input =>
          cases fuel' with
          | zero => simp at hfuel'
          | succ fuel' =>
              obtain ⟨rule, hselect, hpos⟩ := hcomplete.exists_select (List.cons_ne_nil a input)
              have hdrop : ((a :: input).drop (rule.matchLength (a :: input))).length ≤ input.length := by
                rw [List.length_drop, List.length_cons]
                omega
              rw [List.length_cons] at hfuel hfuel'
              rw [lexLoop, lexLoop, hselect]
              dsimp only
              rw [ih fuel' _ (by omega) (by omega)]

theorem Complete.lex_eq (hcomplete : Complete rules) (hinput : input ≠ []) (hselect : select rules input = some rule) :
    lex rules input = match rule.action (input.take (rule.matchLength input)) with
      | .error e => [.error e]
      | .ok token => token.toList.map .ok ++ lex rules (input.drop (rule.matchLength input)) := by
  obtain ⟨rule', hselect', hpos⟩ := hcomplete.exists_select hinput
  rw [hselect] at hselect'
  cases hselect'
  cases input with
  | nil => exact absurd rfl hinput
  | cons a input =>
      rw [lex, List.length_cons, lexLoop, hselect]
      dsimp only
      rw [hcomplete.lexLoop_eq (by rw [List.length_drop, List.length_cons]; omega)]

/-- What holds of the empty input and its tokens, and goes from what is left behind the
first match to the whole input, holds of every input that is lexed without a failure. -/
theorem Complete.lex_induction (hcomplete : Complete rules) {P : List α → List τ → Prop} (hnil : P [] [])
    (hstep : ∀ (input : List α) (rule : Rule α ε τ) (token : Option τ) (tokens : List τ), input ≠ [] →
      select rules input = some rule → 0 < rule.matchLength input →
      rule.action (input.take (rule.matchLength input)) = .ok token →
      P (input.drop (rule.matchLength input)) tokens → P input (token.toList ++ tokens))
    {tokens : List τ} (hinput : lex rules input = tokens.map .ok) : P input tokens := by
  induction hlength : input.length using Nat.strong_induction_on generalizing input tokens with
  | _ n ih =>
      subst hlength
      by_cases hempty : input = []
      · subst hempty
        obtain rfl := List.map_eq_nil_iff.mp hinput.symm
        exact hnil
      · obtain ⟨rule, hselect, hpos⟩ := hcomplete.exists_select hempty
        have hlonger := List.length_pos_of_ne_nil hempty
        rw [hcomplete.lex_eq hempty hselect] at hinput
        cases haction : rule.action (input.take (rule.matchLength input)) with
        | error e =>
            rw [haction] at hinput
            cases tokens with
            | nil => cases hinput
            | cons token tokens => cases hinput
        | ok token =>
            rw [haction] at hinput
            obtain ⟨first, later, rfl, hfirst, hlater⟩ := List.map_eq_append_iff.mp hinput.symm
            obtain rfl : first = token.toList :=
              List.map_injective_iff.mpr (fun _ _ h => Except.ok.inj h) hfirst
            exact hstep input rule token later hempty hselect hpos haction
              (ih _ (by rw [List.length_drop]; omega) hlater.symm rfl)

/-- The rule that matches more than every rule in front of it, and no less than the others. -/
theorem select_longest {first last : List (Rule α ε τ)}
    (hfirst : ∀ other ∈ first, other.matchLength input < rule.matchLength input)
    (hlast : ∀ other ∈ last, other.matchLength input ≤ rule.matchLength input) :
    select (first ++ rule :: last) input = some rule := by
  rw [select]
  induction last using List.reverseRecOn with
  | nil =>
      rw [List.argmax_concat]
      cases hmax : first.argmax fun rule => rule.matchLength input with
      | none => rfl
      | some other => exact if_pos (hfirst other (List.argmax_mem hmax))
  | append_singleton last other ih =>
      rw [← List.cons_append, ← List.append_assoc, List.argmax_concat,
        ih fun other hother => hlast other (List.mem_append_left _ hother)]
      exact if_neg (Nat.not_lt.mpr (hlast other (List.mem_append_right _ List.mem_cons_self)))

end Progress

section Boundaries

variable {rules : List (Rule α ε τ)} {rule : Rule α ε τ} {text rest : List α} {tokens : List τ} {c : α}

def Apart (rules : List (Rule α ε τ)) (text rest : List α) : Prop :=
  ∀ rule ∈ rules, rule.matchLength (text ++ rest) = rule.matchLength text

def StopsAt (rules : List (Rule α ε τ)) (c : α) : Prop :=
  ∀ text ≠ [], ∀ rest, Apart rules text (c :: rest)

theorem Apart.select_eq (h : Apart rules text rest) : select rules (text ++ rest) = select rules text := by
  unfold select
  induction rules using List.reverseRecOn with
  | nil => rfl
  | append_singleton rules last ih =>
      have hlast := h last (List.mem_append_right _ List.mem_cons_self)
      rw [List.argmax_concat, List.argmax_concat, ih fun rule hrule => h rule (List.mem_append_left _ hrule)]
      cases hmax : rules.argmax fun rule => rule.matchLength text with
      | none => rfl
      | some rule =>
          have hrule := h rule (List.mem_append_left _ (List.argmax_mem hmax))
          dsimp only
          rw [hlast, hrule]

theorem Apart.lex_eq (hcomplete : Complete rules) (h : Apart rules text rest) (htext : text ≠ [])
    (hselect : select rules text = some rule) :
    lex rules (text ++ rest) = match rule.action (text.take (rule.matchLength text)) with
      | .error e => [.error e]
      | .ok token => token.toList.map .ok ++ lex rules (text.drop (rule.matchLength text) ++ rest) := by
  have hlength := h rule (List.argmax_mem hselect)
  have hle := rule.matchLength_le text
  rw [hcomplete.lex_eq (by simp [htext]) (h.select_eq.trans hselect), hlength,
    List.take_append_of_le_length hle, List.drop_append_of_le_length hle]

/-- The tokens of a text in front of a letter at which every match stops. -/
theorem StopsAt.lex_append (hcomplete : Complete rules) (hstop : StopsAt rules c)
    (htext : lex rules text = tokens.map .ok) (rest : List α) :
    lex rules (text ++ c :: rest) = tokens.map .ok ++ lex rules (c :: rest) := by
  apply hcomplete.lex_induction ?_ ?_ htext
  · rfl
  · intro text rule token tokens hne hselect _ haction ih
    rw [(hstop text hne rest).lex_eq hcomplete hne hselect, haction]
    dsimp only
    rw [ih, List.map_append, List.append_assoc]

end Boundaries

section Weights

variable {rules : List (Rule α ε τ)} {text : List α} {tokens : List τ}

theorem Complete.weight_le (hcomplete : Complete rules) (weight : τ → Nat)
    (hweight : ∀ rule ∈ rules, ∀ text ≠ [], ∀ token, rule.action text = .ok (some token) →
      weight token ≤ text.length)
    (htext : lex rules text = tokens.map .ok) : (tokens.map weight).sum ≤ text.length := by
  apply hcomplete.lex_induction ?_ ?_ htext
  · exact le_rfl
  · intro text rule token tokens _ hselect hpos haction ih
    have hle := rule.matchLength_le text
    have htake : (text.take (rule.matchLength text)).length = rule.matchLength text := by
      rw [List.length_take, Nat.min_eq_left hle]
    have htoken : (token.toList.map weight).sum ≤ rule.matchLength text := by
      cases token with
      | none => exact Nat.zero_le _
      | some token =>
          have hlight := hweight rule (List.argmax_mem hselect) _
            (List.ne_nil_of_length_pos (by rw [htake]; exact hpos)) token haction
          rw [htake] at hlight
          simpa using hlight
    rw [List.length_drop] at ih
    rw [List.map_append, List.sum_append]
    omega

end Weights

end DocumentDb.Lexing
