import Mathlib.Data.List.TakeWhile
import Polyloft.Document
import Polyloft.Rule.Typing

/-!
# Polyloft.Proofs.Token.Numeral

A token of a number category is a numeral: digits, and possibly a point with digits behind it. The
rule that looks for a division by zero reads such tokens as numbers, and can do so always.

## Proof shape

Only `Lexeme.number` gives these categories (`at_eq_number`), and it covers digits, or digits and a
fraction. The recursion of `lexFrom` carries the fact over to a line.
-/

namespace Polyloft

open Polyloft.Text

/-- A token of a number category has the text of a numeral. -/
def Token.IsNumeric (t : Token) : Prop :=
  t.kind = .int ∨ t.kind = .float → Rule.isNumeral t.text.toList = true

theorem bne_dot_of_isDecimal {c : Char} (h : isDecimal c = true) : (c != '.') = true := by
  by_cases hc : c = '.'
  · subst hc
    simp [isDecimal, digitValue?] at h
  · simpa using hc

/-- Digits are a numeral. -/
theorem isNumeral_digits {c : Char} {digits : List Char} (hc : isDecimal c = true)
    (hdigits : ∀ d ∈ digits, isDecimal d = true) : Rule.isNumeral (c :: digits) = true := by
  have hall : ∀ d ∈ c :: digits, isDecimal d = true := by
    simpa using ⟨hc, hdigits⟩
  have hdot : ∀ d ∈ c :: digits, (d != '.') = true := fun d hd => bne_dot_of_isDecimal (hall d hd)
  have htake : (c :: digits).takeWhile (· != '.') = c :: digits := List.takeWhile_eq_self_iff.2 hdot
  have hdrop : (c :: digits).dropWhile (· != '.') = [] := List.dropWhile_eq_nil_iff.2 hdot
  rw [Rule.isNumeral, htake, hdrop]
  simpa using ⟨hc, hdigits⟩

/-- Digits, a point and digits are a numeral. -/
theorem isNumeral_fraction {c d : Char} {digits more : List Char} (hc : isDecimal c = true)
    (hdigits : ∀ e ∈ digits, isDecimal e = true) (hd : isDecimal d = true)
    (hmore : ∀ e ∈ more, isDecimal e = true) :
    Rule.isNumeral (c :: digits ++ '.' :: d :: more) = true := by
  have hdot : ∀ e ∈ c :: digits, (e != '.') = true := by
    intro e he
    rcases List.mem_cons.1 he with rfl | he
    · exact bne_dot_of_isDecimal hc
    · exact bne_dot_of_isDecimal (hdigits e he)
  have htake : (c :: digits ++ '.' :: d :: more).takeWhile (· != '.') = c :: digits := by
    rw [List.takeWhile_append_of_pos hdot]
    simp
  have hdrop : (c :: digits ++ '.' :: d :: more).dropWhile (· != '.') = '.' :: d :: more := by
    rw [List.dropWhile_append_of_pos hdot]
    simp
  rw [Rule.isNumeral, htake, hdrop]
  simp [hc, hd]
  exact ⟨hdigits, hmore⟩

/-- Only a digit starts a number. -/
theorem at_eq_number {c : Char} {cs : List Char}
    (h : (Lexeme.at c cs).kind = .int ∨ (Lexeme.at c cs).kind = .float) :
    isDecimal c = true ∧ Lexeme.at c cs = Lexeme.number cs := by
  unfold Lexeme.at at h ⊢
  split at h
  · simp at h
  · split at h <;> simp at h
  · split at h <;> simp at h
  · split at h
    · split at h <;> simp at h
    · split at h
      · rename_i hquote hdecimal
        rw [if_neg hquote, if_pos hdecimal]
        exact ⟨hdecimal, rfl⟩
      · split at h
        · simp only [Lexeme.name] at h
          split at h <;> simp at h
        · simp only [Lexeme.sign] at h
          split at h
          · simp at h
          · split at h <;> simp at h

theorem take_length_takeWhile (p : Char → Bool) (cs : List Char) :
    cs.take (cs.takeWhile p).length = cs.takeWhile p :=
  (List.prefix_iff_eq_take.1 (List.takeWhile_prefix p)).symm

/-- What a number lexeme covers is a numeral. -/
theorem isNumeral_number {c : Char} (cs : List Char) (hc : isDecimal c = true) :
    Rule.isNumeral (c :: cs.take (Lexeme.number cs).tail) = true := by
  have hwhole : ∀ d ∈ cs.takeWhile isDecimal, isDecimal d = true := fun d hd =>
    List.mem_takeWhile_imp hd
  have hsplit : cs.takeWhile isDecimal ++ cs.dropWhile isDecimal = cs :=
    List.takeWhile_append_dropWhile
  unfold Lexeme.number
  dsimp only
  split
  · rename_i d ds hrest
    split
    · rename_i hd
      dsimp only
      -- The lexeme is the digits, the dot and the digits behind it.
      have hcover : cs.takeWhile isDecimal ++ '.' :: d :: ds.takeWhile isDecimal <+: cs := by
        rw [hrest] at hsplit
        obtain ⟨more, hmore⟩ := List.takeWhile_prefix (l := ds) isDecimal
        refine ⟨more, ?_⟩
        simp only [List.append_assoc, List.cons_append, hmore, hsplit]
      have htext := List.prefix_iff_eq_take.1 hcover
      have hlength : (cs.takeWhile isDecimal ++ '.' :: d :: ds.takeWhile isDecimal).length =
          (cs.takeWhile isDecimal).length + 2 + (ds.takeWhile isDecimal).length := by
        simp only [List.length_append, List.length_cons]
        omega
      rw [← hlength, ← htext]
      exact isNumeral_fraction hc hwhole hd fun e he => List.mem_takeWhile_imp he
    · dsimp only
      rw [take_length_takeWhile]
      exact isNumeral_digits hc hwhole
  · dsimp only
    rw [take_length_takeWhile]
    exact isNumeral_digits hc hwhole

/-! ### Lines -/

theorem isNumeric_of_mem_lexFrom {line column : Nat} {cs : List Char} {t : Token}
    (ht : t ∈ (lexFrom line column cs).1) : t.IsNumeric := by
  fun_induction lexFrom line column cs with
  | case1 => simp at ht
  | case2 column c cs hskip ih => exact ih ht
  | case3 column c cs hskip lexeme token rest ih =>
      rcases List.mem_cons.1 ht with rfl | ht
      · intro hkind
        obtain ⟨hc, hnumber⟩ := at_eq_number hkind
        show Rule.isNumeral (String.ofList (c :: cs.take (Lexeme.at c cs).tail)).toList = true
        rw [String.toList_ofList, hnumber]
        exact isNumeral_number cs hc
      · exact ih ht

theorem isNumeric_of_mem_lexLine {text : List Char} {line : Nat} {inComment : Bool} {t : Token}
    (ht : t ∈ (lexLine text line inComment).1) : t.IsNumeric := by
  unfold lexLine at ht
  split at ht
  · split at ht
    · split at ht
      · simp at ht
      · rw [List.mem_singleton] at ht
        simp [Token.IsNumeric, ht]
    · rcases List.mem_cons.1 ht with rfl | ht
      · simp [Token.IsNumeric]
      · exact isNumeric_of_mem_lexFrom ht
  · exact isNumeric_of_mem_lexFrom ht

theorem isNumeric_of_mem_lexLines {line : Nat} {inComment : Bool} {texts : List (List Char)}
    {tokens : List Token} (htokens : tokens ∈ lexLines line inComment texts) {t : Token}
    (ht : t ∈ tokens) : t.IsNumeric := by
  induction texts generalizing line inComment with
  | nil => simp [lexLines] at htokens
  | cons text texts ih =>
      rcases List.mem_cons.1 htokens with rfl | htokens
      · exact isNumeric_of_mem_lexLine ht
      · exact ih htokens

theorem tokens_mem_of_mem_numberLines {index : Nat} {texts : List (List Char)}
    {tokens : List (List Token)} {line : Line} (h : line ∈ numberLines index texts tokens) :
    line.tokens ∈ tokens := by
  induction texts generalizing index tokens with
  | nil => simp [numberLines] at h
  | cons text texts ih =>
      cases tokens with
      | nil => simp [numberLines] at h
      | cons ts rest =>
          rcases List.mem_cons.1 h with rfl | h
          · simp
          · exact List.mem_cons_of_mem _ (ih h)

/-- Every token of a number category in a document is a numeral. -/
theorem Document.isNumeric_of_mem {text : List Char} {uri : Option String} {line : Line}
    (hline : line ∈ (Document.ofText text uri).lines) {t : Token} (ht : t ∈ line.codeTokens) :
    t.IsNumeric :=
  isNumeric_of_mem_lexLines (tokens_mem_of_mem_numberLines hline) (List.mem_filter.1 ht).1

end Polyloft
