import Polyloft.Scope.Tree

/-!
# Polyloft.Proofs.Scope.Builder

The pass that builds a scope tree, seen as a run over lists of code tokens. A line takes part in
the pass only through its code tokens and its number, and the lines of a document are numbered one
after the other. So the pass over a document is `ScopeBuilder.run` over the token lists of its
lines, and a run over two lists in a row is two runs. Everything that is said about scope trees
starts from `ScopeTree.build_eq_run`.
-/

namespace Polyloft

/-! ### Numbered documents -/

/-- The lines are numbered from zero in order, as those of a document read from text are. -/
def Document.IsNumbered (doc : Document) : Prop :=
  doc.lines.map Line.index = List.range doc.size

theorem map_index_numberLines (index : Nat) (texts : List (List Char))
    (tokens : List (List Token)) (h : tokens.length = texts.length) :
    (numberLines index texts tokens).map Line.index = List.range' index texts.length := by
  induction texts generalizing index tokens with
  | nil => cases tokens <;> rfl
  | cons text texts ih =>
      cases tokens with
      | nil => simp at h
      | cons ts rest =>
          rw [numberLines, List.map_cons, List.length_cons, List.range'_succ,
            ih (index + 1) rest (by simpa using h)]

theorem Document.isNumbered_ofText (text : List Char) (uri : Option String) :
    (ofText text uri).IsNumbered := by
  have hlen := lexLines_length 0 false (Text.splitLines (Text.normaliseNewlines text))
  rw [IsNumbered, size, List.range_eq_range']
  simp only [ofText]
  rw [map_index_numberLines _ _ _ hlen, numberLines_length _ _ _ hlen]

/-- The line at a place of a numbered document bears the number of its place. -/
theorem Document.IsNumbered.index_eq {doc : Document} (h : doc.IsNumbered) {n : Nat} {l : Line}
    (hl : doc.lines[n]? = some l) : l.index = n := by
  have hn : (doc.lines.map Line.index)[n]? = some l.index := by
    rw [List.getElem?_map, hl, Option.map_some]
  have hlt : n < doc.size := (List.getElem?_eq_some_iff.1 hl).1
  rw [h, List.getElem?_range hlt] at hn
  exact (Option.some.inj hn).symm

theorem Document.IsNumbered.pairwise_index {doc : Document} (h : doc.IsNumbered) :
    doc.lines.Pairwise fun l m => l.index < m.index := by
  refine List.pairwise_map.1 ?_
  rw [h]
  exact List.pairwise_lt_range

/-- One number stands for one line. -/
theorem Document.IsNumbered.eq_of_index {doc : Document} (h : doc.IsNumbered) {l l' : Line}
    (hl : l ∈ doc.lines) (hl' : l' ∈ doc.lines) (hindex : l.index = l'.index) : l = l' := by
  obtain ⟨n, hn⟩ := List.mem_iff_getElem?.1 hl
  obtain ⟨n', hn'⟩ := List.mem_iff_getElem?.1 hl'
  have hsame : n = n' := by rw [← h.index_eq hn, ← h.index_eq hn', hindex]
  subst hsame
  exact Option.some.inj (hn.symm.trans hn')

/-! ### Constructs of lines -/

theorem leadingConstruct?_construct {s : String} {c : Construct}
    (h : leadingConstruct? s = some c) : c ≠ .module ∧ c.isClause = false := by
  unfold leadingConstruct? at h
  split at h <;> cases h <;> decide

/-- A header opens neither the module nor a clause. -/
theorem opening?_construct {ts : List Token} {o : Opening} (h : opening? ts = some o) :
    o.construct ≠ .module ∧ o.construct.isClause = false := by
  have htrail : ∀ {first rest}, trailingOpening? first rest = some o →
      o.construct ≠ .module ∧ o.construct.isClause = false := by
    intro first rest h
    unfold trailingOpening? at h
    dsimp only at h
    split at h
    · cases h
      simp [Construct.isClause]
    · split at h <;> cases h
      simp [Construct.isClause]
  unfold opening? at h
  split at h
  · cases h
  · dsimp only at h
    split at h
    · split at h <;> cases h
      simp [Construct.isClause]
    · split at h
      · split at h
        · rename_i hlead
          cases h
          exact leadingConstruct?_construct hlead
        · exact htrail h
      · exact htrail h

theorem branchConstruct?_ne_module {s : String} {c : Construct}
    (h : branchConstruct? s = some c) : c ≠ .module := by
  unfold branchConstruct? at h
  split at h <;> cases h <;> decide

theorem isClause_of_clauseConstruct? {s : String} {c : Construct}
    (h : clauseConstruct? s = some c) : c.isClause = true := by
  unfold clauseConstruct? at h
  split at h <;> cases h <;> rfl

/-- The frame with its last line. -/
def Frame.closedAt (f : Frame) (line : Nat) : Frame :=
  { f with stop := some line }

namespace ScopeBuilder

/-! ### Runs -/

/-- One line, given by its code tokens and its number. -/
def stepAt (b : ScopeBuilder) (tokens : List Token) (n : Nat) : ScopeBuilder :=
  if tokens.isEmpty then b.assign b.top
  else if isTerminator tokens then b.close n
  else b.statement tokens n

theorem step_eq_stepAt (b : ScopeBuilder) (line : Line) :
    b.step line = b.stepAt line.codeTokens line.index := rfl

/-- Lines one after the other, the first of them with number `n`. -/
def run (b : ScopeBuilder) (n : Nat) : List (List Token) → ScopeBuilder
  | [] => b
  | ts :: rest => (b.stepAt ts n).run (n + 1) rest

@[simp] theorem run_nil (b : ScopeBuilder) (n : Nat) : b.run n [] = b := rfl

@[simp] theorem run_cons (b : ScopeBuilder) (n : Nat) (ts : List Token)
    (rest : List (List Token)) : b.run n (ts :: rest) = (b.stepAt ts n).run (n + 1) rest := rfl

theorem run_append (b : ScopeBuilder) (n : Nat) (xs ys : List (List Token)) :
    b.run n (xs ++ ys) = (b.run n xs).run (n + xs.length) ys := by
  induction xs generalizing b n with
  | nil => rfl
  | cons ts rest ih =>
      rw [List.cons_append, run_cons, run_cons, ih, List.length_cons, Nat.add_assoc,
        Nat.add_comm 1]

theorem foldl_step_eq_run (b : ScopeBuilder) (n : Nat) (lines : List Line)
    (h : lines.map Line.index = List.range' n lines.length) :
    lines.foldl step b = b.run n (lines.map Line.codeTokens) := by
  induction lines generalizing b n with
  | nil => rfl
  | cons line rest ih =>
      rw [List.map_cons, List.length_cons, List.range'_succ] at h
      obtain ⟨hline, hrest⟩ := List.cons.inj h
      rw [List.foldl_cons, List.map_cons, run_cons, step_eq_stepAt, hline, ih _ _ hrest]

/-- What one line keeps, a run keeps. The line number is part of what is kept. -/
theorem run_induction {motive : Nat → ScopeBuilder → Prop}
    (step : ∀ n b ts, motive n b → motive (n + 1) (b.stepAt ts n))
    (xs : List (List Token)) (n : Nat) (b : ScopeBuilder) (h : motive n b) :
    motive (n + xs.length) (b.run n xs) := by
  induction xs generalizing n b with
  | nil => exact h
  | cons ts rest ih =>
      have := ih (n + 1) (b.stepAt ts n) (step n b ts h)
      rwa [run_cons, List.length_cons, Nat.add_comm rest.length, ← Nat.add_assoc]

end ScopeBuilder

/-- The state of the pass behind the last line of a document. -/
def Document.scopeState (doc : Document) : ScopeBuilder :=
  (ScopeBuilder.init doc.size).run 0 (doc.lines.map Line.codeTokens)

theorem ScopeTree.build_eq_run {doc : Document} (h : doc.IsNumbered) :
    ScopeTree.build doc = doc.scopeState.finish (doc.size - 1) := by
  rw [Document.IsNumbered, List.range_eq_range'] at h
  rw [ScopeTree.build, ScopeBuilder.foldl_step_eq_run _ 0 _ h, Document.scopeState]

end Polyloft
