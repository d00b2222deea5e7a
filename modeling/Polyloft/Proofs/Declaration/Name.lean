import Mathlib.Data.List.TakeWhile
import Polyloft.Proofs.Place.Declaration

/-!
# Polyloft.Proofs.Declaration.Name

Declared names are names of the language. Every shape of a line reads the name that it declares as a
run of word characters behind a letter or an underscore, and such a run is one token. Only the names
of parameters, and of the components of a record, need not be of this kind: where a parameter does
not follow the grammar, its name is whatever could be made out. No name is empty.

## Proof shape

The places of names are known to be runs (`Shape.Reads`), and the text at the place of a run is the
run (`Shape.Reads.slice`). The rest are the cases of `Collect.addLine`, for one line at a time: what
a line declares is named on it (`Collect.namedOn_of_mem_lineDecls`).
-/

namespace Polyloft

open Polyloft.Text

namespace Text

/-- A name of the language: a letter or underscore of ASCII, then word characters. -/
def isName : List Char → Bool
  | [] => false
  | c :: cs => isNameStart c && cs.all isWord

/-! ### Characters -/

theorem isNameStart_of_isUpper {c : Char} (h : c.isUpper = true) : isNameStart c = true := by
  have hstart : isNameStart c = ((c.isUpper || c.isLower) || c == '_') := rfl
  rw [hstart, h]
  rfl

theorem isNameStart_of_isLower {c : Char} (h : (c.isLower || c == '_') = true) :
    isNameStart c = true := by
  have hstart : isNameStart c = (c.isUpper || (c.isLower || c == '_')) := Bool.or_assoc ..
  rw [hstart, h, Bool.or_true]

theorem isWord_of_isDigit {c : Char} (h : c.isDigit = true) : isWord c = true := by
  have hlt : c.toNat < 0x80 := by
    delta Char.isDigit at h
    rw [Bool.and_eq_true, decide_eq_true_eq, decide_eq_true_eq] at h
    exact Nat.lt_of_le_of_lt (UInt32.le_iff_toNat_le.1 h.2) (by decide)
  have halphanum : c.isAlphanum = (c.isAlpha || c.isDigit) := rfl
  rw [isWord, if_pos hlt, halphanum, h]
  simp

theorem isWord_of_mem {cs : List Char} (hname : isName cs = true) {c : Char} (hc : c ∈ cs) :
    isWord c = true := by
  cases cs with
  | nil => simp at hc
  | cons d ds =>
      rw [isName, Bool.and_eq_true, List.all_eq_true] at hname
      rcases List.mem_cons.1 hc with rfl | hc
      · exact isWord_of_isNameStart hname.1
      · exact hname.2 c hc

end Text

/-! ### Runs -/

namespace Shape.Reads

variable {cs : List Char} {first more : Char → Bool} {s : Span}

/-- The text at the place of a run. -/
theorem slice (h : Reads cs first more s) :
    ∃ d ds, s.slice cs = d :: ds ∧ first d = true ∧ ∀ e ∈ ds, more e = true := by
  obtain ⟨c, c', hwithin, hrun⟩ := h
  unfold Cursor.run? at hrun
  split at hrun
  · simp at hrun
  · rename_i d ds hrest
    split at hrun
    · rename_i hfirst
      obtain ⟨rfl, -⟩ := Prod.mk.inj (Option.some.inj hrun)
      refine ⟨d, ds.takeWhile more, ?_, hfirst, fun e he => List.mem_takeWhile_imp he⟩
      have hlength : c.pos + (1 + (ds.takeWhile more).length) - c.pos =
          (ds.takeWhile more).length + 1 := by omega
      rw [Span.slice, hwithin, hrest, hlength, List.take_succ_cons]
      exact congrArg (d :: ·) (List.prefix_iff_eq_take.1 (List.takeWhile_prefix _)).symm
    · simp at hrun

/-- A run that starts and goes on like a name is one. -/
theorem isName (h : Reads cs first more s) (hfirst : ∀ d, first d = true → isNameStart d = true)
    (hmore : ∀ d, more d = true → isWord d = true) :
    isName (Collect.spanText s cs).toList = true := by
  obtain ⟨d, ds, hslice, hd, hds⟩ := h.slice
  rw [Collect.spanText, String.toList_ofList, hslice, Text.isName, hfirst d hd,
    List.all_eq_true.2 fun e he => hmore e (hds e he)]
  rfl

end Shape.Reads

/-! ### Parameters -/

theorem Parameter.name_ne_empty_of_mem_parseList {cs : List Char} {column : Nat} {p : Parameter}
    (h : p ∈ parseList cs column) : p.name ≠ "" := by
  obtain ⟨piece, -, hp⟩ := List.mem_filterMap.1 h
  obtain ⟨q, hq, rfl⟩ := Option.map_eq_some_iff.1 hp
  dsimp only
  rcases Option.or_eq_some_iff.1 hq with hq | ⟨-, hq⟩
  · obtain ⟨name, hname, hq⟩ := Option.bind_eq_some_iff.1 hq
    have hspelled := Ty.isTypeName_of_name hname
    dsimp only at hq
    split at hq
    · obtain rfl := Option.some.inj hq
      intro hempty
      dsimp only at hempty
      rw [hempty] at hspelled
      exact absurd hspelled (by decide)
    · simp at hq
  · unfold recover? at hq
    dsimp only at hq
    split at hq
    · rename_i hidentifier
      obtain rfl := Option.some.inj hq
      intro hempty
      have hnil : recoverName (strip piece.2) = [] := by
        simpa using congrArg String.toList hempty
      simp [hnil, isIdentifier] at hidentifier
    · simp at hq

/-! ### Declarations -/

/-- The declaration has a name of the language, or it is a component or a parameter, and the latter
is no member of anything. -/
def Declaration.Named (d : Declaration) : Prop :=
  isName d.name.toList = true ∨
    (d.form = .parameter ∧ d.owner = none ∨ d.form = .component) ∧ d.name ≠ ""

theorem Declaration.Named.name_ne_empty {d : Declaration} (h : d.Named) : d.name ≠ "" := by
  rcases h with h | h
  · intro hempty
    simp [hempty, isName] at h
  · exact h.2

/-- The declaration is named as it should be, and what is no parameter or component has its name at
its column of the line. -/
def Declaration.NamedOn (line : Line) (d : Declaration) : Prop :=
  isName d.name.toList = true ∧ d.name.toList <+: line.masked.drop d.column ∨
    (d.form = .parameter ∧ d.owner = none ∨ d.form = .component) ∧ d.name ≠ ""

theorem Declaration.NamedOn.named {line : Line} {d : Declaration} (h : d.NamedOn line) : d.Named :=
  h.imp_left And.left

namespace Collect

variable {tree : ScopeTree} {line : Line} {d : Declaration}

/-- A name that is read at a place stands there. -/
theorem namedOn_of_span {name : Span} (hname : isName (spanText name line.masked).toList = true)
    (htext : d.name = spanText name line.masked) (hcolumn : d.column = name.start) :
    d.NamedOn line := by
  refine .inl ⟨htext ▸ hname, ?_⟩
  rw [htext, hcolumn, spanText, String.toList_ofList, Span.slice]
  exact List.take_prefix _ _

theorem name_ne_empty_of_mem_paramsAfter {column : Nat} {p : Parameter}
    (h : p ∈ (paramsAfter line column).1) : p.name ≠ "" := by
  unfold paramsAfter at h
  dsimp only at h
  split at h
  · simp at h
  · split at h
    · exact Parameter.name_ne_empty_of_mem_parseList h
    · exact Parameter.name_ne_empty_of_mem_parseList h

theorem namedOn_of_mem_parameterDecls {params : List Parameter} {form : DeclarationForm}
    {body : Nat} {owner : Option String}
    (hform : form = .parameter ∧ owner = none ∨ form = .component)
    (hparams : ∀ p ∈ params, p.name ≠ "") (h : d ∈ parameterDecls line params form body owner) :
    d.NamedOn line := by
  obtain ⟨p, hp, rfl⟩ := List.mem_map.1 h
  exact .inr ⟨hform, hparams p hp⟩

theorem namedOn_of_mem_classDecls {word : String} {name : Span}
    (hname : isName (spanText name line.masked).toList = true)
    (h : d ∈ classDecls tree line word name) : d.NamedOn line := by
  have hparams : ∀ p ∈ if classForm word = .recordType then (paramsAfter line name.stop).1 else [],
      p.name ≠ "" := by
    intro p hp
    split at hp
    · exact name_ne_empty_of_mem_paramsAfter hp
    · simp at hp
  unfold classDecls at h
  dsimp only at h
  split at h
  · obtain rfl := List.mem_singleton.1 h
    exact namedOn_of_span hname rfl rfl
  · rcases List.mem_cons.1 h with rfl | h
    · exact namedOn_of_span hname rfl rfl
    · exact namedOn_of_mem_parameterDecls (.inr rfl) hparams h

theorem namedOn_of_mem_functionDecls {form : DeclarationForm} {name : Span}
    (hname : isName (spanText name line.masked).toList = true)
    (h : d ∈ functionDecls tree line form name) : d.NamedOn line := by
  unfold functionDecls at h
  dsimp only at h
  split at h
  · obtain rfl := List.mem_singleton.1 h
    exact namedOn_of_span hname rfl rfl
  · rcases List.mem_cons.1 h with rfl | h
    · exact namedOn_of_span hname rfl rfl
    · exact namedOn_of_mem_parameterDecls (.inl ⟨rfl, rfl⟩)
        (fun p => name_ne_empty_of_mem_paramsAfter) h

theorem namedOn_of_mem_loopDecls {l : Shape.Loop} (hl : Shape.loop? line.masked = some l)
    (h : d ∈ loopDecls tree line l) : d.NamedOn line := by
  obtain ⟨hfirst, hsecond⟩ := Shape.reads_of_loop? hl
  unfold loopDecls at h
  split at h
  · simp at h
  · rcases List.mem_cons.1 h with rfl | h
    · exact namedOn_of_span (hfirst.isName (fun _ h => h) fun _ h => h) rfl rfl
    · obtain ⟨second, hs, rfl⟩ := Option.map_eq_some_iff.1 (Option.mem_toList.1 h)
      have hname := (hsecond second hs).isName (fun _ h => h) fun _ h => h
      exact namedOn_of_span hname rfl rfl

theorem namedOn_of_mem_caughtDecls {name : Span} {type : Option Span}
    (hname : isName (spanText name line.masked).toList = true)
    (h : d ∈ caughtDecls tree line name type) : d.NamedOn line := by
  unfold caughtDecls at h
  dsimp only at h
  split at h
  · simp at h
  · obtain rfl := List.mem_singleton.1 h
    exact namedOn_of_span hname rfl rfl

theorem namedOn_of_mem_memberDecls (h : d ∈ memberDecls tree line) : d.NamedOn line := by
  unfold memberDecls at h
  split at h
  · simp at h
  · split at h
    · simp at h
    · split at h
      · obtain ⟨name, hname, rfl⟩ := List.mem_map.1 h
        refine namedOn_of_span ((Shape.reads_of_enumValue? (Option.mem_toList.1 hname)).isName
          (fun _ => isNameStart_of_isUpper) ?_) rfl rfl
        intro c hc
        rcases Bool.or_eq_true_iff.1 hc with hc | hc
        · rcases Bool.or_eq_true_iff.1 hc with hc | hc
          · exact isWord_of_isNameStart (isNameStart_of_isUpper hc)
          · exact isWord_of_isDigit hc
        · exact isWord_of_isNameStart (isNameStart_of_isLower (by rw [hc, Bool.or_true]))
      · split at h
        · obtain ⟨name, hname, rfl⟩ := List.mem_map.1 h
          exact namedOn_of_span ((Shape.reads_of_signature? (Option.mem_toList.1 hname)).isName
            (fun _ => isNameStart_of_isLower) fun _ h => h) rfl rfl
        · simp at h

theorem namedOn_of_mem_add {table : DeclarationTable} {ds : List Declaration}
    (htable : ∀ d ∈ table.declarations, d.NamedOn line) (hds : ∀ d ∈ ds, d.NamedOn line) :
    ∀ d ∈ (add table ds).declarations, d.NamedOn line :=
  fun d hd => (List.mem_append.1 hd).elim (htable d) (hds d)

theorem namedOn_of_mem_addUnworded {table : DeclarationTable}
    (htable : ∀ d ∈ table.declarations, d.NamedOn line) :
    ∀ d ∈ (addUnworded tree line table).declarations, d.NamedOn line := by
  unfold addUnworded
  split
  · rename_i l hl
    exact namedOn_of_mem_add htable fun d => namedOn_of_mem_loopDecls hl
  · split
    · rename_i name type hcaught
      exact namedOn_of_mem_add htable fun d => namedOn_of_mem_caughtDecls
        ((Shape.reads_of_caught? hcaught).isName (fun _ h => h) fun _ h => h)
    · split
      · rename_i name _ hconstructor
        split
        · exact namedOn_of_mem_add htable fun d => namedOn_of_mem_functionDecls
            ((Shape.reads_of_constructor? hconstructor).isName (fun _ => isNameStart_of_isUpper)
              fun _ h => h)
        · exact namedOn_of_mem_add htable fun d => namedOn_of_mem_memberDecls
      · exact namedOn_of_mem_add htable fun d => namedOn_of_mem_memberDecls

theorem namedOn_of_mem_addLine {table : DeclarationTable}
    (htable : ∀ d ∈ table.declarations, d.NamedOn line) :
    ∀ d ∈ (addLine tree table line).declarations, d.NamedOn line := by
  unfold addLine
  split
  · exact htable
  · split
    · exact htable
    · split
      · rename_i word name _ hclass
        exact namedOn_of_mem_add htable fun d => namedOn_of_mem_classDecls
          ((Shape.reads_of_wordThenName? hclass).isName (fun _ h => h) fun _ h => h)
      · split
        · rename_i name _ hfunction
          obtain ⟨found, hfound, heq⟩ := Option.map_eq_some_iff.1 hfunction
          have hname := (Shape.reads_of_wordThenName? hfound).isName (fun _ h => h) fun _ h => h
          rw [heq] at hname
          exact namedOn_of_mem_add htable fun d => namedOn_of_mem_functionDecls hname
        · split
          · rename_i v hv
            have hname := (Shape.reads_of_variableLine? hv).1.isName (fun _ h => h) fun _ h => h
            unfold addVariable
            split
            · refine namedOn_of_mem_add htable fun d hd => ?_
              rw [List.mem_singleton.1 hd]
              exact namedOn_of_span hname rfl rfl
            · exact htable
          · exact namedOn_of_mem_addUnworded htable

/-- What a line declares is named on it. -/
theorem namedOn_of_mem_lineDecls (hd : d ∈ lineDecls tree line) : d.NamedOn line :=
  namedOn_of_mem_addLine (by simp) d hd

end Collect

/-- Every declared name is a name of the language, parameters and components aside. -/
theorem DeclarationTable.named_of_mem_collect {doc : Document} {tree : ScopeTree} {d : Declaration}
    (hd : d ∈ (collect doc tree).declarations) : d.Named := by
  obtain ⟨line, -, hd, -⟩ := exists_line_of_mem hd
  exact (Collect.namedOn_of_mem_lineDecls hd).named

end Polyloft
