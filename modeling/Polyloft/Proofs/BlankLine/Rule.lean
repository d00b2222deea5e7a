import Mathlib.Data.List.Forall2
import Polyloft.Proofs.BlankLine.Inference
import Polyloft.Proofs.Rule.Total

/-!
# Polyloft.Proofs.BlankLine.Rule

What rules find in a document with one more, empty line. A rule finds the same things on the lines
that the old ones become; those that look at the lines behind pass over the empty one. Two rules put
the number of a line into their messages, and this number moves too.

## Proof shape

The findings of most rules are those of the old document, moved. The two rules that quote a line are
first brought into the form of places and quoted declarations (`redeclared`, `reassigned?`), which
move as everything else does.
-/

namespace Polyloft

open Infer

/-! ### Findings -/

/-- The place on the line that its line becomes. -/
def Range.moved (k : Nat) (r : Range) : Range :=
  { r with line := if r.line < k then r.line else r.line + 1 }

theorem Range.moved_mk (k n : Nat) (start stop : Int) :
    (⟨n, start, stop⟩ : Range).moved k = ⟨(movedLine k n : Nat), start, stop⟩ := by
  by_cases hn : n < k
  · rw [movedLine_of_lt hn]
    simp [moved, hn]
  · rw [movedLine_of_le (Nat.not_lt.1 hn)]
    simp [moved, hn]

/-- The finding at the place that its place becomes. -/
def Finding.moved (k : Nat) (f : Finding) : Finding :=
  { f with range := f.range.moved k }

section

variable (k : Nat)

@[simp] theorem Token.range_moved (t : Token) : (t.moved k).range = t.range.moved k :=
  (Range.moved_mk k t.line t.column t.stop).symm

@[simp] theorem Token.rangeTo_moved (t last : Token) :
    (t.moved k).rangeTo (last.moved k) = (t.rangeTo last).moved k :=
  (Range.moved_mk k t.line t.column last.stop).symm

@[simp] theorem Declaration.range_moved (d : Declaration) :
    (d.moved k).range = d.range.moved k :=
  (Range.moved_mk k d.line d.column d.stopColumn).symm

@[simp] theorem Line.codeRange_moved (l : Line) : (l.moved k).codeRange = l.codeRange.moved k := by
  rw [codeRange, code_moved, index_moved]
  exact (Range.moved_mk k l.index _ _).symm

/-- A token with its neighbours, moved. -/
def Spot.moved (s : Spot) : Spot :=
  ⟨s.before.map (Token.moved k), s.token.moved k, s.after.map (Token.moved k)⟩

@[simp] theorem Spot.token_moved (s : Spot) : (s.moved k).token = s.token.moved k := rfl

@[simp] theorem Spot.previous?_moved (s : Spot) :
    (s.moved k).previous? = s.previous?.map (Token.moved k) :=
  List.head?_map

@[simp] theorem Spot.next?_moved (s : Spot) : (s.moved k).next? = s.next?.map (Token.moved k) :=
  List.head?_map

@[simp] theorem Spot.beforePrevious?_moved (s : Spot) :
    (s.moved k).beforePrevious? = s.beforePrevious?.map (Token.moved k) := by
  rw [beforePrevious?, beforePrevious?, moved, ← List.map_tail, List.head?_map]

@[simp] theorem Spot.afterNext?_moved (s : Spot) :
    (s.moved k).afterNext? = s.afterNext?.map (Token.moved k) := by
  rw [afterNext?, afterNext?, moved, ← List.map_tail, List.head?_map]

end

/-! ### Blocks that are left open -/

/-- A chain that is left open does not start at the module. -/
theorem ScopeBuilder.pos_of_mem_finishFrames (last : Nat) (ids : List Nat) {frames : Array Frame}
    {unclosed : List Nat}
    (hheads : ∀ id ∈ ids, ∀ g, frames[id]? = some g → 0 < g.chainHead)
    (hpos : ∀ i ∈ unclosed, 0 < i) :
    ∀ i ∈ (finishFrames last ids (frames, unclosed)).2, 0 < i := by
  induction ids generalizing frames unclosed with
  | nil => exact hpos
  | cons id ids ih =>
      have hrest (id : Nat) (hid : id ∈ ids) := hheads id (List.mem_cons_of_mem _ hid)
      rw [finishFrames]
      split
      · exact ih hrest hpos
      · rename_i f hf
        split
        · exact ih hrest hpos
        · refine ih ?_ ?_
          · -- Setting last lines changes no chain.
            intro id' hid' g' hg'
            have hchain : some (chainOf g') = frames[id']?.map chainOf :=
              (congrArg (Option.map chainOf) hg').symm.trans
                (chainOf_modify_twice frames last id f.chainHead id')
            obtain ⟨g, hg, heq⟩ := Option.map_eq_some_iff.1 hchain.symm
            rw [← show g.chainHead = g'.chainHead from congrArg Prod.snd heq]
            exact hrest id' hid' g hg
          · intro i hi
            split at hi
            · exact hpos i hi
            · rcases List.mem_append.1 hi with hi | hi
              · exact hpos i hi
              · rw [List.mem_singleton.1 hi]
                exact hheads id (List.mem_cons_self ..) f hf

/-- A block that is left open is not the module. -/
theorem Analysis.IsRead.parent_of_mem_unclosed {a : Analysis} (ha : a.IsRead) {i : Nat} {f : Frame}
    (hi : i ∈ a.tree.unclosed) (hf : a.tree.frame? i = some f) : f.parent.isSome = true := by
  have hshape := ScopeTree.wellFormed_of_isNumbered ha.isNumbered
  have hcoherent := a.document.behind_scopeState.coherent
  rw [ha.tree_eq] at hi hf
  have hpos : 0 < i := by
    rw [ScopeTree.build_eq_run ha.isNumbered] at hi
    refine ScopeBuilder.pos_of_mem_finishFrames _ _ ?_ (by simp) i hi
    intro id hid g hg
    rw [Frame.chainHead]
    cases hhead : g.head with
    | some head =>
        obtain ⟨-, -, hpos, -⟩ := hcoherent.heads hg hhead
        exact hpos
    | none =>
        obtain ⟨-, -, hpos⟩ := hcoherent.linked.exists_frame (List.mem_reverse.1 hid)
        rw [Option.getD_none, hcoherent.id_eq hg]
        exact hpos
  rw [Option.isSome_iff_ne_none]
  intro hnone
  rw [(hshape.parent_none_iff hf).1 hnone] at hpos
  exact Nat.lt_irrefl 0 hpos

namespace Rule

variable {k : Nat}

/-! ### Structure -/

theorem unterminatedIn_moved (line : Line) :
    unterminatedIn (line.moved k) = (unterminatedIn line).map (Finding.moved k) := by
  rw [unterminatedIn, unterminatedIn, Line.tokens_moved, List.find?_map, Option.map_map,
    Option.map_map]
  refine congrArg (Option.map · _) (funext fun t => ?_)
  exact congrArg (Finding.mk · _) (Range.moved_mk k _ _ _).symm

theorem unmatchedBracesFrom_moved (pending tokens : List Token) :
    unmatchedBracesFrom (pending.map (Token.moved k)) (tokens.map (Token.moved k)) =
      (unmatchedBracesFrom pending tokens).map (Token.moved k) := by
  induction tokens generalizing pending with
  | nil => exact List.map_reverse.symm
  | cons t ts ih =>
      rw [List.map_cons, unmatchedBracesFrom.eq_def, unmatchedBracesFrom.eq_def pending]
      dsimp only
      rw [Token.isSymbol_moved, Token.isSymbol_moved]
      split
      · exact ih (t :: pending)
      · split
        · cases pending with
          | nil => exact congrArg (t.moved k :: ·) (ih [])
          | cons p rest => exact ih rest
        · exact ih pending

/-- Findings at the places of tokens. -/
theorem map_range_moved (tokens : List Token) (message : Token → String)
    (hmessage : ∀ t : Token, message (t.moved k) = message t) :
    (tokens.map (Token.moved k)).map (fun t => ⟨t.range, message t⟩) =
      (tokens.map fun t => (⟨t.range, message t⟩ : Finding)).map (Finding.moved k) := by
  rw [List.map_map, List.map_map]
  refine List.map_congr_left fun t _ => ?_
  simp [Finding.moved, hmessage]

/-- Checks that may meet a fault, one after the other. -/
theorem mapM_moved {α β γ : Type} {check : α → Except Fault γ} {check' : β → Except Fault γ}
    {move : γ → γ} {xs : List α} {ys : List β}
    (h : List.Forall₂ (fun x y => check' y = (check x).map move) xs ys) :
    ys.mapM check' = (xs.mapM check).map (List.map move) := by
  induction h with
  | nil => rfl
  | @cons x y xs ys hhead _ ih =>
      rw [List.mapM_cons, List.mapM_cons, hhead, ih]
      cases check x with
      | error e => rfl
      | ok f => cases xs.mapM check <;> rfl

theorem lineFinding_moved {doc doc' : Document} (h : Document.Spaced k doc doc') {n : Nat}
    (hn : n < doc.size) (message : String) :
    (do return ⟨(← doc'.lineAt (movedLine k n)).codeRange, message⟩ : Except Fault Finding) =
      (do return ⟨(← doc.lineAt n).codeRange, message⟩ : Except Fault Finding).map
        (Finding.moved k) := by
  obtain ⟨line, hline⟩ := Document.exists_lineAt_eq_ok hn
  rw [hline, h.lineAt n hline]
  exact congrArg (fun r => Except.ok (Finding.mk r message)) (line.codeRange_moved k)

/-- The blocks that are left open start on the lines that their lines become. -/
theorem forall₂_unclosed {a a' : Analysis} (h : a.Moved k a') (ha : a.IsRead) :
    List.Forall₂ (fun f f' : Frame => f.start < a.document.size ∧ f'.start = movedLine k f.start)
      (a.tree.unclosed.filterMap a.tree.frame?) (a'.tree.unclosed.filterMap a'.tree.frame?) := by
  rw [h.tree.unclosed]
  -- The module has no outlined start, so it matters that it is never among them.
  have hall (ids : List Nat) (hids : ∀ i ∈ ids, i ∈ a.tree.unclosed) :
      List.Forall₂
        (fun f f' : Frame => f.start < a.document.size ∧ f'.start = movedLine k f.start)
        (ids.filterMap a.tree.frame?) (ids.filterMap a'.tree.frame?) := by
    induction ids with
    | nil => exact .nil
    | cons i ids ih =>
        have htail := ih fun j hj => hids j (List.mem_cons_of_mem _ hj)
        rcases Frame.cases_outline (h.tree.frame? i) with ⟨hf, hf'⟩ | ⟨f, f', hf, hf', hsame⟩
        · rwa [List.filterMap_cons_none hf, List.filterMap_cons_none hf']
        · rw [List.filterMap_cons_some hf, List.filterMap_cons_some hf']
          have hparent := ha.parent_of_mem_unclosed (hids i (List.mem_cons_self ..)) hf
          exact .cons ⟨(ha.stop_lt hf).1, Frame.start_eq_of_outline hsame hparent⟩ htail
  exact hall _ fun _ hi => hi

theorem malformedHeader?_moved (tokens : List Token) :
    malformedHeader? (tokens.map (Token.moved k)) =
      (malformedHeader? tokens).map (Finding.moved k) := by
  unfold malformedHeader?
  rw [dropWhile_isDeclarationPrefix_moved]
  cases tokens.dropWhile Token.isDeclarationPrefix with
  | nil => rfl
  | cons word rest =>
      have hname := headAny_moved k rest (·.kind == .identifier) fun _ => rfl
      have hparen := headAny_moved k rest.tail (·.isSymbol "(") fun _ => rfl
      have hlast : (rest.map (Token.moved k)).headD (word.moved k) = (rest.headD word).moved k := by
        cases rest <;> rfl
      simp only [List.map_cons, ← List.map_tail, hname, hparen, hlast, Token.isKeyword_moved,
        Token.rangeTo_moved]
      split <;> rfl

/-! ### Declarations -/

theorem startsDeclaration_moved (tokens : List Token) :
    startsDeclaration (tokens.map (Token.moved k)) = startsDeclaration tokens := by
  unfold startsDeclaration
  rw [dropWhile_isDeclarationPrefix_moved]
  cases tokens.dropWhile Token.isDeclarationPrefix with
  | nil => simp
  | cons first rest =>
      have hparen := headAny_moved k rest (·.isSymbol "(") fun _ => rfl
      have harrow := any_moved k tokens (·.isSymbol "->") fun _ => rfl
      have hcolon : (tokens.map (Token.moved k)).getLast?.any (·.isSymbol ":") =
          tokens.getLast?.any (·.isSymbol ":") := by
        rw [List.getLast?_map, Option.any_map]
        rfl
      simp only [List.map_cons, hparen, harrow, hcolon, Token.kind_moved, Token.text_moved,
        Token.startsUpper_moved]

theorem annotates_moved (tokens : List Token) {later later' : List Line}
    (hlater : Spread k later later') :
    annotates (tokens.map (Token.moved k)) later' = annotates tokens later := by
  have hmarker := any_moved k tokens (·.kind != .marker) fun _ => rfl
  -- The declaration is looked for on the next line that is not blank.
  have hnext := hlater.find? (p := fun l => !l.isBlank) (q := fun l => !l.isBlank)
    (fun l => by rw [Line.isBlank_moved]) fun _ => rfl
  rw [annotates, annotates, hmarker, startsDeclaration_moved, hnext, Option.any_map]
  congr 2
  funext l
  show startsDeclaration (l.moved k).codeTokens = _
  rw [Line.codeTokens_moved, startsDeclaration_moved]

theorem danglingIn_moved {ls ls' : List Line} (h : Spread k ls ls') :
    danglingIn ls' = (danglingIn ls).map (Finding.moved k) := by
  induction h with
  | nil => rfl
  | empty n _ ih => exact ih
  | @line l ls ls' hrest ih =>
      rw [danglingIn, danglingIn, Line.codeTokens_moved]
      cases l.codeTokens with
      | nil => exact ih
      | cons first rest =>
          have hannotates := annotates_moved (first :: rest) hrest
          rw [List.map_cons] at hannotates
          simp only [List.map_cons, hannotates, Token.kind_moved, Token.range_moved, ih]
          split <;> rfl

theorem untypedIn_moved (d : Declaration) :
    untypedIn (d.moved k) = (untypedIn d).map (Finding.moved k) := by
  rw [untypedIn, untypedIn, List.map_map]
  exact List.map_congr_left fun p _ => congrArg (Finding.mk · _) (Range.moved_mk k _ _ _).symm

theorem unusedIn_moved {doc doc' : Document} (h : Document.Spaced k doc doc')
    (i : ImportStatement) :
    unusedIn doc'.lines (i.moved k) = (unusedIn doc.lines i).map (Finding.moved k) := by
  have hlater := (h.spread_drop i.line).flatMap (fun l _ => l.codeTokens_moved k) fun _ => rfl
  have hsymbols : (i.moved k).symbols = i.symbols.map (ImportedSymbol.moved k) := rfl
  rw [unusedIn, unusedIn, show (i.moved k).line = movedLine k i.line from rfl, hlater, hsymbols,
    List.filter_map, List.map_map, List.map_map]
  congr 1
  · funext s
    exact congrArg (Finding.mk · _) (Range.moved_mk k _ _ _).symm
  · congr 1
    funext s
    have huses := any_moved k ((doc.lines.drop (i.line + 1)).flatMap Line.codeTokens)
      (usesName s.name) fun _ => rfl
    exact congrArg (!·) huses

/-! ### Flow -/

section

variable {a a' : Analysis} (h : a.Moved k a')
include h

theorem misplacedIn_moved (words : List String) (kind : BlockKind) (line : Line) :
    misplacedIn a' words kind (line.moved k) =
      (misplacedIn a words kind line).map (Token.moved k) := by
  rw [misplacedIn, misplacedIn, Line.codeTokens_moved, List.find?_map, Option.filter_map]
  refine congrArg (Option.map _) ?_
  congr 1
  funext t
  rw [Function.comp_apply, Line.index_moved, h.tree.contains]

theorem misplaced_moved (words : List String) (kind : BlockKind) (message : Token → String)
    (hmessage : ∀ t : Token, message (t.moved k) = message t) :
    (a'.document.lines.filterMap (misplacedIn a' words kind)).map
        (fun t => ⟨t.range, message t⟩) =
      ((a.document.lines.filterMap (misplacedIn a words kind)).map
        fun t => (⟨t.range, message t⟩ : Finding)).map (Finding.moved k) := by
  rw [h.document.spread.filterMap (fun l _ => misplacedIn_moved h words kind l) fun _ => rfl,
    map_range_moved _ _ hmessage]

omit h in
theorem jump?_moved (tokens : List Token) : jump? (tokens.map (Token.moved k)) = jump? tokens := by
  cases tokens with
  | nil => rfl
  | cons first rest =>
      have hbalance := bracketBalance_moved k (first :: rest)
      have hend := any_moved k rest (·.isKeyword "end") fun _ => rfl
      rw [List.map_cons] at hbalance
      simp only [List.map_cons, jump?, hbalance, hend, Token.isKeywordIn_moved, Token.text_moved]

theorem followingIn_moved (line : Line) {later later' : List Line}
    (hlater : Spread k later later') :
    followingIn a' (a'.tree.frameAt? (line.moved k).index) later' =
      (followingIn a (a.tree.frameAt? line.index) later).map (Line.moved k) := by
  have hframe (n : Nat) := map_eq_of_outline (h.tree.frameAt? n) Frame.id fun _ _ => rfl
  have hnext := hlater.find? (p := fun l => !l.codeTokens.isEmpty)
    (q := fun l => !l.codeTokens.isEmpty) (fun l => by rw [Line.codeTokens_moved, List.isEmpty_map])
    fun _ => rfl
  rw [followingIn, followingIn, hnext, Option.filter_map]
  refine congrArg (Option.map _) ?_
  congr 1
  funext l
  have hword := headAny_moved k l.codeTokens (·.isKeywordIn blockEndWords) fun _ => rfl
  rw [Function.comp_apply, Line.codeTokens_moved, hword, Line.index_moved, Line.index_moved,
    hframe, hframe]

theorem unreachableIn_moved {ls ls' : List Line} (hls : Spread k ls ls') :
    unreachableIn a' ls' = (unreachableIn a ls).map (Finding.moved k) := by
  induction hls with
  | nil => rfl
  | empty n _ ih => exact ih
  | @line l ls ls' hrest ih =>
      rw [unreachableIn, unreachableIn, List.map_append, ih, Line.codeTokens_moved, jump?_moved,
        followingIn_moved h l hrest]
      congr 1
      cases jump? l.codeTokens with
      | none => rfl
      | some word =>
          cases followingIn a (a.tree.frameAt? l.index) ls with
          | none => rfl
          | some next => simp [Finding.moved]

end

theorem misindented_moved (width depth : Int) {ls ls' : List Line} (h : Spread k ls ls') :
    misindented width depth ls' =
      (misindented width depth ls).map (List.map (Finding.moved k)) := by
  induction h generalizing depth with
  | nil => rfl
  | empty n _ ih =>
      -- An empty line is not judged and opens no bracket.
      rw [misindented, if_neg (by simp [judgesIndent]), Line.codeTokens_empty, ih]
      exact congrArg (fun d => (misindented width d _).map _) (Int.add_zero depth)
  | line l _ ih =>
      have hjudges : judgesIndent depth (l.moved k) = judgesIndent depth l := by
        simp only [judgesIndent, Line.codeTokens_moved, List.isEmpty_map, Line.text_moved,
          Line.indent_moved]
      rw [misindented, misindented, hjudges, Line.codeTokens_moved, bracketBalance_moved,
        Line.indent_moved, Line.index_moved, ih]
      split
      · split
        · rfl
        · split
          · cases misindented width (depth + bracketBalance l.codeTokens) _ with
            | error e => rfl
            | ok findings =>
                exact congrArg (fun r => Except.ok (Finding.mk r _ :: _))
                  (Range.moved_mk k _ _ _).symm
          · rfl
      · rfl

/-! ### Neighbours -/

theorem map_ite_some {α β : Type} (c : Bool) (x : α) (f : α → β) :
    (if c then some x else none).map f = if c then some (f x) else none := by
  cases c <;> rfl

theorem spotsAfter_moved (before tokens : List Token) :
    spotsAfter (before.map (Token.moved k)) (tokens.map (Token.moved k)) =
      (spotsAfter before tokens).map (Spot.moved k) := by
  induction tokens generalizing before with
  | nil => rfl
  | cons t ts ih => exact congrArg (_ :: ·) (ih (t :: before))

theorem spots_moved (tokens : List Token) :
    spots (tokens.map (Token.moved k)) = (spots tokens).map (Spot.moved k) :=
  spotsAfter_moved [] tokens

theorem documentSpots_moved {doc doc' : Document} (h : Document.Spaced k doc doc') :
    documentSpots doc' =
      (documentSpots doc).map fun p => (movedLine k p.1, p.2.moved k) := by
  refine h.spread.flatMap ?_ fun _ => rfl
  intro line _
  rw [Line.codeTokens_moved, spots_moved, List.map_map, List.map_map]
  rfl

theorem wordOperatorAt?_moved (s : Spot) :
    wordOperatorAt? (s.moved k) = (wordOperatorAt? s).map (Finding.moved k) := by
  have hused : isUsedAsOperator (s.moved k) = isUsedAsOperator s := by
    rw [isUsedAsOperator, isUsedAsOperator, Spot.next?_moved, Spot.previous?_moved, Option.any_map]
    cases s.previous? <;> rfl
  rw [wordOperatorAt?, wordOperatorAt?, hused, Spot.token_moved, Token.text_moved,
    Token.kind_moved, Token.range_moved]
  cases wordOperator? s.token.text with
  | none => rfl
  | some operator =>
      dsimp only [Option.bind_some]
      split <;> rfl

theorem comparedNames?_moved (s : Spot) :
    comparedNames? (s.moved k) =
      (comparedNames? s).map fun p => (p.1.moved k, p.2.moved k) := by
  rw [comparedNames?, comparedNames?, Spot.previous?_moved, Spot.next?_moved,
    Spot.beforePrevious?_moved, Spot.afterNext?_moved, Option.any_map, Option.any_map]
  cases s.previous? with
  | none => rfl
  | some left =>
      cases s.next? with
      | none => rfl
      | some right =>
          dsimp only [Option.map_some]
          rw [map_ite_some]
          rfl

theorem accessedMember?_moved (s : Spot) :
    accessedMember? (s.moved k) =
      (accessedMember? s).map fun p => (p.1.moved k, p.2.moved k) := by
  rw [accessedMember?, accessedMember?, Spot.previous?_moved, Spot.next?_moved,
    Spot.beforePrevious?_moved, Option.any_map]
  cases s.previous? with
  | none => rfl
  | some receiver =>
      cases s.next? with
      | none => rfl
      | some member =>
          dsimp only [Option.map_some]
          rw [map_ite_some]
          rfl

theorem zeroDivision?_moved (s : Spot) :
    zeroDivision? (s.moved k) = (zeroDivision? s).map (Option.map (Finding.moved k)) := by
  rw [zeroDivision?, zeroDivision?, Spot.next?_moved, Spot.afterNext?_moved, Option.any_map]
  cases s.next? with
  | none => rfl
  | some operand =>
      refine Eq.trans ?_ (apply_ite (Except.map (Option.map (Finding.moved k))) _ _ _).symm
      refine if_congr Iff.rfl ?_ rfl
      rw [Token.text_moved, Spot.token_moved, Token.rangeTo_moved]
      cases isZeroNumeral operand.text.toList with
      | error e => rfl
      | ok zero =>
          simp only [bind, Except.bind]
          rw [apply_ite (Except.map (Option.map (Finding.moved k)))]
          rfl

theorem zeroDivisions_moved {doc doc' : Document} (h : Document.Spaced k doc doc') :
    (do return (← (documentSpots doc').mapM fun p => zeroDivision? p.2).filterMap id :
        Except Fault (List Finding)) =
      (do return (← (documentSpots doc).mapM fun p => zeroDivision? p.2).filterMap id :
        Except Fault (List Finding)).map (List.map (Finding.moved k)) := by
  have hspots : List.Forall₂
      (fun p q => zeroDivision? q.2 = (zeroDivision? p.2).map (Option.map (Finding.moved k)))
      (documentSpots doc) (documentSpots doc') := by
    rw [documentSpots_moved h, List.forall₂_map_right_iff, List.forall₂_same]
    exact fun p _ => zeroDivision?_moved p.2
  have hchecks := mapM_moved hspots
  rw [hchecks]
  cases (documentSpots doc).mapM fun p => zeroDivision? p.2 with
  | error e => rfl
  | ok found =>
      refine congrArg Except.ok ?_
      rw [List.filterMap_map, List.map_filterMap]
      rfl

theorem stringTokens_moved {doc doc' : Document} (h : Document.Spaced k doc doc') :
    stringTokens doc' = (stringTokens doc).map (Token.moved k) := by
  rw [stringTokens, stringTokens, h.codeTokens, List.filter_map]
  rfl

/-! ### Rules that quote a line -/

/-- The variables declared again, each with the declaration before it, when those in `first` came
before. -/
def redeclared (first : List Declaration) : List Declaration → List (Declaration × Declaration)
  | [] => []
  | d :: ds =>
    if isUnique d then
      match first.find? fun e => e.frame == d.frame && e.name == d.name with
      | none => redeclared (first ++ [d]) ds
      | some e => (d, e) :: redeclared first ds
    else redeclared first ds

/-- What is said about a variable that is declared again. -/
def redeclaration (p : Declaration × Declaration) : Finding :=
  ⟨p.1.range, "Variable '" ++ p.1.name ++ "' is already declared in this scope (line " ++
    toString (p.2.line + 1) ++ ")"⟩

theorem duplicatesAfter_eq (first ds : List Declaration) :
    duplicatesAfter first ds = (redeclared first ds).map redeclaration := by
  induction ds generalizing first with
  | nil => rfl
  | cons d ds ih =>
      rw [duplicatesAfter, redeclared]
      split
      · cases first.find? fun e => e.frame == d.frame && e.name == d.name with
        | none => exact ih _
        | some e => exact congrArg (_ :: ·) (ih first)
      · exact ih first

theorem redeclared_moved (first ds : List Declaration) :
    redeclared (first.map (Declaration.moved k)) (ds.map (Declaration.moved k)) =
      (redeclared first ds).map fun p => (p.1.moved k, p.2.moved k) := by
  induction ds generalizing first with
  | nil => rfl
  | cons d ds ih =>
      have hunique : isUnique (d.moved k) = isUnique d := rfl
      have hfind : (first.map (Declaration.moved k)).find?
          (fun e => e.frame == (d.moved k).frame && e.name == (d.moved k).name) =
          (first.find? fun e => e.frame == d.frame && e.name == d.name).map
            (Declaration.moved k) := List.find?_map ..
      rw [List.map_cons, redeclared, redeclared, hunique, hfind]
      split
      · cases first.find? fun e => e.frame == d.frame && e.name == d.name with
        | none =>
            have hmore := ih (first ++ [d])
            rw [List.map_append] at hmore
            exact hmore
        | some e => exact congrArg (_ :: ·) (ih first)
      · exact ih first

/-- The name that a line assigns to, with the constant of an earlier line that it means. -/
def reassigned? (a : Analysis) (line : Line) : Option (Token × Declaration) :=
  (assignment? line.codeTokens).bind fun (name, _, _) =>
    ((a.visible? name.text line.index).filter fun d => d.isConstant && d.line < line.index).map
      (name, ·)

/-- What is said about an assignment to a constant. -/
def reassignment (p : Token × Declaration) : Finding :=
  let word := if p.2.form == .variable .const then "const" else "final"
  ⟨p.1.range, "Cannot reassign " ++ word ++ " variable '" ++ p.1.text ++ "' (declared on line " ++
    toString (p.2.line + 1) ++ ")"⟩

/-- The names that are passed over before they are looked up are not meant to be constants. -/
theorem reassignmentIn_eq (a : Analysis) (line : Line) :
    reassignmentIn a line = (reassigned? a line).map reassignment := by
  rw [reassignmentIn, reassigned?]
  cases assignment? line.codeTokens with
  | none => rfl
  | some s =>
      dsimp only [Option.bind_some]
      cases hvisible : a.visible? s.1.text line.index with
      | none => split <;> rfl
      | some d =>
          dsimp only [Option.bind_some, Option.filter_some]
          cases hconstant : d.isConstant with
          | false =>
              rw [Bool.false_and, if_neg Bool.false_ne_true, if_neg Bool.false_ne_true, ite_self]
              rfl
          | true =>
              rw [if_pos (DeclarationTable.hasConstant_iff.2 ⟨d,
                DeclarationTable.mem_of_visible? hvisible,
                DeclarationTable.name_of_visible? hvisible, hconstant⟩)]
              split <;> rfl

theorem assignment?_moved (tokens : List Token) :
    assignment? (tokens.map (Token.moved k)) =
      (assignment? tokens).map
        fun s => (s.1.moved k, s.2.1.moved k, s.2.2.map (Token.moved k)) := by
  match tokens with
  | [] => rfl
  | [_] => rfl
  | name :: op :: rest =>
    rw [List.map_cons, List.map_cons, assignment?, assignment?, map_ite_some]
    rfl

theorem reassigned?_moved {a a' : Analysis} (h : a.Moved k a') (line : Line) :
    reassigned? a' (line.moved k) =
      (reassigned? a line).map fun p => (p.1.moved k, p.2.moved k) := by
  rw [reassigned?, reassigned?, Line.codeTokens_moved, assignment?_moved, Line.index_moved]
  cases assignment? line.codeTokens with
  | none => rfl
  | some s =>
      dsimp only [Option.map_some, Option.bind_some]
      rw [Token.text_moved, h.visible?, Option.filter_map, Option.map_map, Option.map_map]
      refine congrArg (Option.map _) (congrArg (Option.filter · _) (funext fun d => ?_))
      rw [Function.comp_apply, Declaration.isConstant_moved, Declaration.line_moved]
      simp only [movedLine_lt_iff]

end Rule

end Polyloft
