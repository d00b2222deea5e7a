import Polyloft.Proofs.Declaration.OneLine
import Polyloft.Rule.Flow

/-!
# Polyloft.Proofs.Rule.Succession

What comes next behind a line of a well-nested program, and what a scan for statements behind a jump
makes of it. `Items.successions` lists the plain lines of a program, each with the line that comes next
in the same block, branch or clause. The scan does not know the program: it sees a list of rows, which
are the code tokens of a line and the number of its frame (`unreachableRows`). On the rows of a
program it finds what is read off the successions (`unreachableRows_items`).

## Proof shape

The scan is followed along the grammar, with the rows behind the items in hand. What these rows hold
for a line of the items is either nothing that could be taken for its next statement, or the first
clause of a switch. A construct on one line has a frame of its own, and what continues a chain or
starts a further clause is held by a frame further out, so neither is taken for a next statement.
-/

namespace Polyloft

open Polyloft.Rule (jump? jumpWords blockEndWords)

/-! ### Jumps and what comes next -/

/-- A line that leaves its block: it starts with one of the words, no more brackets are opened than
closed, and no construct ends on it. -/
def IsJump (word : String) (tokens : List Token) : Prop :=
  word ∈ ["return", "break", "continue", "throw"] ∧
    tokens.head?.any (·.isKeyword word) = true ∧ bracketBalance tokens ≤ 0 ∧
    ∀ t ∈ tokens, t.isKeyword "end" = false

instance (word : String) (tokens : List Token) : Decidable (IsJump word tokens) :=
  inferInstanceAs (Decidable (_ ∧ _))

/-- What can come next behind a line: an item of the same block over one line or more, a construct
that is written on one line, or the first clause of the switch. -/
inductive NextKind where
  | item
  | oneLine
  | clause
deriving DecidableEq, Repr

/-- The line that comes next behind a line of a block. -/
structure NextLine where
  number : Nat
  tokens : List Token
  kind : NextKind

/-- Is the line told to be unreachable behind a jump? -/
def NextLine.IsJudged (next : NextLine) : Prop :=
  match next.kind with
  | .item => next.tokens.head?.any (·.isKeyword "end") = false
  | .oneLine => False
  | .clause => next.tokens.head?.any Token.isDeclarationPrefix = true

instance (next : NextLine) : Decidable next.IsJudged :=
  match next with
  | ⟨_, tokens, .item⟩ => inferInstanceAs (Decidable (tokens.head?.any (·.isKeyword "end") = false))
  | ⟨_, _, .oneLine⟩ => inferInstanceAs (Decidable False)
  | ⟨_, tokens, .clause⟩ =>
      inferInstanceAs (Decidable (tokens.head?.any Token.isDeclarationPrefix = true))

/-- The first line with code of some items that start on line `n`. -/
def Items.first? (n : Nat) : Items → Option NextLine
  | .nil => none
  | .blank rest => rest.first? (n + 1)
  | .plain line _ => some ⟨n, line.tokens, .item⟩
  | .inline line _ => some ⟨n, line.tokens, .oneLine⟩
  | .block header _ _ _ => some ⟨n, header.tokens, .item⟩
  | .chain _ header _ _ _ => some ⟨n, header.tokens, .item⟩
  | .switch header _ _ _ => some ⟨n, header.tokens, .item⟩

/-- The first clause of a switch, whose clauses start on line `n`. -/
def Clauses.first? (n : Nat) : Clauses → Option NextLine
  | .close _ => none
  | .clause line _ _ => some ⟨n, line.tokens, .clause⟩

mutual

/-- The plain lines of a program that starts on line `n`, each with what comes next in the same
block, branch or clause. `behind` comes next behind the last item. -/
def Items.successions (n : Nat) (behind : Option NextLine) :
    Items → List (PlainLine × Option NextLine)
  | .nil => []
  | .blank rest => rest.successions (n + 1) behind
  | .plain line rest =>
      (line, (rest.first? (n + 1)).or behind) :: rest.successions (n + 1) behind
  | .inline _ rest => rest.successions (n + 1) behind
  | .block _ body _ rest =>
      body.successions (n + 1) none ++ rest.successions (n + 1 + body.height + 1) behind
  | .chain _ _ body branches rest =>
      let next := n + 1 + body.height
      body.successions (n + 1) none ++
        (branches.successions next ++ rest.successions (next + branches.lines.length) behind)
  | .switch _ body clauses rest =>
      let next := n + 1 + body.height
      body.successions (n + 1) (clauses.first? next) ++
        (clauses.successions next ++ rest.successions (next + clauses.lines.length) behind)

/-- The plain lines of the rest of a chain. -/
def Branches.successions {family : ChainFamily} (n : Nat) :
    Branches family → List (PlainLine × Option NextLine)
  | .close _ => []
  | .last _ => []
  | .branch _ body rest =>
      body.successions (n + 1) none ++ rest.successions (n + 1 + body.height)

/-- The plain lines of the rest of a switch. -/
def Clauses.successions (n : Nat) : Clauses → List (PlainLine × Option NextLine)
  | .close _ => []
  | .clause _ body rest =>
      body.successions (n + 1) none ++ rest.successions (n + 1 + body.height)

end

/-! ### First words -/

theorem Token.isKeywordIn_iff {t : Token} {words : List String} :
    t.isKeywordIn words = true ↔ ∃ w ∈ words, t.isKeyword w = true := by
  rw [isKeywordIn, Bool.and_eq_true, beq_iff_eq, List.contains_iff_mem]
  constructor
  · rintro ⟨hkind, hword⟩
    exact ⟨t.text, hword, Token.isKeyword_iff.2 ⟨hkind, rfl⟩⟩
  · rintro ⟨w, hw, hkeyword⟩
    obtain ⟨hkind, rfl⟩ := Token.isKeyword_iff.1 hkeyword
    exact ⟨hkind, hw⟩

/-- What may stand before a declaration is none of the other words. -/
theorem Token.isKeywordIn_of_isDeclarationPrefix {t : Token} (h : t.isDeclarationPrefix = true)
    {words : List String} (hwords : ∀ w ∈ words, w ∉ modifiers) :
    t.isKeywordIn words = false := by
  rw [Bool.eq_false_iff]
  intro hword
  obtain ⟨w, hw, hkeyword⟩ := Token.isKeywordIn_iff.1 hword
  obtain ⟨hkind, rfl⟩ := Token.isKeyword_iff.1 hkeyword
  rw [isDeclarationPrefix, hkind, Bool.or_eq_true, isKeywordIn, hkind, Bool.and_eq_true,
    List.contains_iff_mem] at h
  rcases h with h | h
  · exact absurd h (by decide)
  · exact hwords _ hw h.2

/-- A line starts with what may stand before a declaration, or with its word. -/
theorem head_of_leads {tokens after : List Token} {word : Token}
    (h : tokens.dropWhile Token.isDeclarationPrefix = word :: after) :
    ∃ first rest, tokens = first :: rest ∧ (first.isDeclarationPrefix = true ∨ first = word) := by
  cases tokens with
  | nil => simp at h
  | cons first rest =>
      refine ⟨first, rest, rfl, ?_⟩
      rw [List.dropWhile_cons] at h
      split at h
      · rename_i hleading
        exact .inl hleading
      · exact .inr (List.cons.inj h).1

theorem jump?_eq_some_iff {tokens : List Token} {word : String} :
    jump? tokens = some word ↔ IsJump word tokens := by
  cases tokens with
  | nil => simp [jump?, IsJump]
  | cons first rest =>
      rw [jump?, Option.ite_none_right_eq_some, Option.some.injEq, IsJump, List.head?_cons,
        Option.any_some, List.forall_mem_cons, Bool.and_eq_true, Bool.and_eq_true,
        decide_eq_true_eq, Bool.not_eq_true', List.any_eq_false]
      simp only [Bool.not_eq_true]
      constructor
      · rintro ⟨⟨⟨hjump, hbalance⟩, hend⟩, rfl⟩
        obtain ⟨w, hw, hfirst⟩ := Token.isKeywordIn_iff.1 hjump
        obtain ⟨-, rfl⟩ := Token.isKeyword_iff.1 hfirst
        refine ⟨hw, hfirst, hbalance, Token.isKeyword_eq_false hfirst ?_, hend⟩
        rintro heq
        rw [heq] at hw
        exact absurd hw (by decide)
      · rintro ⟨hw, hfirst, hbalance, -, hend⟩
        exact ⟨⟨⟨Token.isKeywordIn_iff.2 ⟨_, hw, hfirst⟩, hbalance⟩, hend⟩,
          (Token.isKeyword_iff.1 hfirst).2⟩

/-- A line that starts with another word is no jump. -/
theorem jump?_eq_none_of_leads {tokens after : List Token} {word : Token}
    (hleads : tokens.dropWhile Token.isDeclarationPrefix = word :: after)
    (hword : word.isKeywordIn jumpWords = false) : jump? tokens = none := by
  obtain ⟨first, rest, rfl, hfirst⟩ := head_of_leads hleads
  have hjump : first.isKeywordIn jumpWords = false := by
    rcases hfirst with hleading | rfl
    · exact Token.isKeywordIn_of_isDeclarationPrefix hleading (by decide)
    · exact hword
  rw [jump?, hjump]
  rfl

/-- Does a line start with one of the words that end a block? -/
def endsBlock (tokens : List Token) : Bool :=
  tokens.head?.any (·.isKeywordIn blockEndWords)

/-- An ordinary line can only do so with the word `end`. -/
theorem IsOrdinary.endsBlock_eq {tokens : List Token} (h : IsOrdinary tokens) :
    endsBlock tokens = tokens.head?.any (·.isKeyword "end") := by
  cases tokens with
  | nil => rfl
  | cons first rest =>
      rw [endsBlock, List.head?_cons, Option.any_some, Option.any_some,
        show blockEndWords = "end" :: continuationWords from rfl, Token.isKeywordIn_cons]
      suffices hother : first.isKeywordIn continuationWords = false by
        rw [hother, Bool.or_false]
      by_cases hleading : first.isDeclarationPrefix = true
      · exact Token.isKeywordIn_of_isDeclarationPrefix hleading (by decide)
      · exact h.not_continuation first rest (List.dropWhile_cons_of_neg hleading)

section

variable {family : ChainFamily} {last : Bool}

theorem TerminatorLine.exists_end (close : TerminatorLine) :
    ∃ t ts, close.tokens = t :: ts ∧ t.isKeyword "end" = true := by
  have hcloses := close.closes
  cases htokens : close.tokens with
  | nil => simp [htokens, isTerminator] at hcloses
  | cons t ts =>
      simp only [htokens, isTerminator, Bool.and_eq_true] at hcloses
      exact ⟨t, ts, rfl, hcloses.1⟩

theorem TerminatorLine.endsBlock (close : TerminatorLine) : endsBlock close.tokens = true := by
  obtain ⟨t, ts, htokens, hend⟩ := close.exists_end
  rw [htokens]
  exact Token.isKeywordIn_iff.2 ⟨_, by decide, hend⟩

theorem TerminatorLine.jump? (close : TerminatorLine) : jump? close.tokens = none := by
  obtain ⟨t, ts, htokens, hend⟩ := close.exists_end
  have hjump : t.isKeywordIn jumpWords = false := by
    obtain ⟨hkind, htext⟩ := Token.isKeyword_iff.1 hend
    rw [Token.isKeywordIn, htext]
    simp [jumpWords]
  rw [htokens, Rule.jump?, hjump]
  rfl

/-- A word that continues a chain or starts a clause is no jump. -/
theorem isKeywordIn_jumpWords_of_text {t : Token} (h : t.text ∈ continuationWords) :
    t.isKeywordIn jumpWords = false := by
  have hother : ∀ w ∈ continuationWords, jumpWords.contains w = false := by decide
  rw [Token.isKeywordIn, hother t.text h, Bool.and_false]

theorem BranchLine.text_mem (line : BranchLine family last) :
    line.word.text ∈ continuationWords := by
  have hbranches := line.branches
  unfold branchConstruct? at hbranches
  split at hbranches <;> simp_all [continuationWords]

theorem ClauseLine.text_mem (line : ClauseLine) : line.word.text ∈ ["case", "default"] := by
  have hstarts := line.starts
  unfold clauseConstruct? at hstarts
  split at hstarts <;> simp_all

theorem BranchLine.jump? (line : BranchLine family last) : jump? line.tokens = none :=
  jump?_eq_none_of_leads line.leads (isKeywordIn_jumpWords_of_text line.text_mem)

theorem ClauseLine.jump? (line : ClauseLine) : jump? line.tokens = none := by
  refine jump?_eq_none_of_leads line.leads (isKeywordIn_jumpWords_of_text ?_)
  have hwords : ∀ w ∈ ["case", "default"], w ∈ continuationWords := by decide
  exact hwords _ line.text_mem

/-- The line of a clause ends the clause before it by its first word, unless an annotation or a
modifier comes first. -/
theorem ClauseLine.endsBlock_eq (line : ClauseLine) :
    endsBlock line.tokens = !line.tokens.head?.any Token.isDeclarationPrefix := by
  obtain ⟨first, rest, htokens, hfirst⟩ := head_of_leads line.leads
  rw [endsBlock, htokens, List.head?_cons, Option.any_some, Option.any_some]
  rcases hfirst with hleading | rfl
  · rw [hleading, Token.isKeywordIn_of_isDeclarationPrefix hleading (by decide)]
    rfl
  · have hplain := List.head?_dropWhile_not Token.isDeclarationPrefix line.tokens
    rw [line.leads, List.head?_cons] at hplain
    have hwords : ∀ w ∈ ["case", "default"], w ∈ blockEndWords := by decide
    rw [Token.isKeywordIn_iff.2
      ⟨_, hwords _ line.text_mem, Token.isKeyword_iff.2 ⟨line.isKeyword, rfl⟩⟩]
    simpa using hplain

/-- A construct that is written on one line is no jump: its line has an `end`. -/
theorem OpeningLine.jump? (line : OpeningLine true) : jump? line.tokens = none := by
  rw [Option.eq_none_iff_forall_ne_some]
  intro word hjump
  obtain ⟨-, -, -, hend⟩ := jump?_eq_some_iff.1 hjump
  have hends := line.ends
  rw [hasEnd, List.any_eq_true] at hends
  obtain ⟨t, ht, hkeyword⟩ := hends
  rw [hend t (List.mem_of_mem_tail ht)] at hkeyword
  exact Bool.noConfusion hkeyword

/-- A jump can only open a `do` block. -/
theorem jump?_eq_none_of_opening {tokens : List Token} {o : Opening}
    (hopens : opening? tokens = some o) (hdo : o.construct ≠ .doBlock) : jump? tokens = none := by
  unfold opening? at hopens
  split at hopens
  · simp at hopens
  · rename_i first rest hleads
    refine jump?_eq_none_of_leads hleads ?_
    rw [Bool.eq_false_iff]
    intro hjump
    obtain ⟨w, hw, hfirst⟩ := Token.isKeywordIn_iff.1 hjump
    obtain ⟨hkind, rfl⟩ := Token.isKeyword_iff.1 hfirst
    have hplain : ∀ w ∈ jumpWords, w ≠ "def" ∧ leadingConstruct? w = none := by decide
    obtain ⟨hdef, hleading⟩ := hplain _ hw
    have hother : first.isKeyword "def" = false := Token.isKeyword_eq_false hfirst hdef
    simp only [hother, Bool.false_eq_true, if_false, hkind, if_true, hleading,
      trailingOpening?] at hopens
    split at hopens
    · simp_all
    · split at hopens
      · exact hdo (by rw [← Option.some.inj hopens])
      · simp at hopens

end

/-! ### Rows -/

/-- The number of the next row with code, if it is a statement of the given frame. The rows are
lines, each with its code tokens and the number of its frame, from line `n` on. -/
def followingRow (owner n : Nat) : List (List Token × Nat) → Option Nat
  | [] => none
  | (tokens, o) :: later =>
    if tokens = [] then followingRow owner (n + 1) later
    else if !endsBlock tokens && o == owner then some n
    else none

/-- The numbers of the rows that stand after a jump, each with the word of the jump. -/
def unreachableRows (n : Nat) : List (List Token × Nat) → List (Nat × String)
  | [] => []
  | (tokens, owner) :: later =>
    let found := (jump? tokens).bind fun word =>
      (followingRow owner (n + 1) later).map fun next => (next, word)
    found.toList ++ unreachableRows (n + 1) later

/-- The rows of a program whose first frame has number `id`. -/
def Items.rows (p : Items) (id parent : Nat) : List (List Token × Nat) :=
  p.lines.zip (p.owners id parent)

@[inherit_doc Items.rows]
def Branches.rows {family : ChainFamily} (r : Branches family) (id parent current : Nat) :
    List (List Token × Nat) :=
  r.lines.zip (r.owners id parent current)

@[inherit_doc Items.rows]
def Clauses.rows (r : Clauses) (id parent : Nat) : List (List Token × Nat) :=
  r.lines.zip (r.owners id parent)

mutual

theorem Items.length_owners : ∀ (p : Items) (id parent : Nat),
    (p.owners id parent).length = p.lines.length
  | .nil, _, _ => rfl
  | .blank rest, id, parent => congrArg (· + 1) (rest.length_owners id parent)
  | .plain _ rest, id, parent => congrArg (· + 1) (rest.length_owners id parent)
  | .inline _ rest, id, parent => congrArg (· + 1) (rest.length_owners (id + 1) parent)
  | .block _ body _ rest, id, parent => by
      simp [Items.owners, Items.lines, body.length_owners, rest.length_owners]
  | .chain _ _ body branches rest, id, parent => by
      simp [Items.owners, Items.lines, body.length_owners, branches.length_owners,
        rest.length_owners]
  | .switch _ body clauses rest, id, parent => by
      simp [Items.owners, Items.lines, body.length_owners, clauses.length_owners,
        rest.length_owners]

theorem Branches.length_owners {family : ChainFamily} :
    ∀ (r : Branches family) (id parent current : Nat),
      (r.owners id parent current).length = r.lines.length
  | .close _, _, _, _ => rfl
  | .last _, _, _, _ => rfl
  | .branch _ body rest, id, parent, _ => by
      simp [Branches.owners, Branches.lines, body.length_owners, rest.length_owners]

theorem Clauses.length_owners : ∀ (r : Clauses) (id parent : Nat),
    (r.owners id parent).length = r.lines.length
  | .close _, _, _ => rfl
  | .clause _ body rest, id, parent => by
      simp [Clauses.owners, Clauses.lines, body.length_owners, rest.length_owners]

end

section

variable {family : ChainFamily} (body rest : Items) (id parent current : Nat)

theorem Items.rows_block (header : OpeningLine false) (close : TerminatorLine) :
    (Items.block header body close rest).rows id parent =
      (header.tokens, parent) :: (body.rows (id + 1) id ++
        (close.tokens, id) :: rest.rows (id + 1 + body.count) parent) := by
  rw [rows, lines, owners, List.zip_cons_cons, List.zip_append (body.length_owners ..).symm,
    List.zip_cons_cons]
  rfl

theorem Items.rows_chain (header : ChainHeader family) (branches : Branches family) :
    (Items.chain family header body branches rest).rows id parent =
      (header.tokens, parent) :: (body.rows (id + 1) id ++
        (branches.rows (id + 1 + body.count) parent id ++
          rest.rows (id + 1 + body.count + branches.count) parent)) := by
  rw [rows, lines, owners, List.zip_cons_cons, List.zip_append (body.length_owners ..).symm,
    List.zip_append (branches.length_owners ..).symm]
  rfl

theorem Items.rows_switch (header : SwitchHeader) (clauses : Clauses) :
    (Items.switch header body clauses rest).rows id parent =
      (header.tokens, parent) :: (body.rows (id + 1) id ++
        (clauses.rows (id + 1 + body.count) id ++
          rest.rows (id + 1 + body.count + clauses.count) parent)) := by
  rw [rows, lines, owners, List.zip_cons_cons, List.zip_append (body.length_owners ..).symm,
    List.zip_append (clauses.length_owners ..).symm]
  rfl

theorem Branches.rows_branch (line : BranchLine family false) (branches : Branches family) :
    (Branches.branch line body branches).rows id parent current =
      (line.tokens, parent) :: (body.rows (id + 1) id ++
        branches.rows (id + 1 + body.count) parent id) := by
  rw [rows, lines, owners, List.zip_cons_cons, List.zip_append (body.length_owners ..).symm]
  rfl

theorem Clauses.rows_clause (line : ClauseLine) (clauses : Clauses) :
    (Clauses.clause line body clauses).rows id parent =
      (line.tokens, parent) :: (body.rows (id + 1) id ++
        clauses.rows (id + 1 + body.count) parent) := by
  rw [rows, lines, owners, List.zip_cons_cons, List.zip_append (body.length_owners ..).symm]
  rfl

end

/-! ### The next row -/

/-- The number of the line that comes next, if the line is judged. -/
def judged? (next : Option NextLine) : Option Nat :=
  (next.filter fun line => line.IsJudged).map NextLine.number

theorem judged?_some (next : NextLine) :
    judged? (some next) = if next.IsJudged then some next.number else none := by
  rw [judged?, Option.filter_some]
  split <;> simp_all

section

variable {tokens : List Token} {owner o n : Nat} {later : List (List Token × Nat)}

theorem followingRow_of_code (hne : tokens ≠ []) :
    followingRow owner n ((tokens, o) :: later) =
      if !endsBlock tokens && o == owner then some n else none := by
  rw [followingRow, if_neg hne]

theorem followingRow_of_ne (hne : tokens ≠ []) (howner : o ≠ owner) :
    followingRow owner n ((tokens, o) :: later) = none := by
  rw [followingRow_of_code hne, beq_eq_false_iff_ne.2 howner, Bool.and_false, if_neg]
  exact Bool.false_ne_true

/-- A terminator is never told to follow. -/
theorem followingRow_close (close : TerminatorLine) :
    followingRow owner n ((close.tokens, o) :: later) = none := by
  obtain ⟨t, ts, htokens, -⟩ := close.exists_end
  rw [followingRow_of_code (by simp [htokens]), close.endsBlock]
  rfl

/-- The first line of an item is told to follow a line of its block, if it is judged. -/
theorem followingRow_item (hordinary : IsOrdinary tokens) :
    followingRow owner n ((tokens, o) :: later) =
      if o = owner then judged? (some ⟨n, tokens, .item⟩) else none := by
  split
  · rename_i heq
    rw [followingRow_of_code hordinary.ne_nil, hordinary.endsBlock_eq, judged?_some, heq]
    cases h : tokens.head?.any (·.isKeyword "end") <;> simp [NextLine.IsJudged, h]
  · rename_i hne
    exact followingRow_of_ne hordinary.ne_nil hne

end

section

variable {family : ChainFamily} (n : Nat) (body rest : Items)

theorem Items.add_height_blank : n + (Items.blank rest).height = n + 1 + rest.height := by
  simp only [Items.height, Items.lines, List.length_cons]
  omega

theorem Items.add_height_plain (line : PlainLine) :
    n + (Items.plain line rest).height = n + 1 + rest.height := by
  simp only [Items.height, Items.lines, List.length_cons]
  omega

theorem Items.add_height_inline (line : OpeningLine true) :
    n + (Items.inline line rest).height = n + 1 + rest.height := by
  simp only [Items.height, Items.lines, List.length_cons]
  omega

theorem Items.add_height_block (header : OpeningLine false) (close : TerminatorLine) :
    n + (Items.block header body close rest).height =
      n + 1 + body.height + 1 + rest.height := by
  simp only [Items.height, Items.lines, List.length_cons, List.length_append]
  omega

theorem Items.add_height_chain (header : ChainHeader family) (branches : Branches family) :
    n + (Items.chain family header body branches rest).height =
      n + 1 + body.height + branches.lines.length + rest.height := by
  simp only [Items.height, Items.lines, List.length_cons, List.length_append]
  omega

theorem Items.add_height_switch (header : SwitchHeader) (clauses : Clauses) :
    n + (Items.switch header body clauses rest).height =
      n + 1 + body.height + clauses.lines.length + rest.height := by
  simp only [Items.height, Items.lines, List.length_cons, List.length_append]
  omega

theorem Branches.add_length_branch (line : BranchLine family false) (branches : Branches family) :
    n + (Branches.branch line body branches).lines.length =
      n + 1 + body.height + branches.lines.length := by
  simp only [Items.height, Branches.lines, List.length_cons, List.length_append]
  omega

theorem Clauses.add_length_clause (line : ClauseLine) (clauses : Clauses) :
    n + (Clauses.clause line body clauses).lines.length =
      n + 1 + body.height + clauses.lines.length := by
  simp only [Items.height, Clauses.lines, List.length_cons, List.length_append]
  omega

end

/-- What follows a line is told by the first of the items behind it, if there is one. -/
theorem followingRow_items : ∀ (p : Items) (n id parent owner : Nat)
    (later : List (List Token × Nat)), owner < id →
    followingRow owner n (p.rows id parent ++ later) =
      match p.first? n with
      | none => followingRow owner (n + p.height) later
      | some next => if parent = owner then judged? (some next) else none
  | .nil, _, _, _, _, _, _ => rfl
  | .blank rest, n, id, parent, owner, later, hlt => by
      rw [Items.add_height_blank]
      exact followingRow_items rest (n + 1) id parent owner later hlt
  | .plain line rest, n, id, parent, owner, later, _ => followingRow_item line.ordinary
  | .inline line rest, n, id, parent, owner, later, hlt => by
      -- A construct on one line is held by its own frame.
      refine (followingRow_of_ne line.ordinary.ne_nil (Nat.ne_of_gt hlt)).trans ?_
      have hjudged : ¬(⟨n, line.tokens, .oneLine⟩ : NextLine).IsJudged := not_false
      change none = if parent = owner then judged? (some ⟨n, line.tokens, .oneLine⟩) else none
      rw [judged?_some, if_neg hjudged, ite_self]
  | .block header body close rest, n, id, parent, owner, later, _ => by
      rw [Items.rows_block]
      exact followingRow_item header.ordinary
  | .chain _ header body branches rest, n, id, parent, owner, later, _ => by
      rw [Items.rows_chain]
      exact followingRow_item header.ordinary
  | .switch header body clauses rest, n, id, parent, owner, later, _ => by
      rw [Items.rows_switch]
      exact followingRow_item header.ordinary

section

variable {n id parent owner : Nat} {later : List (List Token × Nat)}

/-- In a block, the next item follows, or what is behind the items. -/
theorem followingRow_in_block (p : Items) {behind : Option NextLine} (hlt : parent < id)
    (hlater : followingRow parent (n + p.height) later = judged? behind) :
    followingRow parent n (p.rows id parent ++ later) = judged? ((p.first? n).or behind) := by
  rw [followingRow_items p n id parent parent later hlt]
  split
  · rename_i hnone
    rw [hnone, hlater]
    rfl
  · rename_i hsome
    rw [if_pos rfl, hsome]
    rfl

/-- From outside of a block none of its items follows. -/
theorem followingRow_of_outside (p : Items) (hne : parent ≠ owner) (hlt : owner < id)
    (hlater : followingRow owner (n + p.height) later = none) :
    followingRow owner n (p.rows id parent ++ later) = none := by
  rw [followingRow_items p n id parent owner later hlt]
  split
  · exact hlater
  · exact if_neg hne

/-- What continues a chain does not follow the lines of the part before it. -/
theorem followingRow_branches {family : ChainFamily} (r : Branches family) {current : Nat}
    (hne : parent ≠ current) (hlt : current < id) :
    followingRow current n (r.rows id parent current ++ later) = none := by
  cases r with
  | close line => exact followingRow_close line
  | last line => exact followingRow_of_ne (ne_nil_of_leads line.leads) (Nat.ne_of_gt hlt)
  | branch line body rest =>
      rw [Branches.rows_branch]
      exact followingRow_of_ne (ne_nil_of_leads line.leads) hne

/-- The first clause follows the lines of a switch before it, if it is judged. -/
theorem followingRow_clauses (r : Clauses) :
    followingRow parent n (r.rows id parent ++ later) = judged? (r.first? n) := by
  cases r with
  | close line => exact followingRow_close line
  | clause line body rest =>
      rw [Clauses.rows_clause, List.cons_append, followingRow_of_code (ne_nil_of_leads line.leads),
        line.endsBlock_eq, Bool.not_not, beq_self_eq_true, Bool.and_true, Clauses.first?,
        judged?_some]
      cases h : line.tokens.head?.any Token.isDeclarationPrefix <;> simp [NextLine.IsJudged, h]

/-- A further clause does not follow the lines of the clause before it. -/
theorem followingRow_clauses_of_ne (r : Clauses) (hne : parent ≠ owner) :
    followingRow owner n (r.rows id parent ++ later) = none := by
  cases r with
  | close line => exact followingRow_close line
  | clause line body rest =>
      rw [Clauses.rows_clause]
      exact followingRow_of_ne (ne_nil_of_leads line.leads) hne

end

/-! ### A program -/

/-- What the rule tells about a plain line and what comes next: the number of the next line and the
word of the jump. -/
def verdict (s : PlainLine × Option NextLine) : Option (Nat × String) :=
  (jump? s.1.tokens).bind fun word => (judged? s.2).map fun next => (next, word)

theorem unreachableRows_of_no_jump {tokens : List Token} {owner n : Nat}
    {later : List (List Token × Nat)} (h : jump? tokens = none) :
    unreachableRows n ((tokens, owner) :: later) = unreachableRows (n + 1) later := by
  rw [unreachableRows, h]
  rfl

theorem unreachableRows_of_none {tokens : List Token} {owner n : Nat}
    {later : List (List Token × Nat)} (h : followingRow owner (n + 1) later = none) :
    unreachableRows n ((tokens, owner) :: later) = unreachableRows (n + 1) later := by
  rw [unreachableRows, h]
  cases jump? tokens <;> rfl

mutual

/-- What the scan finds on the rows of a program is read off the program. -/
theorem unreachableRows_items : ∀ (p : Items) (n id parent : Nat) (behind : Option NextLine)
    (later : List (List Token × Nat)), parent < id →
    followingRow parent (n + p.height) later = judged? behind →
    unreachableRows n (p.rows id parent ++ later) =
      (p.successions n behind).filterMap verdict ++ unreachableRows (n + p.height) later
  | .nil, _, _, _, _, _, _, _ => rfl
  | .blank rest, n, id, parent, behind, later, hlt, hlater => by
      rw [Items.add_height_blank] at hlater ⊢
      exact (unreachableRows_of_no_jump rfl).trans
        (unreachableRows_items rest (n + 1) id parent behind later hlt hlater)
  | .plain line rest, n, id, parent, behind, later, hlt, hlater => by
      rw [Items.add_height_plain] at hlater ⊢
      have hnext := followingRow_in_block rest hlt hlater
      have hrest := unreachableRows_items rest (n + 1) id parent behind later hlt hlater
      change ((jump? line.tokens).bind fun word =>
          (followingRow parent (n + 1) (rest.rows id parent ++ later)).map fun next =>
            (next, word)).toList ++ unreachableRows (n + 1) (rest.rows id parent ++ later) = _
      rw [hnext, hrest, Items.successions, List.filterMap_cons]
      change (verdict (line, (rest.first? (n + 1)).or behind)).toList ++ _ = _
      cases verdict (line, (rest.first? (n + 1)).or behind) <;> rfl
  | .inline line rest, n, id, parent, behind, later, hlt, hlater => by
      rw [Items.add_height_inline] at hlater ⊢
      exact (unreachableRows_of_no_jump line.jump?).trans
        (unreachableRows_items rest (n + 1) (id + 1) parent behind later (by omega) hlater)
  | .block header body close rest, n, id, parent, behind, later, hlt, hlater => by
      rw [Items.add_height_block] at hlater ⊢
      rw [Items.rows_block, List.cons_append, List.append_assoc, List.cons_append,
        unreachableRows_of_none (followingRow_of_outside body (by omega) (by omega)
          (followingRow_close close)),
        unreachableRows_items body (n + 1) (id + 1) id none _ (by omega)
          (followingRow_close close),
        unreachableRows_of_no_jump close.jump?,
        unreachableRows_items rest _ _ parent behind later (by omega) hlater,
        Items.successions, List.filterMap_append, List.append_assoc]
  | .chain family header body branches rest, n, id, parent, behind, later, hlt, hlater => by
      have hdo : header.opening.construct ≠ .doBlock := by
        rw [header.starts]
        cases family <;> decide
      rw [Items.add_height_chain] at hlater ⊢
      rw [Items.rows_chain, List.cons_append, List.append_assoc, List.append_assoc,
        unreachableRows_of_no_jump (jump?_eq_none_of_opening header.opens hdo),
        unreachableRows_items body (n + 1) (id + 1) id none _ (by omega)
          (followingRow_branches branches (by omega) (by omega)),
        unreachableRows_branches branches _ _ parent id _ (by omega),
        unreachableRows_items rest _ _ parent behind later (by omega) hlater,
        Items.successions]
      simp only [List.filterMap_append, List.append_assoc]
  | .switch header body clauses rest, n, id, parent, behind, later, hlt, hlater => by
      have hdo : header.opening.construct ≠ .doBlock := by
        rw [header.starts]
        decide
      rw [Items.add_height_switch] at hlater ⊢
      rw [Items.rows_switch, List.cons_append, List.append_assoc, List.append_assoc,
        unreachableRows_of_no_jump (jump?_eq_none_of_opening header.opens hdo),
        unreachableRows_items body (n + 1) (id + 1) id _ _ (by omega)
          (followingRow_clauses clauses),
        unreachableRows_clauses clauses _ _ id _ (by omega),
        unreachableRows_items rest _ _ parent behind later (by omega) hlater,
        Items.successions]
      simp only [List.filterMap_append, List.append_assoc]

theorem unreachableRows_branches {family : ChainFamily} : ∀ (r : Branches family)
    (n id parent current : Nat) (later : List (List Token × Nat)), parent < id →
    unreachableRows n (r.rows id parent current ++ later) =
      (r.successions n).filterMap verdict ++ unreachableRows (n + r.lines.length) later
  | .close line, n, id, parent, current, later, _ => unreachableRows_of_no_jump line.jump?
  | .last line, n, id, parent, current, later, _ => unreachableRows_of_no_jump line.jump?
  | .branch line body rest, n, id, parent, current, later, hlt => by
      rw [Branches.add_length_branch, Branches.rows_branch, List.cons_append, List.append_assoc,
        unreachableRows_of_no_jump line.jump?,
        unreachableRows_items body (n + 1) (id + 1) id none _ (by omega)
          (followingRow_branches rest (by omega) (by omega)),
        unreachableRows_branches rest _ _ parent id later (by omega),
        Branches.successions, List.filterMap_append, List.append_assoc]

theorem unreachableRows_clauses : ∀ (r : Clauses) (n id parent : Nat)
    (later : List (List Token × Nat)), parent < id →
    unreachableRows n (r.rows id parent ++ later) =
      (r.successions n).filterMap verdict ++ unreachableRows (n + r.lines.length) later
  | .close line, n, id, parent, later, _ => unreachableRows_of_no_jump line.jump?
  | .clause line body rest, n, id, parent, later, hlt => by
      rw [Clauses.add_length_clause, Clauses.rows_clause, List.cons_append, List.append_assoc,
        unreachableRows_of_no_jump line.jump?,
        unreachableRows_items body (n + 1) (id + 1) id none _ (by omega)
          (followingRow_clauses_of_ne rest (by omega)),
        unreachableRows_clauses rest _ _ parent later (by omega),
        Clauses.successions, List.filterMap_append, List.append_assoc]

end

theorem lt_of_followingRow {owner n m : Nat} {rows : List (List Token × Nat)}
    (h : followingRow owner n rows = some m) : m < n + rows.length := by
  fun_induction followingRow owner n rows with
  | case1 => simp at h
  | case2 n o later ih =>
      have := ih h
      rw [List.length_cons]
      omega
  | case3 n tokens o later =>
      obtain rfl := Option.some.inj h
      rw [List.length_cons]
      omega
  | case4 => simp at h

theorem lt_of_mem_unreachableRows {n : Nat} {rows : List (List Token × Nat)} {u : Nat × String}
    (h : u ∈ unreachableRows n rows) : u.1 < n + rows.length := by
  induction rows generalizing n with
  | nil => simp [unreachableRows] at h
  | cons row later ih =>
      rw [unreachableRows, List.mem_append, Option.mem_toList] at h
      rw [List.length_cons]
      rcases h with hfound | hlater
      · obtain ⟨word, -, hpaired⟩ := Option.bind_eq_some_iff.1 hfound
        obtain ⟨next, hnext, rfl⟩ := Option.map_eq_some_iff.1 hpaired
        have := lt_of_followingRow hnext
        dsimp only
        omega
      · have := ih hlater
        omega

end Polyloft
