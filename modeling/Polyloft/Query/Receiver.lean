import Polyloft.Document

/-!
# Polyloft.Query.Receiver

The expression before a dot. A word is a member when the nearest code token before it on its line
is a dot; the receiver is the chain of names, calls and indexings that ends just before that dot.
It is found by walking to the left, so the functions here work on tokens nearest first.
-/

namespace Polyloft

/-- A bracketed group that is entered from its right end, nearest token first: the group, and the
tokens before it. `depth` closing brackets are open. -/
def groupBack? (depth : Nat) : List Token → Option (List Token × List Token)
  | [] => none
  | t :: ts =>
    if t.isSymbolIn [")", "]"] then
      (groupBack? (depth + 1) ts).map fun g => (t :: g.1, g.2)
    else if t.isSymbolIn ["(", "["] then
      if depth ≤ 1 then some ([t], ts)
      else (groupBack? (depth - 1) ts).map fun g => (t :: g.1, g.2)
    else (groupBack? depth ts).map fun g => (t :: g.1, g.2)

theorem groupBack?_length {depth : Nat} {tokens group rest : List Token}
    (h : groupBack? depth tokens = some (group, rest)) : rest.length < tokens.length := by
  induction tokens generalizing depth group rest with
  | nil => simp [groupBack?] at h
  | cons t ts ih =>
    have step {d : Nat}
        (h : (groupBack? d ts).map (fun g => (t :: g.1, g.2)) = some (group, rest)) :
        rest.length < (t :: ts).length := by
      obtain ⟨⟨g, r⟩, hg, heq⟩ := Option.map_eq_some_iff.1 h
      obtain ⟨-, rfl⟩ := Prod.mk.inj heq
      have := ih hg
      simp only [List.length_cons]
      omega
    rw [groupBack?] at h
    split at h
    · exact step h
    · split at h
      · split at h
        · obtain ⟨-, rfl⟩ := Prod.mk.inj (Option.some.inj h)
          simp
        · exact step h
      · exact step h

/-- A token that may start a chain. -/
def Token.isChainStart (t : Token) : Bool :=
  t.kind == .identifier || t.kind == .string || t.isKeyword "this"

/-- The chain at the end of the tokens before a dot, nearest first; `none` if a bracket has no
partner. -/
def chainBack? (tokens : List Token) : Option (List Token) :=
  match tokens with
  | [] => some []
  | t :: ts =>
    if t.isSymbolIn [")", "]"] then
      match h : groupBack? 0 (t :: ts) with
      | none => none
      | some (group, rest) =>
        have := groupBack?_length h
        (chainBack? rest).map (group ++ ·)
    else if t.isChainStart then
      match ts with
      | [] => some [t]
      | dot :: rest =>
        if dot.isSymbol "." then (chainBack? rest).map ([t, dot] ++ ·) else some [t]
    else some []
termination_by tokens.length
decreasing_by
  all_goals simp only [List.length_cons] at *
  all_goals omega

/-- The receiver before a dot, given the tokens before the dot, nearest first. -/
def receiverBack (tokens : List Token) : List Token :=
  ((chainBack? tokens).getD []).reverse

/-- What stands before a place on a line: a receiver and a dot, or something else. -/
inductive MemberContext where
  | plain
  | member (receiver : List Token)

/-- The context after the given tokens, nearest first. -/
def MemberContext.after : List Token → MemberContext
  | [] => .plain
  | dot :: before => if dot.isSymbol "." then .member (receiverBack before) else .plain

/-- The receiver of the word that starts at a column of a line, if the word is a member. -/
def Document.receiverAt? (doc : Document) (line : Int) (column : Nat) : Option (List Token) :=
  (doc.line? line).bind fun l =>
    match MemberContext.after (l.codeTokens.filter fun t => t.column < column).reverse with
    | .plain => none
    | .member receiver => if receiver.isEmpty then none else some receiver

end Polyloft
