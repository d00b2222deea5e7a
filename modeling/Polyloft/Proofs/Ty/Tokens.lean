import Polyloft.Proofs.Token.Spelling
import Polyloft.Proofs.Ty.Grammar

/-!
# Polyloft.Proofs.Ty.Tokens

Written types as tokens. A type is written with names, angle brackets, commas and bars; `Ty.tokens`
lists them. The lexer finds these tokens in the written form of a type if no name is a keyword
(`Ty.spellings_chars_append`). The search for the closing angle bracket passes over them
(`Ty.passesAngles`). Put together again, with spaces behind the commas but not around the bars, they
are a text that is read as the same type (`Ty.ofString_compact`).
-/

namespace Polyloft

open Polyloft.Text

namespace Ty

/-! ### Tokens of a type -/

mutual

/-- The tokens of a written type. -/
def tokens : Ty → List Spelling
  | .any => [⟨.identifier, "Any"⟩]
  | .named n [] => [⟨.identifier, n⟩]
  | .named n (a :: as) =>
    ⟨.identifier, n⟩ :: .operator "<" :: (tokensSep (.punct ",") (a :: as) ++ [.operator ">"])
  | .union members => tokensSep (.operator "|") members

/-- The tokens of types with `sep` between each two. -/
def tokensSep (sep : Spelling) : List Ty → List Spelling
  | [] => []
  | [t] => tokens t
  | t :: ts => tokens t ++ sep :: tokensSep sep ts

end

mutual

/-- The names in a type. -/
def names : Ty → List String
  | .any => []
  | .named n args => n :: namesAll args
  | .union members => namesAll members

/-- The names in some types. -/
def namesAll : List Ty → List String
  | [] => []
  | t :: ts => names t ++ namesAll ts

end

theorem mem_namesAll {ts : List Ty} {name : String} :
    name ∈ namesAll ts ↔ ∃ t ∈ ts, name ∈ t.names := by
  induction ts with
  | nil => simp [namesAll]
  | cons t ts ih => simp [namesAll, ih]

theorem tokensSep_cons (sep : Spelling) (t : Ty) (ts : List Ty) :
    tokensSep sep (t :: ts) = t.tokens ++ ts.flatMap fun u => sep :: u.tokens := by
  induction ts generalizing t with
  | nil => simp [tokensSep]
  | cons u ts ih => simp [tokensSep, ih u]

theorem mem_tokensSep {sep w : Spelling} {ts : List Ty} (hw : w ∈ tokensSep sep ts) :
    w = sep ∨ ∃ t ∈ ts, w ∈ t.tokens := by
  cases ts with
  | nil => simp [tokensSep] at hw
  | cons t ts =>
      rw [tokensSep_cons, List.mem_append, List.mem_flatMap] at hw
      rcases hw with hw | ⟨u, hu, hw⟩
      · exact .inr ⟨t, List.mem_cons_self .., hw⟩
      · exact (List.mem_cons.1 hw).imp_right fun hw => ⟨u, List.mem_cons_of_mem _ hu, hw⟩

/-- The tokens of a type are its names and what stands between and around arguments. -/
theorem mem_tokens {t : Ty} {w : Spelling} (hw : w ∈ t.tokens) :
    w.kind = .identifier ∨
      w ∈ [.operator "<", .operator ">", .operator "|", .punct ","] := by
  induction t using Ty.induction with
  | any =>
      obtain rfl := List.mem_singleton.1 hw
      exact .inl rfl
  | named name args ih =>
      cases args with
      | nil =>
          obtain rfl := List.mem_singleton.1 hw
          exact .inl rfl
      | cons t ts =>
          simp only [tokens, List.mem_cons, List.mem_append, List.not_mem_nil, or_false] at hw
          rcases hw with rfl | rfl | hw | rfl
          · exact .inl rfl
          · exact .inr (by simp)
          · rcases mem_tokensSep hw with rfl | ⟨u, hu, hw⟩
            · exact .inr (by simp)
            · exact ih u hu hw
          · exact .inr (by simp)
  | union members ih =>
      rw [tokens] at hw
      rcases mem_tokensSep hw with rfl | ⟨u, hu, hw⟩
      · exact .inr (by simp)
      · exact ih u hu hw

/-- A well-formed type whose names can be written, none of them a keyword. -/
structure Writable (t : Ty) : Prop where
  wellFormed : t.WellFormed
  isSpelled : t.Spelled
  keywords : ∀ name ∈ t.names, name ∉ keywords

theorem Writable.of_mem_args {name : String} {args : List Ty} (h : (named name args).Writable)
    {t : Ty} (ht : t ∈ args) : t.Writable := by
  obtain ⟨hwf, hspelled, hkeywords⟩ := h
  cases hwf with
  | named hwf =>
      cases hspelled with
      | named _ _ hspelled =>
          refine ⟨hwf t ht, hspelled t ht, fun n hn => hkeywords n ?_⟩
          rw [names]
          exact List.mem_cons_of_mem _ (mem_namesAll.2 ⟨t, ht, hn⟩)

theorem Writable.of_mem_members {members : List Ty} (h : (union members).Writable) {t : Ty}
    (ht : t ∈ members) : t.Writable := by
  obtain ⟨hwf, hspelled, hkeywords⟩ := h
  cases hwf with
  | union _ _ _ hwf _ =>
      cases hspelled with
      | union hspelled =>
          refine ⟨hwf t ht, hspelled t ht, fun n hn => hkeywords n ?_⟩
          rw [names]
          exact mem_namesAll.2 ⟨t, ht, hn⟩

theorem Writable.name {name : String} {args : List Ty} (h : (named name args).Writable) :
    isTypeName name.toList = true ∧ name ≠ "Any" ∧ name ∉ Polyloft.keywords := by
  obtain ⟨-, hspelled, hkeywords⟩ := h
  cases hspelled with
  | named hname hany _ => exact ⟨hname, hany, hkeywords name (by rw [names]; simp)⟩

/-! ### Lexing -/

theorem isName_of_isTypeName {cs : List Char} (h : isTypeName cs = true) : isName cs = true := by
  have hword {c : Char} (hc : Parser.isNameRest c = true) : isWord c = true := by
    simp only [Parser.isNameRest, Char.isAlphanum, Bool.or_eq_true, beq_iff_eq] at hc
    rcases hc with (hc | hc) | rfl
    · exact isWord_of_isNameStart (by simp [isNameStart, hc])
    · exact isWord_of_isDigit hc
    · decide
  cases cs with
  | nil => simp [isTypeName] at h
  | cons c cs =>
      rw [isTypeName, Bool.and_eq_true, List.all_eq_true] at h
      rw [isName, Bool.and_eq_true, List.all_eq_true]
      exact ⟨h.1, fun d hd => hword (h.2 d hd)⟩

/-- What stands behind a type: a sign that parts it from other types, or an argument list. -/
def Behind (rest : List Char) : Prop :=
  ∀ c ∈ rest.head?, c ∈ ['>', ',', ' ', '(']

/-- A name is one token. -/
theorem spellings_name_append (name : String) (hname : isTypeName name.toList = true)
    (hkeyword : name ∉ keywords) {rest : List Char} (hrest : ∀ c ∈ rest.head?, isWord c = false) :
    spellings (name.toList ++ rest) = ⟨.identifier, name⟩ :: spellings rest := by
  have hkind : wordKind name = .identifier := if_neg (by simpa using hkeyword)
  have hstop : rest.head?.any isWord = false := by
    cases hhead : rest.head? with
    | none => rfl
    | some c => exact hrest c hhead
  rw [spellings_name (isName_of_isTypeName hname) hstop, hkind]

theorem Behind.all {rest : List Char} (h : Behind rest) {p : Char → Bool}
    (hp : ['>', ',', ' ', '('].all p = true) : ∀ c ∈ rest.head?, p c = true :=
  fun c hc => List.all_eq_true.1 hp c (h c hc)

theorem Behind.not_isWord {rest : List Char} (h : Behind rest) :
    ∀ c ∈ rest.head?, isWord c = false := by
  have hall : ['>', ',', ' ', '('].all (!isWord ·) = true := by decide
  simpa using h.all hall

/-- An opening angle bracket stands before a name, so that it is no longer operator. -/
theorem spellings_opening {c : Char} (hc : isNameStart c = true) (cs : List Char) :
    spellings ('<' :: c :: cs) = .operator "<" :: spellings (c :: cs) := by
  have hall : ∀ n : Fin 128, isNameStart (Char.ofNat n) = true →
      isApart ['<'] (Char.ofNat n) = true := by
    decide +kernel
  have hapart : isApart ['<'] c = true := by
    simpa using hall ⟨c.toNat, toNat_lt_of_isNameStart hc⟩ (by simpa using hc)
  exact spellings_operator (by decide : "<" ∈ operators) _ (by simpa using hapart)

theorem spellings_closing {rest : List Char} (h : Behind rest) :
    spellings ('>' :: rest) = .operator ">" :: spellings rest := by
  have hall : ['>', ',', ' ', '('].all (isApart ['>']) = true := by decide +kernel
  exact spellings_operator (by decide : ">" ∈ operators) _ (h.all hall)

theorem spellings_comma (cs : List Char) :
    spellings (", ".toList ++ cs) = .punct "," :: spellings cs := by
  have hcomma := spellings_punctuation (c := ',') (by decide) (' ' :: cs)
  rw [spellings_space] at hcomma
  exact hcomma

theorem spellings_bar (cs : List Char) :
    spellings (" | ".toList ++ cs) = .operator "|" :: spellings cs := by
  have hbar := spellings_operator (by decide : "|" ∈ operators) (' ' :: cs)
    (by simpa using (by decide +kernel : isApart ['|'] ' ' = true))
  rw [spellings_space] at hbar
  exact (spellings_space _).trans hbar

/-- Types with glue between them. -/
theorem spellings_flatMap {glue : List Char} {sep : Spelling}
    (hglue : ∀ cs, spellings (glue ++ cs) = sep :: spellings cs)
    (hbehind : ∀ cs, Behind (glue ++ cs)) {t : Ty} {ts : List Ty}
    (h : ∀ u ∈ t :: ts, ∀ rest, Behind rest →
      spellings (u.chars ++ rest) = u.tokens ++ spellings rest)
    {rest : List Char} (hrest : Behind rest) :
    spellings (t.chars ++ ((ts.flatMap fun u => glue ++ u.chars) ++ rest)) =
      tokensSep sep (t :: ts) ++ spellings rest := by
  have hparts : ∀ us : List Ty, (∀ u ∈ us, u ∈ t :: ts) →
      Behind ((us.flatMap fun u => glue ++ u.chars) ++ rest) ∧
        spellings ((us.flatMap fun u => glue ++ u.chars) ++ rest) =
          (us.flatMap fun u => sep :: u.tokens) ++ spellings rest := by
    intro us hus
    induction us with
    | nil => exact ⟨hrest, rfl⟩
    | cons u us ih =>
        rw [List.forall_mem_cons] at hus
        obtain ⟨hnext, hspellings⟩ := ih hus.2
        simp only [List.flatMap_cons, List.append_assoc]
        refine ⟨hbehind _, ?_⟩
        rw [hglue, h u hus.1 _ hnext, hspellings]
        simp
  obtain ⟨hnext, hspellings⟩ := hparts ts fun u hu => List.mem_cons_of_mem _ hu
  rw [h t (List.mem_cons_self ..) _ hnext, hspellings, tokensSep_cons, List.append_assoc]

/-- The tokens of a type are found in its written form. -/
theorem spellings_chars_append {t : Ty} (h : t.Writable) {rest : List Char} (hrest : Behind rest) :
    spellings (t.chars ++ rest) = t.tokens ++ spellings rest := by
  induction t using Ty.induction generalizing rest with
  | any => exact spellings_name_append "Any" (by decide) (by decide) hrest.not_isWord
  | named name args ih =>
      obtain ⟨hname, -, hkeyword⟩ := h.name
      cases args with
      | nil =>
          rw [chars_named_nil, spellings_name_append name hname hkeyword hrest.not_isWord, tokens]
          rfl
      | cons t ts =>
          have hbehind : Behind ('>' :: rest) := by simp [Behind]
          have hinside := spellings_flatMap spellings_comma (fun cs => by simp [Behind])
            (fun u hu _ => ih u hu (h.of_mem_args hu)) hbehind
          have hfirst := h.of_mem_args (List.mem_cons_self ..)
          obtain ⟨c, cs, hchars, hc⟩ := exists_chars_eq_cons hfirst.wellFormed hfirst.isSpelled
          have hopening (more : List Char) : spellings ('<' :: (t.chars ++ more)) =
              .operator "<" :: spellings (t.chars ++ more) := by
            rw [hchars, List.cons_append, spellings_opening hc]
          have hangle : isWord '<' = false := by decide
          rw [chars_named_cons, List.append_assoc, List.cons_append, List.append_assoc,
            List.append_assoc, List.singleton_append,
            spellings_name_append name hname hkeyword (by simpa using hangle), hopening, hinside,
            spellings_closing hrest, tokens]
          simp
  | union members ih =>
      cases members with
      | nil => rfl
      | cons t ts =>
          rw [chars_union_cons, List.append_assoc, tokens]
          exact spellings_flatMap spellings_bar (fun cs => by simp [Behind])
            (fun u hu _ => ih u hu (h.of_mem_members hu)) hrest

/-! ### Angle brackets -/

/-- Tokens that the search for a closing angle bracket passes over, at any depth. -/
def PassesAngles (ts : List Token) : Prop :=
  ∀ depth rest, angleIndex? depth (ts ++ rest) = (angleIndex? depth rest).map (· + ts.length)

namespace PassesAngles

variable {ts us : List Token} {t o c : Token}

theorem nil : PassesAngles [] := by
  intro depth rest
  simp

theorem append (hts : PassesAngles ts) (hus : PassesAngles us) : PassesAngles (ts ++ us) := by
  intro depth rest
  rw [List.append_assoc, hts, hus, Option.map_map]
  congr 1
  funext n
  simp only [Function.comp_apply, List.length_append]
  omega

/-- A name, or what may stand between types. -/
theorem single (hangle : t.isSymbol "<" = false ∧ t.isSymbol ">" = false)
    (ht : (t.kind == .identifier || t.isSymbolIn [",", "[", "]", "|", "?"]) = true) :
    PassesAngles [t] := by
  intro depth rest
  rw [List.singleton_append, angleIndex?.eq_def]
  simp [hangle, ht]

theorem group (ho : o.spelling = .operator "<") (hc : c.spelling = .operator ">")
    (hus : PassesAngles us) : PassesAngles (o :: (us ++ [c])) := by
  obtain ⟨hopening, hotext⟩ := Spelling.mk.inj ho
  obtain ⟨hclosing, hctext⟩ := Spelling.mk.inj hc
  have hangle : o.isSymbol "<" = true ∧ c.isSymbol "<" = false ∧ c.isSymbol ">" = true := by
    simp [Token.isSymbol, hopening, hotext, hclosing, hctext]
  intro depth rest
  have hfirst (ts : List Token) :
      angleIndex? depth (o :: ts) = (angleIndex? (depth + 1) ts).map (· + 1) := by
    rw [angleIndex?.eq_def]
    simp [hangle.1]
  have hlast : angleIndex? (depth + 1) (c :: rest) = (angleIndex? depth rest).map (· + 1) := by
    rw [angleIndex?.eq_def]
    simp [hangle.2]
  rw [List.cons_append, List.append_assoc, List.singleton_append, hfirst, hus, hlast]
  simp only [Option.map_map, List.length_cons, List.length_append, List.length_nil]
  congr 1
  funext n
  simp only [Function.comp_apply]
  omega

end PassesAngles

theorem passesAngles_flatMap {sep : Spelling}
    (hsep : ∀ t : Token, t.spelling = sep → PassesAngles [t]) {ts : List Ty}
    (h : ∀ t ∈ ts, ∀ us : List Token, us.map Token.spelling = t.tokens → PassesAngles us)
    {us : List Token} (hus : us.map Token.spelling = ts.flatMap fun t => sep :: t.tokens) :
    PassesAngles us := by
  induction ts generalizing us with
  | nil =>
      obtain rfl := List.map_eq_nil_iff.1 hus
      exact .nil
  | cons t ts ih =>
      rw [List.forall_mem_cons] at h
      obtain ⟨u, more, rfl, hu, hmore⟩ := List.map_eq_cons_iff.1 hus
      obtain ⟨vs, rest, rfl, hvs, hrest⟩ := List.map_eq_append_iff.1 hmore
      exact (hsep u hu).append ((h.1 vs hvs).append (ih h.2 hrest))

theorem passesAngles_sep {sep : Spelling}
    (hsep : ∀ t : Token, t.spelling = sep → PassesAngles [t]) {ts : List Ty}
    (h : ∀ t ∈ ts, ∀ us : List Token, us.map Token.spelling = t.tokens → PassesAngles us)
    {us : List Token} (hus : us.map Token.spelling = tokensSep sep ts) : PassesAngles us := by
  cases ts with
  | nil =>
      obtain rfl := List.map_eq_nil_iff.1 hus
      exact .nil
  | cons t ts =>
      rw [List.forall_mem_cons] at h
      rw [tokensSep_cons] at hus
      obtain ⟨vs, rest, rfl, hvs, hrest⟩ := List.map_eq_append_iff.1 hus
      exact (h.1 vs hvs).append (passesAngles_flatMap hsep h.2 hrest)

theorem passesAngles_name {name : String} {t : Token} (h : t.spelling = ⟨.identifier, name⟩) :
    PassesAngles [t] := by
  have hkind : t.kind = .identifier := (Spelling.mk.inj h).1
  exact .single (by simp [Token.isSymbol, hkind]) (by simp [hkind])

theorem passesAngles_comma {t : Token} (h : t.spelling = .punct ",") : PassesAngles [t] := by
  obtain ⟨hkind, htext⟩ := Spelling.mk.inj h
  exact .single (by simp [Token.isSymbol, htext]) (by simp [Token.isSymbolIn, hkind, htext])

theorem passesAngles_bar {t : Token} (h : t.spelling = .operator "|") : PassesAngles [t] := by
  obtain ⟨hkind, htext⟩ := Spelling.mk.inj h
  exact .single (by simp [Token.isSymbol, htext]) (by simp [Token.isSymbolIn, hkind, htext])

/-- Types are passed over as a whole. -/
theorem passesAngles {t : Ty} {us : List Token} (h : us.map Token.spelling = t.tokens) :
    PassesAngles us := by
  induction t using Ty.induction generalizing us with
  | any =>
      obtain ⟨u, rfl, hu⟩ := List.map_eq_singleton_iff.1 h
      exact passesAngles_name hu
  | named name args ih =>
      cases args with
      | nil =>
          obtain ⟨u, rfl, hu⟩ := List.map_eq_singleton_iff.1 h
          exact passesAngles_name hu
      | cons t ts =>
          rw [tokens] at h
          obtain ⟨u, more, rfl, hu, h⟩ := List.map_eq_cons_iff.1 h
          obtain ⟨o, more, rfl, ho, h⟩ := List.map_eq_cons_iff.1 h
          obtain ⟨vs, cs, rfl, hvs, hcs⟩ := List.map_eq_append_iff.1 h
          obtain ⟨c, rfl, hc⟩ := List.map_eq_singleton_iff.1 hcs
          have hinside := passesAngles_sep (fun _ => passesAngles_comma) (fun w hw _ => ih w hw) hvs
          exact (passesAngles_name hu).append (.group ho hc hinside)
  | union members ih =>
      exact passesAngles_sep (fun _ => passesAngles_bar) (fun w hw _ => ih w hw) h

/-- So are the arguments of a name. -/
theorem passesAngles_args {ts : List Ty} {us : List Token}
    (h : us.map Token.spelling = tokensSep (.punct ",") ts) : PassesAngles us :=
  passesAngles_sep (fun _ => passesAngles_comma) (fun _ _ _ => passesAngles) h

/-! ### Reading back -/

/-- Tokens put together, with spaces behind the commas. -/
def compact (ws : List Spelling) : List Char :=
  ws.flatMap fun w => if w.text == "," then ", ".toList else w.text.toList

end Ty

theorem Parser.separated_flatMap {α : Type} (sep : Char) {R : List Char → α → Prop}
    {text : α → List Char} {ws ws' : List Char} (hws : Gap ws) (hws' : Gap ws') {a : α}
    {as : List α} (h : ∀ b ∈ a :: as, R (text b) b) :
    Separated sep R (text a ++ as.flatMap fun b => ws ++ sep :: (ws' ++ text b)) (a :: as) := by
  induction as generalizing a with
  | nil =>
      have hone : Separated sep R (text a) [a] := .one (h a (by simp))
      simpa using hone
  | cons b as ih =>
      rw [List.forall_mem_cons] at h
      rw [List.flatMap_cons, List.append_assoc, List.cons_append, List.append_assoc]
      exact .more h.1 hws hws' (ih h.2)

namespace Ty

open Polyloft.Parser

theorem compact_append (ws vs : List Spelling) : compact (ws ++ vs) = compact ws ++ compact vs :=
  List.flatMap_append

theorem compact_cons (w : Spelling) (ws : List Spelling) :
    compact (w :: ws) = compact [w] ++ compact ws :=
  compact_append [w] ws

theorem compact_tokensSep (sep : Spelling) (t : Ty) (ts : List Ty) :
    compact (tokensSep sep (t :: ts)) =
      compact t.tokens ++ ts.flatMap fun u => compact [sep] ++ compact u.tokens := by
  rw [tokensSep_cons, compact_append, compact, compact, List.flatMap_assoc]
  congr 2
  funext u
  exact compact_cons sep u.tokens

/-- A name is no comma. -/
theorem compact_name {name : String} (hname : isTypeName name.toList = true) :
    compact [⟨.identifier, name⟩] = name.toList := by
  have hcomma : name ≠ "," := by
    rintro rfl
    exact absurd hname (by decide)
  simp [compact, hcomma]

/-- A name with arguments, put together, means that type. -/
theorem isSingle_compact_named {name : String} {args : List Ty}
    (h : (named name args).Writable) (hargs : ∀ t ∈ args, IsType (compact t.tokens) t) :
    IsSingle (compact (named name args).tokens) (named name args) := by
  obtain ⟨hname, hany, -⟩ := h.name
  have hof : ofName name args = named name args := if_neg hany
  rw [← hof]
  refine .plain ?_
  cases args with
  | nil =>
      rw [hof, tokens, compact_name hname, ← hof]
      exact .name hname
  | cons t ts =>
      have hspace : Gap [' '] := by simp [Gap, isGap]
      have hlist := separated_flatMap ',' Gap.nil hspace hargs
      have hbase := IsBase.args hname .nil (.angle .nil hlist .nil)
      rw [hof, tokens, compact_cons, compact_name hname, compact_cons, compact_append,
        compact_tokensSep, ← hof]
      exact hbase

/-- The tokens of a type, put together, mean the type. -/
theorem isType_compact {t : Ty} (h : t.Writable) :
    IsType (compact t.tokens) t ∧ (t.isNamed = true → IsSingle (compact t.tokens) t) := by
  induction t using Ty.induction with
  | any =>
      have hsingle : IsSingle "Any".toList .any :=
        .plain (.name (by decide : isTypeName "Any".toList = true))
      exact ⟨.union (.one hsingle), by simp [isNamed]⟩
  | named name args ih =>
      have hsingle := isSingle_compact_named h fun u hu => (ih u hu (h.of_mem_args hu)).1
      have hunify : unify [.named name args] = .named name args :=
        unify_of_named (by simp [isNamed]) (List.pairwise_singleton _ _)
      have htype := IsType.union (.one hsingle)
      rw [hunify] at htype
      exact ⟨htype, fun _ => hsingle⟩
  | union members ih =>
      refine ⟨?_, by simp [isNamed]⟩
      cases h.wellFormed with
      | union htwo hmax hnamed _ hpairwise =>
          have hunify : unify members = .union members := by
            rw [unify_of_named hnamed hpairwise, ofMembers_of_two_le htwo, if_pos hmax]
          cases members with
          | nil => simp at htwo
          | cons t ts =>
              have hlist := separated_flatMap '|' Gap.nil Gap.nil
                fun u hu => (ih u hu (h.of_mem_members hu)).2 (hnamed u hu)
              have htype := IsType.union hlist
              rw [hunify] at htype
              rw [tokens, compact_tokensSep]
              exact htype

theorem ofString_compact {t : Ty} (h : t.Writable) :
    ofString (String.ofList (compact t.tokens)) = t := by
  have htype := (isType_compact h).1
  rw [ofString, String.toList_ofList, parse,
    strip_eq_of_ends htype.exists_cons htype.exists_concat, parse?_eq_some_iff.2 htype,
    Option.getD_some]

end Ty

end Polyloft
