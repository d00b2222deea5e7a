import Polyloft.Proofs.Parameter.Grammar
import Polyloft.Proofs.Parameter.Split

/-!
# Polyloft.Proofs.Parameter.Render

Parameter lists as signatures show them. Read again, what a list of parameters is shown as gives the
same parameters, but for their defaults and columns. That is so for every text the list was read
from, also where only names could be made out of it.

## Proof shape

For each parameter two facts are proved. What it is shown as is read as the parameter
(`parse?_render`): it follows the grammar again, or is a name that is recovered again. And it can be
a piece of a list (`isPiece_render`). Only the type can have brackets and commas. The brackets are
balanced, as the grammar wants it. At the commas no cut was made when the parameter was read, and
none is made now, because both times the type starts outside of all brackets.
-/

namespace Polyloft

open Polyloft.Text

/-! ### Types between brackets -/

namespace Nesting

open Polyloft.Parser (Gap Separated isGap)

theorem isPiece_of_blank {ws : List Char} (h : ∀ c ∈ ws, isBlank c = true) :
    IsPiece (· == ',') ws := by
  have hsigns : (',' :: signs).all (fun d => !isBlank d) = true := by decide
  refine isPiece_of_plain fun c hc => ?_
  have hnot : c ∉ ',' :: signs := by
    intro hmem
    have hblank := List.all_eq_true.1 hsigns c hmem
    simp [h c hc] at hblank
  rw [List.mem_cons, not_or] at hnot
  exact ⟨hnot.2, beq_eq_false_iff_ne.2 hnot.1⟩

theorem isBlank_of_mem_gap {ws : List Char} (h : Gap ws) {c : Char} (hc : c ∈ ws) :
    isBlank c = true := by
  have hgap : c = ' ' ∨ c = '\t' := by simpa [isGap] using h c hc
  rcases hgap with rfl | rfl
  · decide
  · decide

theorem isPiece_of_gap {ws : List Char} (h : Gap ws) : IsPiece (· == ',') ws :=
  isPiece_of_blank fun _ => isBlank_of_mem_gap h

theorem not_mem_signs_of_isIdentifierChar {c : Char} (h : isIdentifierChar c = true) :
    c ∉ signs := by
  have hsigns : signs.all (fun d => !Parser.isNameRest d && d.toNat < 0x80) = true := by decide
  intro hc
  have hsign := List.all_eq_true.1 hsigns c hc
  rw [Bool.and_eq_true, Bool.not_eq_true', decide_eq_true_eq] at hsign
  exact ne_of_isIdentifierChar h hsign rfl

theorem settles_of_isTypeName {cs : List Char} (h : Ty.isTypeName cs = true) : Settles cs :=
  settles_of_not_mem_signs fun _ hc => not_mem_signs_of_isIdentifierChar
    (isIdentifierChar_of_mem (isIdentifier_of_isTypeName h) hc)

theorem settles_sign {c : Char} (h : c ∉ signs) : Settles [c] :=
  settles_of_not_mem_signs (by simpa using h)

/-- Brackets around a text that leads back to where it started, if they do so on their own. -/
theorem settles_bracket {opening closing : Char} {cs : List Char} (h : Settles cs)
    (hquotes : Unquoted [opening, closing])
    (hdepth : ∀ s t : Nesting, t.depth = (s.step opening).depth → (t.step closing).depth = s.depth)
    (hangle : ∀ s t : Nesting, t.angle ≤ (s.step opening).angle →
      (t.step closing).angle ≤ s.angle) :
    Settles (opening :: (cs ++ [closing])) := by
  have hfoldl (s : Nesting) : (opening :: (cs ++ [closing])).foldl step s =
      (cs.foldl step (s.step opening)).step closing := by
    rw [List.foldl_cons, List.foldl_append, List.foldl_cons, List.foldl_nil]
  refine ⟨?_, fun s => ?_, fun s => ?_⟩
  · intro c hc
    have hc : c ∈ [opening, closing] ∨ c ∈ cs := by
      simp only [List.mem_cons, List.mem_append, List.not_mem_nil] at hc ⊢
      tauto
    rcases hc with hc | hc
    · exact hquotes c hc
    · exact h.unquoted c hc
  · rw [hfoldl]
    exact hdepth s _ (h.depth _)
  · rw [hfoldl]
    exact hangle s _ (h.angle _)

theorem settles_angle {cs : List Char} (h : Settles cs) : Settles ('<' :: (cs ++ ['>'])) := by
  -- Whether the first bracket counts depends on the character before; the second closes it anyway.
  have hopen (s : Nesting) : (s.step '<').depth = s.depth ∧ (s.step '<').angle ≤ s.angle + 1 := by
    cases hword : s.previous.any isWord <;> simp [step, hword]
  refine settles_bracket h (by simp [Unquoted]) (fun s t ht => ?_) (fun s t ht => ?_)
  · rw [(hopen s).1] at ht
    simpa [step] using ht
  · have hle := (hopen s).2
    show t.angle - 1 ≤ s.angle
    omega

theorem settles_square {cs : List Char} (h : Settles cs) : Settles ('[' :: (cs ++ [']'])) := by
  refine settles_bracket h (by simp [Unquoted]) (fun s t ht => ?_) (fun s t ht => ?_)
  · show t.depth - 1 = s.depth
    rw [ht]
    rfl
  · exact ht

theorem settles_of_separated {α : Type} {sep : Char} {R : List Char → α → Prop} {bound : Nat}
    (hsep : sep ∉ signs) (hR : ∀ text a, text.length ≤ bound → R text a → Settles text)
    {text : List Char} {as : List α} (h : Separated sep R text as) (hbound : text.length ≤ bound) :
    Settles text := by
  induction h with
  | one h => exact hR _ _ hbound h
  | @more text ws ws' rest a as h hws hws' hmore ih =>
      simp only [List.length_append, List.length_cons] at hbound
      have hrest := (isPiece_of_gap hws').settles.append (ih (by omega))
      exact (hR _ _ (by omega) h).append
        ((isPiece_of_gap hws).settles.append ((settles_sign hsep).append hrest))

section

variable {bound : Nat} (h : ∀ text t, text.length ≤ bound → Ty.IsType text t → Settles text)
  {text : List Char} (hbound : text.length ≤ bound + 1)
include h hbound

theorem settles_of_isArgs {ts : List Ty} (hargs : Ty.IsArgs text ts) : Settles text := by
  have hinner {ws ws' text : List Char} (hws : Gap ws) (hlist : Separated ',' Ty.IsType text ts)
      (hws' : Gap ws') (hbound : text.length ≤ bound) : Settles (ws ++ (text ++ ws')) :=
    (isPiece_of_gap hws).settles.append ((settles_of_separated (by decide) h hlist hbound).append
      (isPiece_of_gap hws').settles)
  cases hargs with
  | angle hws hlist hws' =>
      simp only [List.length_append, List.length_cons] at hbound
      simpa only [List.append_assoc] using settles_angle (hinner hws hlist hws' (by omega))
  | square hws hlist hws' =>
      simp only [List.length_append, List.length_cons] at hbound
      simpa only [List.append_assoc] using settles_square (hinner hws hlist hws' (by omega))

theorem settles_of_isBase {t : Ty} (hbase : Ty.IsBase text t) : Settles text := by
  cases hbase with
  | name hname => exact settles_of_isTypeName hname
  | args hname hws hargs =>
      simp only [List.length_append] at hbound
      exact (settles_of_isTypeName hname).append
        ((isPiece_of_gap hws).settles.append (settles_of_isArgs h (by omega) hargs))

theorem settles_of_isSingle {t : Ty} (hsingle : Ty.IsSingle text t) : Settles text := by
  cases hsingle with
  | plain hbase => exact settles_of_isBase h hbound hbase
  | marked hbase =>
      rw [List.length_append] at hbound
      exact (settles_of_isBase h (by omega) hbase).append (settles_sign (by decide))

end

/-- A type leaves no bracket open. -/
theorem settles_of_isType (bound : Nat) :
    ∀ text t, text.length ≤ bound → Ty.IsType text t → Settles text := by
  induction bound with
  | zero =>
      intro text t hbound ht
      obtain ⟨d, ds, rfl, -⟩ := ht.exists_cons
      simp at hbound
  | succ bound ih =>
      intro text t hbound ht
      cases ht with
      | union hlist =>
          refine settles_of_separated (by decide) (fun text u hbound hu => ?_) hlist hbound
          exact settles_of_isSingle ih hbound hu

end Nesting

/-! ### Trimmed texts -/

namespace Text

theorem dropEndWhile_of_forall {p : Char → Bool} {cs : List Char} (h : ∀ c ∈ cs, p c = false) :
    dropEndWhile p cs = cs := by
  rcases List.eq_nil_or_concat cs with rfl | ⟨ds, d, rfl⟩
  · rfl
  · rw [List.concat_eq_append] at *
    exact Ty.dropEndWhile_concat_of_neg (h d (by simp)) ds

/-- Nothing is trimmed from a text without blanks at its ends. -/
theorem strip_of_ends {cs : List Char} (hfirst : ∀ c, cs.head? = some c → isBlank c = false)
    (hlast : ∀ c, cs.getLast? = some c → isBlank c = false) : strip cs = cs := by
  have hstart : stripStart cs = cs := by
    cases cs with
    | nil => rfl
    | cons c cs => exact List.dropWhile_cons_of_neg (by simp [hfirst c rfl])
  rw [strip, hstart, stripEnd]
  rcases List.eq_nil_or_concat cs with rfl | ⟨ds, d, rfl⟩
  · rfl
  · rw [List.concat_eq_append] at *
    exact Ty.dropEndWhile_concat_of_neg (hlast d (by simp)) ds

/-- The trimmed text stands between blanks. -/
theorem exists_strip (piece : List Char) :
    ∃ front back, piece = front ++ (strip piece ++ back) ∧ (∀ c ∈ front, isBlank c = true) ∧
      ∀ c ∈ back, isBlank c = true := by
  obtain ⟨back, hback, hblank⟩ := dropEndWhile_append_rest isBlank (stripStart piece)
  refine ⟨piece.takeWhile isBlank, back, ?_, fun c => List.mem_takeWhile_imp, hblank⟩
  rw [strip, stripEnd, ← hback, stripStart, List.takeWhile_append_dropWhile]

end Text

/-! ### Parameters as they are shown -/

namespace Parameter

open Polyloft.Parser (Gap)
open Polyloft.Ty (IsType)
open Polyloft.Nesting

theorem mem_renderName {piece : List Char} {p : Parameter} (h : parse? piece = some p) {c : Char}
    (hc : c ∈ p.renderName.toList) : c = '.' ∨ isIdentifierChar c = true ∨ c = '?' := by
  have hname : ∀ d ∈ p.name.toList, isIdentifierChar d = true :=
    fun d => isIdentifierChar_of_mem (isIdentifier_of_parse? h)
  rw [toList_renderName, List.mem_append, List.mem_append] at hc
  rcases hc with hc | hc | hc
  · split at hc
    · exact .inl (by simpa using hc)
    · simp at hc
  · exact .inr (.inl (hname c hc))
  · split at hc
    · exact .inr (.inr (by simpa using hc))
    · simp at hc

theorem isBlank_of_mem_renderName {piece : List Char} {p : Parameter} (h : parse? piece = some p)
    {c : Char} (hc : c ∈ p.renderName.toList) : isBlank c = false := by
  rcases mem_renderName h hc with rfl | hc | rfl
  · decide
  · exact isBlank_of_isIdentifierChar hc
  · decide

theorem isPiece_renderName {piece : List Char} {p : Parameter} (h : parse? piece = some p) :
    IsPiece (· == ',') p.renderName.toList := by
  refine isPiece_of_plain fun c hc => ?_
  rcases mem_renderName h hc with rfl | hc | rfl
  · decide
  · exact ⟨not_mem_signs_of_isIdentifierChar hc,
      beq_eq_false_iff_ne.2 (ne_of_isIdentifierChar hc (by decide))⟩
  · decide

theorem toList_render_of_none {p : Parameter} (h : p.typeText = none) :
    p.render.toList = p.renderName.toList := by
  rw [render, h]

theorem toList_render_of_some {p : Parameter} {text : List Char} {t : Ty}
    (h : p.typeText = some (String.ofList text)) (ht : IsType text t) :
    p.render.toList = p.renderName.toList ++ ':' :: ' ' :: text := by
  obtain ⟨d, ds, rfl, -⟩ := ht.exists_cons
  have hne : String.ofList (d :: ds) ≠ "" := by
    rw [← String.toList_inj.ne]
    simp
  rw [render, h]
  dsimp only
  rw [if_neg hne, String.toList_append, String.toList_append, String.toList_ofList]
  simp

/-- A parameter with a type is written with the type. -/
theorem exists_typed_or_bare {piece : List Char} {p : Parameter} (h : parse? piece = some p) :
    p.typeText = none ∧ p.type = .any ∨
      ∃ ws ws' text rest, Gap ws ∧ Gap ws' ∧ p.typeText = some (String.ofList text) ∧
        IsType text p.type ∧
        strip piece = p.renderName.toList ++ (ws ++ ':' :: (ws' ++ (text ++ rest))) := by
  rcases parse?_cases h with ⟨-, h⟩ | ⟨-, rfl⟩
  · generalize strip piece = cs at h
    cases h with
    | @mk ws typing ws' default _ hws htyping =>
        rcases typing_cases htyping with ⟨hnone, htype, -⟩ | ⟨vs, text, hvs, ht, hsome, rfl⟩
        · exact .inl ⟨hnone, htype⟩
        · exact .inr ⟨ws, vs, text, ws' ++ default, hws, hvs, hsome, ht, by simp⟩
  · exact .inl ⟨rfl, rfl⟩

/-- What a parameter is shown as can be a piece of a list. -/
theorem isPiece_render {s : Nesting} (hs : s.AtTop) {piece : List Char}
    (hpiece : cutFrom (· == ',') s piece = [piece]) {p : Parameter} (h : parse? piece = some p) :
    IsPiece (· == ',') p.render.toList := by
  have hshown := isPiece_renderName h
  rcases exists_typed_or_bare h with ⟨hnone, -⟩ | ⟨ws, ws', text, rest, hws, hws', hsome, ht, heq⟩
  · rwa [toList_render_of_none hnone]
  · obtain ⟨front, back, hsplit, hfront, -⟩ := exists_strip piece
    have hcolon : IsPiece (· == ',') [':'] := isPiece_of_plain (by simp [signs])
    -- The type starts outside of all brackets, because nothing in front of it opens one.
    have hbefore := (isPiece_of_blank hfront).append
      (hshown.append ((isPiece_of_gap hws).append (hcolon.append (isPiece_of_gap hws'))))
    have hsettles := settles_of_isType _ text _ (Nat.le_refl _) ht
    have hwhole : piece = (front ++ (p.renderName.toList ++ (ws ++ ([':'] ++ ws'))) ++ text) ++
        (rest ++ back) := by
      rw [hsplit, heq]
      simp only [List.append_assoc, List.cons_append, List.nil_append]
    rw [hwhole] at hpiece
    have hkeeps := keeps_of_cutFrom hs.quote (hbefore.settles.append hsettles).unquoted hpiece
    have hfirst : text.head? ≠ some '<' := by
      obtain ⟨d, ds, rfl, hd⟩ := ht.exists_cons
      rintro hhead
      rw [Option.some.inj hhead] at hd
      exact absurd hd (by decide)
    have htext := isPiece_of_keeps hsettles hfirst (hbefore.settles.atTop hs)
      (keeps_append.1 hkeeps).2
    have hspace : IsPiece (· == ',') [':', ' '] := isPiece_of_plain (by simp [signs])
    rw [toList_render_of_some hsome ht]
    exact hshown.append (hspace.append htext)

theorem strip_render {piece : List Char} {p : Parameter} (h : parse? piece = some p) :
    strip p.render.toList = p.render.toList := by
  have hblank (c : Char) := isBlank_of_mem_renderName h (c := c)
  rcases exists_typed_or_bare h with ⟨hnone, -⟩ | ⟨-, -, text, -, -, -, hsome, ht, -⟩
  · rw [toList_render_of_none hnone]
    exact strip_of_ends (fun c hc => hblank c (List.mem_of_head? hc))
      fun c hc => hblank c (List.mem_of_getLast? hc)
  · obtain ⟨cs, d, rfl, hd⟩ := ht.exists_concat
    rw [toList_render_of_some hsome ht]
    refine strip_of_ends (fun c hc => ?_) fun c hc => ?_
    · rw [List.head?_append] at hc
      rcases Option.or_eq_some_iff.1 hc with hc | ⟨-, hc⟩
      · exact hblank c (List.mem_of_head? hc)
      · rw [← Option.some.inj hc]
        decide
    · have hend : p.renderName.toList ++ ':' :: ' ' :: (cs ++ [d]) =
          (p.renderName.toList ++ ':' :: ' ' :: cs) ++ [d] := by
        simp
      rw [hend, List.getLast?_concat] at hc
      rwa [← Option.some.inj hc]

theorem follows_render {cs : List Char} {p : Parameter} (h : Follows p cs) :
    Follows p p.render.toList := by
  have hread {typing : List Char} (htyping : Typing p.typeText p.type typing) :
      Follows p (p.renderName.toList ++ typing) := by
    have hfollows := Follows.mk h.isTypeName .nil htyping .nil (.inl rfl)
    simpa using hfollows
  cases h with
  | mk hname hws htyping =>
      rcases typing_cases htyping with ⟨hnone, htype, -⟩ | ⟨ws, text, -, ht, hsome, -⟩
      · have hbare := hread (by rw [hnone, htype]; exact .none)
        rwa [List.append_nil, ← toList_render_of_none hnone] at hbare
      · have hspace : Gap [' '] := by simp [Gap, Parser.isGap]
        have htyped := hread (by rw [hsome]; exact .some hspace ht)
        rwa [toList_render_of_some hsome ht]

/-- The dots of a variadic parameter can be told from its name. -/
theorem dots_append_inj {v w : Bool} {cs ds : List Char} (hcs : cs.head? ≠ some '.')
    (hds : ds.head? ≠ some '.')
    (h : (if v then ['.', '.', '.'] else []) ++ cs = (if w then ['.', '.', '.'] else []) ++ ds) :
    v = w ∧ cs = ds := by
  cases v with
  | true =>
      cases w with
      | true => exact ⟨rfl, List.append_cancel_left h⟩
      | false => exact absurd (congrArg List.head? h).symm hds
  | false =>
      cases w with
      | true => exact absurd (congrArg List.head? h) hcs
      | false => exact ⟨rfl, h⟩

/-- Among the characters of identifiers there is none that goes on with a parameter behind its
name. -/
theorem eq_nil_of_isIdentifierChar {typeText : Option String} {type : Ty} {optional : Bool}
    {ws typing ws' default : List Char} (hws : Gap ws) (htyping : Typing typeText type typing)
    (hws' : Gap ws') (hdefault : default = [] ∨ ∃ value, default = '=' :: value)
    (h : ∀ c ∈ (if optional then ['?'] else []) ++ (ws ++ (typing ++ (ws' ++ default))),
      isIdentifierChar c = true) :
    optional = false ∧ ws = [] ∧ (typeText = none ∧ type = .any ∧ typing = []) ∧ ws' = [] ∧
      default = [] := by
  simp only [List.forall_mem_append] at h
  obtain ⟨hmark, hgap, htype, hgap', hvalue⟩ := h
  have hblank {ws : List Char} (hws : Gap ws) (h : ∀ c ∈ ws, isIdentifierChar c = true) :
      ws = [] := by
    refine List.eq_nil_iff_forall_not_mem.2 fun c hc => ?_
    have hc' := isBlank_of_mem_gap hws hc
    rw [isBlank_of_isIdentifierChar (h c hc)] at hc'
    simp at hc'
  refine ⟨?_, hblank hws hgap, ?_, hblank hws' hgap', ?_⟩
  · cases optional with
    | true => exact absurd rfl (ne_of_isIdentifierChar (hmark '?' (by simp)) (by decide))
    | false => rfl
  · rcases typing_cases htyping with hbare | ⟨vs, text, -, -, -, rfl⟩
    · exact hbare
    · exact absurd rfl (ne_of_isIdentifierChar (htype ':' (List.mem_cons_self ..)) (by decide))
  · rcases hdefault with hnil | ⟨value, rfl⟩
    · exact hnil
    · exact absurd rfl (ne_of_isIdentifierChar (hvalue '=' (List.mem_cons_self ..)) (by decide))

theorem shown_eq_of_follows {q : Parameter} {variadic : Bool} {name : List Char}
    (hname : isIdentifier name = true)
    (h : Follows q ((if variadic then ['.', '.', '.'] else []) ++ name)) :
    q.shown = { name := String.ofList name, variadic } := by
  generalize hcs : (if variadic then ['.', '.', '.'] else []) ++ name = cs at h
  cases h with
  | @mk ws typing ws' default hspelled hws htyping hws' hdefault =>
      have hdots {name : List Char} (hname : isIdentifier name = true) (rest : List Char) :
          (name ++ rest).head? ≠ some '.' := by
        obtain ⟨d, ds, rfl, hd, -⟩ := exists_cons_of_isIdentifier hname
        simpa using hd
      rw [toList_renderName, List.append_assoc, List.append_assoc] at hcs
      obtain ⟨rfl, rfl⟩ := dots_append_inj (by simpa using hdots hname [])
        (hdots (isIdentifier_of_isTypeName hspelled) _) hcs
      obtain ⟨hoptional, rfl, ⟨hnone, htype, rfl⟩, rfl, rfl⟩ :=
        eq_nil_of_isIdentifierChar hws htyping hws' hdefault fun c hc =>
          isIdentifierChar_of_mem hname (List.mem_append_right _ hc)
      simp [shown, hnone, htype, hoptional]

theorem recover?_name {variadic : Bool} {name : List Char} (hname : isIdentifier name = true) :
    recover? ((if variadic then ['.', '.', '.'] else []) ++ name) =
      some { name := String.ofList name, variadic } := by
  have hchars : ∀ c ∈ name, isIdentifierChar c = true := fun c => isIdentifierChar_of_mem hname
  have hdots :
      ((if variadic then ['.', '.', '.'] else []) ++ name).dropWhile (· == '.') = name := by
    obtain ⟨d, ds, rfl, hdot, -⟩ := exists_cons_of_isIdentifier hname
    cases variadic <;> simp [hdot]
  have hhead : name.takeWhile (fun c => c != ':' && c != '=') = name := by
    refine List.takeWhile_eq_self_iff.2 fun c hc => ?_
    rw [Bool.and_eq_true, bne_iff_ne, bne_iff_ne]
    exact ⟨ne_of_isIdentifierChar (hchars c hc) (by decide),
      ne_of_isIdentifierChar (hchars c hc) (by decide)⟩
  have hstrip : strip name = name :=
    strip_of_ends (fun c hc => isBlank_of_isIdentifierChar (hchars c (List.mem_of_head? hc)))
      fun c hc => isBlank_of_isIdentifierChar (hchars c (List.mem_of_getLast? hc))
  have hmark : dropEndWhile (· == '?') name = name :=
    dropEndWhile_of_forall fun c hc =>
      beq_eq_false_iff_ne.2 (ne_of_isIdentifierChar (hchars c hc) (by decide))
  have hvariadic : ['.', '.', '.'].isPrefixOf ((if variadic then ['.', '.', '.'] else []) ++ name) =
      variadic := by
    obtain ⟨d, ds, rfl, hdot, -⟩ := exists_cons_of_isIdentifier hname
    cases variadic <;> simp [List.isPrefixOf, Ne.symm hdot]
  have hrecover : recoverName ((if variadic then ['.', '.', '.'] else []) ++ name) = name := by
    rw [recoverName, hdots, hhead, hstrip, hmark]
  rw [recover?, hrecover, hvariadic, if_pos hname]

/-- What a parameter is shown as is read as the parameter. -/
theorem parse?_render {piece : List Char} {p : Parameter} (h : parse? piece = some p) :
    (parse? p.render.toList).map shown = some p.shown := by
  rw [parse?, strip_render h]
  rcases parse?_cases h with ⟨-, h⟩ | ⟨hname, hp⟩
  · obtain ⟨q, hread, hq⟩ := Option.map_eq_some_iff.1 (parseGrammar?_of_follows (follows_render h))
    rw [hread, Option.some_or, Option.map_some, hq]
  · generalize recoverName (strip piece) = name at hname hp
    generalize ['.', '.', '.'].isPrefixOf (strip piece) = variadic at hp
    have htext : p.render.toList = (if variadic then ['.', '.', '.'] else []) ++ name := by
      rw [toList_render_of_none (by rw [hp]), toList_renderName, hp]
      simp
    rw [htext, recover?_name hname]
    cases hread : parseGrammar? ((if variadic then ['.', '.', '.'] else []) ++ name) with
    | none => rw [Option.none_or, hp]; rfl
    | some q =>
        have hq := shown_eq_of_follows hname (follows_of_parseGrammar? hread)
        rw [Option.some_or, Option.map_some, hq, hp]
        rfl

/-! ### Lists as they are shown -/

/-- But for the columns, a list of parameters is read piece by piece. -/
theorem map_shown_parseList (cs : List Char) (column : Nat) :
    (parseList cs column).map shown =
      (cutFrom (· == ',') {} cs).filterMap fun piece => (parse? piece).map shown := by
  have hpiece : (fun piece : Nat × List Char =>
      (parseAt? (column + piece.1) piece.2).map shown) =
        (fun piece => (parse? piece).map shown) ∘ Prod.snd := by
    funext piece
    rw [parseAt?, Option.map_map]
    rfl
  rw [parseList, List.map_filterMap, hpiece, ← List.filterMap_map, splitTopLevel,
    map_snd_placePieces]

theorem render_shown (p : Parameter) : p.shown.render = p.render := rfl

/-- A parameter that comes back from what it is shown as. -/
structure Survives (p : Parameter) : Prop where
  isPiece : IsPiece (· == ',') p.render.toList
  read : (parse? p.render.toList).map shown = some p

theorem survives_of_mem {cs : List Char} {column : Nat} {p : Parameter}
    (h : p ∈ (parseList cs column).map shown) : Survives p := by
  rw [map_shown_parseList, List.mem_filterMap] at h
  obtain ⟨piece, hpiece, hread⟩ := h
  obtain ⟨q, hq, rfl⟩ := Option.map_eq_some_iff.1 hread
  obtain ⟨s, hs, hwhole⟩ := exists_of_mem_cutFrom ⟨rfl, rfl, rfl⟩ hpiece
  refine ⟨?_, ?_⟩
  · rw [render_shown]
    exact isPiece_render hs hwhole hq
  · rw [render_shown]
    exact parse?_render hq

/-- The pieces of a list as it is shown. -/
def shownPieces : List Parameter → List (List Char)
  | [] => [[]]
  | p :: ps => p.render.toList :: ps.map fun q => ' ' :: q.render.toList

theorem toList_renderList (ps : List Parameter) :
    (renderList ps).toList = joinWith ',' (shownPieces ps) := by
  rw [renderList]
  cases ps with
  | nil => rfl
  | cons p ps =>
      rw [List.map_cons, shownPieces]
      induction ps generalizing p with
      | nil => simp [joinWith]
      | cons q ps ih =>
          have hblank (rest : List (List Char)) :
              joinWith ',' ((' ' :: q.render.toList) :: rest) =
                ' ' :: joinWith ',' (q.render.toList :: rest) :=
            joinWith_consPiece (List.cons_ne_nil _ rest)
          rw [List.map_cons, String.intercalate_cons_cons, String.toList_append,
            String.toList_append, ih, List.map_cons]
          show _ = p.render.toList ++ ',' :: joinWith ',' _
          rw [hblank, List.append_assoc]
          rfl

theorem isPiece_of_mem_shownPieces {ps : List Parameter} (h : ∀ p ∈ ps, Survives p)
    {piece : List Char} (hpiece : piece ∈ shownPieces ps) : IsPiece (· == ',') piece := by
  cases ps with
  | nil =>
      rw [List.mem_singleton.1 hpiece]
      exact isPiece_of_plain (by simp)
  | cons p ps =>
      obtain ⟨hp, hps⟩ := List.forall_mem_cons.1 h
      rcases List.mem_cons.1 hpiece with rfl | hpiece
      · exact hp.isPiece
      · obtain ⟨q, hq, rfl⟩ := List.mem_map.1 hpiece
        have hspace : IsPiece (· == ',') [' '] := isPiece_of_plain (by simp [signs])
        exact hspace.append (hps q hq).isPiece

theorem filterMap_shownPieces {ps : List Parameter} (h : ∀ p ∈ ps, Survives p) :
    (shownPieces ps).filterMap (fun piece => (parse? piece).map shown) = ps := by
  cases ps with
  | nil => rfl
  | cons p ps =>
      obtain ⟨hp, hps⟩ := List.forall_mem_cons.1 h
      -- The blank behind a comma is trimmed.
      have hread (q : Parameter) (hq : q ∈ ps) :
          (parse? (' ' :: q.render.toList)).map shown = some q := (hps q hq).read
      have hrest : (ps.map fun q => ' ' :: q.render.toList).filterMap
          (fun piece => (parse? piece).map shown) = ps := by
        rw [List.filterMap_map]
        exact (List.filterMap_congr hread).trans List.filterMap_some
      simp only [shownPieces, List.filterMap_cons, hp.read, hrest]

end Parameter

open Parameter in
/-- Read again, what a list of parameters is shown as gives the same parameters, but for their
defaults and their columns. -/
theorem parameter_lists_read_back (cs : List Char) (column column' : Nat) :
    (parseList (renderList (parseList cs column)).toList column').map shown =
      (parseList cs column).map shown := by
  have hsurvives : ∀ p ∈ (parseList cs column).map shown, Survives p :=
    fun p => survives_of_mem
  have hrender : renderList (parseList cs column) =
      renderList ((parseList cs column).map shown) := by
    rw [renderList, renderList, List.map_map]
    rfl
  rw [hrender]
  generalize (parseList cs column).map shown = ps at hsurvives ⊢
  have hne : shownPieces ps ≠ [] := by
    cases ps <;> simp [shownPieces]
  rw [map_shown_parseList, toList_renderList,
    cutFrom_joinWith (by decide) ⟨rfl, rfl, rfl⟩ hne fun _ => isPiece_of_mem_shownPieces hsurvives,
    filterMap_shownPieces hsurvives]

open Parameter in
example : renderList (parseList "m: Map<K, List[V, W]> = {1, 2}, .. x, ... é?".toList 0) =
    "m: Map<K, List[V, W]>, x, ...é" := by
  decide +kernel

end Polyloft
