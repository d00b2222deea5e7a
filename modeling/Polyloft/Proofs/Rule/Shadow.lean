import Polyloft.Proofs.Inference.Access
import Polyloft.Proofs.Inference.Stable
import Polyloft.Proofs.Place.Report

/-!
# Polyloft.Proofs.Rule.Shadow

Class-likes of a document against a catalog that has something of the same name. A member of a
class-like is typed by the class-like wherever neither the catalog nor the language itself comes
first, and an access to it is not reported as unknown unless a built-in type of that name lacks it.

## Proof shape

For types this is `Polyloft.Proofs.Inference.Access`. For the rule, the type of a variable may depend
on what was asked before, so it has to be said on which memo it is taken: on the one that the rule
leaves. There every check that the rule has made gives the finding that it gave
(`exists_collectFindings`), and no other check points to the same place (`eq_of_next_range`).
-/

namespace Polyloft

open Infer

/-! ### Checks on the memo that is left -/

/-- Computations that can be repeated give the same answers again on what the memo has grown into
when all of them are done. -/
theorem Infer.exists_mapM_of_settles {α β : Type} {free : List DeclarationKey} {f : α → Infer β}
    {items : List α} (h : ∀ x ∈ items, (settles free).rel (fun _ => True) (f x) (f x))
    {memo : Memo} (hmemo : memo.WellTyped) :
    ∃ answers memo', (items.mapM f).after memo = (.ok answers, memo') ∧ memo.Grows free memo' ∧
      ∀ answer ∈ answers, ∃ x ∈ items, ∀ later, memo'.Grows free later →
        (f x).after later = (.ok answer, later) := by
  induction items generalizing memo with
  | nil => exact ⟨[], memo, rfl, .refl, by simp⟩
  | cons x items ih =>
      rw [List.forall_mem_cons] at h
      obtain ⟨answer, memo₁, hafter, -, hmemo₁, hgrows, hagain⟩ := h.1 memo hmemo
      obtain ⟨answers, memo', hrest, hgrows', hagains⟩ := ih h.2 hmemo₁
      refine ⟨answer :: answers, memo', ?_, hgrows.trans hgrows', ?_⟩
      · rw [List.mapM_cons, after_bind_ok hafter, after_bind_ok hrest, after_pure]
      · intro found hfound
        rcases List.mem_cons.1 hfound with rfl | hfound
        · exact ⟨x, List.mem_cons_self .., fun later hlater => hagain later (hgrows'.trans hlater)⟩
        · obtain ⟨y, hy, hagain'⟩ := hagains found hfound
          exact ⟨y, List.mem_cons_of_mem _ hy, hagain'⟩

namespace Rule

/-- What a rule finds by such checks is what they find on the memo that it leaves. -/
theorem exists_collectFindings {α : Type} {free : List DeclarationKey}
    {check : α → Infer (Option Finding)} {items : List α}
    (h : ∀ x ∈ items, (settles free).rel (fun _ => True) (check x) (check x)) {memo : Memo}
    (hmemo : memo.WellTyped) :
    ∃ findings memo', (collectFindings check items).after memo = (.ok findings, memo') ∧
      ∀ f ∈ findings, ∃ x ∈ items, (check x).after memo' = (.ok (some f), memo') := by
  obtain ⟨answers, memo', hafter, -, hagain⟩ := exists_mapM_of_settles h hmemo
  refine ⟨answers.filterMap id, memo', ?_, ?_⟩
  · rw [collectFindings, after_bind_ok hafter, after_pure]
  · intro f hf
    obtain ⟨_, hanswer, rfl⟩ := List.mem_filterMap.1 hf
    obtain ⟨x, hx, hlater⟩ := hagain _ hanswer
    exact ⟨x, hx, hlater memo' .refl⟩

/-! ### Places of members -/

variable {a : Analysis}

theorem settles_unknownMemberAt (ha : a.IsRead) (n : Nat) (s : Spot) :
    (settles a.table.keys).rel (fun _ => True) (unknownMemberAt a n s) (unknownMemberAt a n s) :=
  rel_unknownMemberAt
    (fun _ hd => Analysis.settles_declarationTypeIn ha hd (List.mem_map_of_mem hd)) n s

/-- A token of a document is the next one of one spot only. -/
theorem eq_of_next_range (ha : a.IsRead) (hplaced : a.Placed) {n n' : Nat} {s s' : Spot}
    {t t' : Token} (hmem : (n, s) ∈ documentSpots a.document)
    (hmem' : (n', s') ∈ documentSpots a.document) (ht : s.next? = some t)
    (ht' : s'.next? = some t') (hrange : t.range = t'.range) (hne : t.text ≠ "") :
    n = n' ∧ s = s' := by
  obtain ⟨l, hl, rfl, hs⟩ := mem_documentSpots hmem
  obtain ⟨l', hl', rfl, hs'⟩ := mem_documentSpots hmem'
  have hline := (hplaced.fits l hl).line_eq t (Line.mem_of_spot hs (by simp [List.mem_of_head? ht]))
  have hline' := (hplaced.fits l' hl').line_eq t'
    (Line.mem_of_spot hs' (by simp [List.mem_of_head? ht']))
  have hsame : t.line = t'.line := Int.ofNat.inj (congrArg Range.line hrange)
  obtain rfl := ha.isNumbered.eq_of_index hl hl' (by rw [← hline, ← hline', hsame])
  exact ⟨rfl, (hplaced.fits l hl).eq_of_next_range hs hs' ht ht' hrange hne⟩

/-! ### Accesses to variables -/

/-- A dot between a variable and the name of a member. -/
structure IsAccess (a : Analysis) (line : Nat) (s : Spot) (receiver : Declaration)
    (member : Token) : Prop where
  mem : (line, s) ∈ documentSpots a.document
  isDot : s.token.isSymbol "." = true
  visible : ∃ token, s.previous? = some token ∧ a.visible? token.text line = some receiver
  isVariable : receiver.isVariable = true
  next : s.next? = some member

/-- Nothing is found at an access to a variable whose type allows it. -/
theorem after_unknownMemberAt_of_isAccess {n : Nat} {s : Spot} {v : Declaration} {member : Token}
    (h : IsAccess a n s v member) {memo : Memo} {t : Ty}
    (htype : ((a.declarationType v).after memo).1 = .ok t)
    (hallowed : unknownMethod? a t member = none) :
    ((unknownMemberAt a n s).after memo).1 = .ok none := by
  obtain ⟨token, hprevious, hvisible⟩ := h.visible
  unfold unknownMemberAt
  split
  · rfl
  · rename_i receiver member' haccessed
    obtain ⟨hreceiver, hmember⟩ := neighbours_of_accessedMember? haccessed
    obtain rfl := Option.some.inj (hreceiver.symm.trans hprevious)
    obtain rfl := Option.some.inj (hmember.symm.trans h.next)
    rw [hvisible]
    dsimp only
    split
    · rw [after_bind_ok (Prod.ext htype rfl), after_pure, hallowed]
    · rfl

theorem unknownMethod?_eq_none {name : String} {args : List Ty} {member : Token}
    (h : (a.catalog.type? name).isSome = true →
      (a.catalog.method? (.named name args) member.text).isSome = true ∨
        member.text = "toString") :
    unknownMethod? a (.named name args) member = none := by
  refine if_neg fun hunknown => ?_
  simp only [Bool.and_eq_true, Option.isNone_iff_eq_none, bne_iff_ne, ne_eq] at hunknown
  rcases h hunknown.1.1 with hmethod | hname
  · simp [hunknown.1.2] at hmethod
  · exact hunknown.2 hname

/-- The rule gives an answer, and no finding stands at an access to a variable whose type, as known
when the rule is done, allows it. -/
theorem exists_run_unknownMember (ha : a.IsRead) (hplaced : a.Placed) (settings : Settings)
    {memo : Memo} (hmemo : memo.WellTyped) :
    ∃ diagnostics memo', (unknownMember.run ⟨a, settings⟩).after memo = (.ok diagnostics, memo') ∧
      ∀ {n s v member t}, IsAccess a n s v member → member.text ≠ "" →
        ((a.declarationType v).after memo').1 = .ok t → unknownMethod? a t member = none →
        ∀ diagnostic ∈ diagnostics, diagnostic.range ≠ member.range := by
  obtain ⟨findings, memo', hafter, hfound⟩ := exists_collectFindings
    (fun (p : Nat × Spot) (_ : p ∈ documentSpots a.document) =>
      settles_unknownMemberAt ha p.1 p.2) hmemo
  refine ⟨findings.map unknownMember.diagnostic, memo', ?_, ?_⟩
  · rw [run]
    exact after_bind_ok hafter _
  · intro n s v member t haccess hne htype hallowed diagnostic hdiagnostic hrange
    obtain ⟨f, hf, rfl⟩ := List.mem_map.1 hdiagnostic
    obtain ⟨⟨n', s'⟩, hmem, hcheck⟩ := hfound f hf
    obtain ⟨receiver, member', haccessed, hplace⟩ :=
      ensures_range_unknownMemberAt n' s' _ _ _ hcheck f rfl
    -- The finding was made at the access itself, for no other spot has the member next to it.
    obtain ⟨rfl, rfl⟩ := eq_of_next_range ha hplaced haccess.mem hmem haccess.next
      (neighbours_of_accessedMember? haccessed).2 (hrange.symm.trans hplace) hne
    have hnone := after_unknownMemberAt_of_isAccess haccess htype hallowed
    rw [hcheck] at hnone
    simp at hnone

end Rule

/-! ### Class-likes against the catalog -/

namespace DeclarationTable

variable {table : DeclarationTable} {name member : String} {d : Declaration}

/-- A class-like that can be used somewhere is found by its name. -/
theorem exists_classLike? {line : Int} {tree : ScopeTree}
    (h : table.visible? name line tree = some d) (hkind : d.kind = .classLike) :
    ∃ klass, table.classLike? name = some klass := by
  rw [← Option.isSome_iff_exists, classLike?, List.find?_isSome]
  exact ⟨d, mem_of_visible? h, by simp [hkind, name_of_visible? h]⟩

theorem of_member? (h : table.member? name member = some d) :
    d ∈ table.declarations ∧ d.owner = some name ∧ d.name = member := by
  have hfound := List.find?_some h
  simp only [Bool.and_eq_true, beq_iff_eq] at hfound
  exact ⟨List.mem_of_find?_eq_some h, hfound.1, hfound.2⟩

end DeclarationTable

namespace Analysis

/-- The name means an enumeration that has something else by the name of the member: a value, or a
function that every enumeration has. -/
def EnumOffers (a : Analysis) (owner member : String) : Prop :=
  ∃ klass, a.table.classLike? owner = some klass ∧ klass.form = .enumType ∧
    ((∃ v ∈ a.table.enumValues owner, v.name = member) ∨
      Expression.enumStatic? owner member ≠ none)

variable {a : Analysis} {owner member : String} {c d : Declaration} {line : Int}

section

variable (hc : a.visible? owner line = some c) (hkind : c.kind = .classLike)
  (hd : a.table.member? owner member = some d) (hvalue : d.form ≠ .enumValue)
include hc hkind hd hvalue

/-- A method call on a value of the class-like. -/
theorem methodType_of_member? (args : List Ty) :
    a.methodType (.named owner args) member =
      (match a.catalog.methodType? (.named owner args) member with
      | some t => pure t
      | none => a.declarationType d) := by
  obtain ⟨klass, hklass⟩ := DeclarationTable.exists_classLike? hc hkind
  cases hcatalog : a.catalog.methodType? (.named owner args) member with
  | some t => rw [methodType, Expression.methodType, Expression.namedMethodType, hcatalog]
  | none => exact Expression.methodType_of_member? hklass hd hvalue args hcatalog

/-- A call by the name of the class-like. -/
theorem infer_access_of_member? (ha : a.IsRead) (hkeyword : owner ∉ keywords)
    (hpackage : a.catalog.package? owner = none) (hoffers : ¬a.EnumOffers owner member)
    (hcomponent : d.form = .component → Text.isName member.toList = true) :
    a.infer (accessText owner member) line = a.declarationType d := by
  obtain ⟨klass, hklass⟩ := DeclarationTable.exists_classLike? hc hkind
  obtain ⟨hmem, howner, hname⟩ := DeclarationTable.of_member? hd
  have hnamed : ∀ e ∈ a.table.declarations, e.Named := by
    rw [ha.table_eq]
    exact fun e => DeclarationTable.named_of_mem_collect
  have hownerName : Text.isName owner.toList = true := by
    rw [← DeclarationTable.name_of_visible? hc]
    rcases hnamed c (DeclarationTable.mem_of_visible? hc) with h | ⟨⟨h, -⟩ | h, -⟩
    · exact h
    · simp [Declaration.kind, h, DeclarationForm.kind] at hkind
    · simp [Declaration.kind, h, DeclarationForm.kind] at hkind
  have hmemberName : Text.isName member.toList = true := by
    rcases hnamed d hmem with h | ⟨⟨-, h⟩ | h, -⟩
    · exact hname ▸ h
    · simp [howner] at h
    · exact hcomponent h
  rw [infer, Expression.inferText_access hownerName hkeyword hmemberName hklass hpackage]
  refine Expression.classAccess_of_member? hklass hd hvalue fun henum => ⟨?_, ?_⟩
  · exact fun v hv hsame => hoffers ⟨klass, hklass, henum, .inl ⟨v, hv, hsame⟩⟩
  · by_contra hstatic
    exact hoffers ⟨klass, hklass, henum, .inr hstatic⟩

end

/-- Class-likes come before the catalog. Let a class-like be visible on a line and have a member
that is no value of an enumeration. A method call on its values has the type of the member, where no
built-in type has the method. A call by its name on that line has the type of the member, whether or
not the catalog has a type of that name; this supposes that the name is no reserved word and no
package, that an enumeration has nothing else by the name of the member, and that the member has a
name of the language. And the rule for unknown members does not report an access to the member on a
variable of that type, where no built-in type of that name lacks it. -/
theorem class_likes_shadow_catalog (text : List Char) (uri : Option String) (catalog : Catalog) :
    let a := ofText text uri catalog
    ∀ {owner member : String} {line : Int} {c d : Declaration}, a.visible? owner line = some c →
      c.kind = .classLike → a.table.member? owner member = some d → d.form ≠ .enumValue →
      (∀ args, a.methodType (.named owner args) member =
        match catalog.methodType? (.named owner args) member with
        | some t => pure t
        | none => a.declarationType d) ∧
      (owner ∉ keywords → catalog.package? owner = none → ¬a.EnumOffers owner member →
        (d.form = .component → Text.isName member.toList = true) →
        a.infer (accessText owner member) line = a.declarationType d) ∧
      ∀ (settings : Settings) (memo : Memo), memo.WellTyped → ∃ diagnostics memo',
        (Rule.unknownMember.run ⟨a, settings⟩).after memo = (.ok diagnostics, memo') ∧
        ∀ {n s v args token}, Rule.IsAccess a n s v token → token.text = member →
          ((a.declarationType v).after memo').1 = .ok (.named owner args) →
          ((catalog.type? owner).isSome = true →
            (catalog.method? (.named owner args) member).isSome = true ∨ member = "toString") →
          ∀ diagnostic ∈ diagnostics, diagnostic.range ≠ token.range := by
  intro a owner member line c d hc hkind hd hvalue
  have ha : a.IsRead := isRead_ofText text uri catalog
  refine ⟨methodType_of_member? hc hkind hd hvalue,
    infer_access_of_member? hc hkind hd hvalue ha, ?_⟩
  intro settings memo hmemo
  obtain ⟨diagnostics, memo', hrun, hquiet⟩ :=
    Rule.exists_run_unknownMember ha (placed_ofText text uri catalog) settings hmemo
  refine ⟨diagnostics, memo', hrun, ?_⟩
  rintro n s v args token haccess rfl htype hallowed
  obtain ⟨hmem, -, hname⟩ := DeclarationTable.of_member? hd
  have hne : token.text ≠ "" :=
    hname ▸ (DeclarationTable.named_of_mem_collect hmem).name_ne_empty
  exact hquiet haccess hne htype (Rule.unknownMethod?_eq_none hallowed)

/-! ### Namesakes in a catalog -/

/-- A catalog with a built-in type that has one method, and a package that has one function. -/
def shadowed : Catalog where
  types := [⟨.str "Shape", [], "", [⟨"area", [], "Float", "", .str "Shape"⟩]⟩]
  packages := [⟨.str "Math", "", [⟨"twice", [], "Float", "", .str "Math"⟩], []⟩]

/-- A class that shares its name and a method with the built-in type, and a call on a variable. -/
def shadowing : List Char :=
  "class Shape:\ndef area() -> Int:\nend\nend\nvar s: Shape\ns.area()".toList

theorem Ty.eq_simple_of_same {t : Ty} {name : String} (h : t.same (.simple name) = true) :
    t = .simple name := by
  cases t with
  | any => simp [Ty.same] at h
  | union members => simp [Ty.same] at h
  | named n args =>
      cases args with
      | nil => simpa [Ty.same, Ty.sameAll] using h
      | cons u us => simp [Ty.same, Ty.sameAll] at h

/-- The call is not reported, and by the name of the class the method has the type that the class
gives it. -/
theorem class_likes_shadow_catalog_area :
    let a := ofText shadowing none shadowed
    ∃ d, a.table.member? "Shape" "area" = some d ∧
      (∃ t, shadowed.methodType? (.simple "Shape") "area" = some t ∧
        a.methodType (.simple "Shape") "area" = pure t) ∧
      a.infer (accessText "Shape" "area") 5 = a.declarationType d ∧
      ∃ diagnostics memo', (Rule.unknownMember.run ⟨a, {}⟩).after {} = (.ok diagnostics, memo') ∧
        ∀ diagnostic ∈ diagnostics, diagnostic.range ≠ ⟨5, 2, 6⟩ := by
  intro a
  have hshape : ((a.visible? "Shape" 5).map Declaration.kind,
      (a.table.classLike? "Shape").map Declaration.form,
      (a.table.member? "Shape" "area").map Declaration.form) =
        (some .classLike, some .classType, some .function) := by decide +kernel
  simp only [Prod.mk.injEq, Option.map_eq_some_iff] at hshape
  obtain ⟨⟨c, hc, hkind⟩, ⟨k, hk, hclass⟩, d, hd, hform⟩ := hshape
  obtain ⟨v, hv, hvariable, hdeclared⟩ : ∃ v, a.visible? "s" 5 = some v ∧ v.isVariable = true ∧
      v.declaredType = some (.simple "Shape") := by
    have hfound : (a.visible? "s" 5).any (fun v => v.isVariable &&
        v.declaredType.any (·.same (.simple "Shape"))) = true := by decide +kernel
    simp only [Option.any_eq_true, Bool.and_eq_true] at hfound
    obtain ⟨v, hv, hvariable, t, ht, hsame⟩ := hfound
    exact ⟨v, hv, hvariable, Ty.eq_simple_of_same hsame ▸ ht⟩
  have htype (memo : Memo) : ((a.declarationType v).after memo).1 = .ok (.named "Shape" []) := by
    rw [declarationType, declarationTypeIn, declarationTypeBy, hdeclared]
    rfl
  obtain ⟨s, haccess⟩ : ∃ s, Rule.IsAccess a 5 s v ⟨.identifier, "area", 5, 2, true⟩ := by
    have hspot : (Rule.documentSpots a.document).any (fun p => p.1 == 5 &&
        p.2.token.isSymbol "." && p.2.previous?.any (·.text == "s") &&
        p.2.next? == some ⟨.identifier, "area", 5, 2, true⟩) = true := by decide +kernel
    simp only [List.any_eq_true, Bool.and_eq_true, beq_iff_eq, Option.any_eq_true] at hspot
    obtain ⟨⟨n, s⟩, hmem, ⟨⟨rfl, hdot⟩, token, hprevious, hs⟩, hnext⟩ := hspot
    exact ⟨s, hmem, hdot, ⟨token, hprevious, hs ▸ hv⟩, hvariable, hnext⟩
  obtain ⟨t, ht⟩ : ∃ t, shadowed.methodType? (.simple "Shape") "area" = some t :=
    Option.isSome_iff_exists.1 (by decide +kernel)
  obtain ⟨hmethod, hinfer, hrule⟩ :=
    class_likes_shadow_catalog shadowing none shadowed hc hkind hd (by simp [hform])
  obtain ⟨diagnostics, memo', hrun, hquiet⟩ := hrule {} {} Memo.wellTyped_empty
  refine ⟨d, hd, ⟨t, ht, ?_⟩, ?_, diagnostics, memo', hrun, ?_⟩
  · rw [hmethod [], ht]
  · refine hinfer (by decide +kernel) (by decide +kernel) ?_ (by simp [hform])
    rintro ⟨klass, hklass, henum, -⟩
    obtain rfl := Option.some.inj (hk.symm.trans hklass)
    simp [hclass] at henum
  · exact hquiet haccess rfl (htype memo') fun _ => .inl (by decide +kernel)

/-- Where something else comes before the members of a class-like. -/
theorem class_likes_do_not_always_shadow :
    let read (text : String) := ofText text.toList none shadowed
    let shown (x : Infer Ty) := x.answer.toOption.map Ty.render
    let own (a : Analysis) (owner member : String) := ((a.visible? owner 0).map Declaration.kind,
      (a.table.member? owner member).map fun d => (d.form, shown (a.declarationType d)))
    let shape := read "class Shape:\ndef area() -> Int:\nend\nend"
    let grown := read "class Shape:\ndef grow() -> Int:\nend\nend\nvar s: Shape\ns.grow()"
    let math := read "class Math:\ndef twice() -> Int:\nend\nend"
    let color := read "enum Color\nRED\ndef size() -> String:\nend\nend"
    let records := read "record out(port: Int)\nend\nrecord Pair(éinstanceof)\nend"
    -- A built-in type has the method.
    (own shape "Shape" "area" = (some .classLike, some (.function, some "Int")) ∧
      shown (shape.methodType (.simple "Shape") "area") = some "Float") ∧
    -- A built-in type of that name lacks the method.
    (own grown "Shape" "grow" = (some .classLike, some (.function, some "Int")) ∧
      (grown.visible? "s" 5).map (fun v => (v.isVariable, shown (grown.declarationType v))) =
        some (true, some "Shape") ∧
      (Rule.unknownMember.run ⟨grown, {}⟩).answer.toOption.map (·.map Diagnostic.range) =
        some [⟨5, 2, 6⟩]) ∧
    -- The name is that of a package.
    (own math "Math" "twice" = (some .classLike, some (.function, some "Int")) ∧
      shown (math.infer (accessText "Math" "twice") 0) = some "Float") ∧
    -- Every enumeration has the function.
    (own color "Color" "size" = (some .classLike, some (.function, some "String")) ∧
      shown (color.infer (accessText "Color" "size") 0) = some "Int") ∧
    -- The name is a reserved word.
    (own records "out" "port" = (some .classLike, some (.component, some "Int")) ∧
      shown (records.infer (accessText "out" "port") 0) = some "Any") ∧
    -- The name of the component is two tokens, the second of them an operator.
    (own records "Pair" "éinstanceof" = (some .classLike, some (.component, some "Any")) ∧
      shown (records.infer (accessText "Pair" "éinstanceof") 0) = some "Bool") := by
  intro read shown own shape grown math color records
  refine ⟨?_, ?_, ?_, ?_, ?_, ?_⟩
  all_goals decide +kernel

end Analysis

end Polyloft
