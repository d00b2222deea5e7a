import Polyloft.Proofs.Inference.Plain
import Polyloft.Query.Definition
import Polyloft.Query.Hover

/-!
# Polyloft.Proofs.Query.Agreement

Hover and go-to-definition point to one place. Asked about the same position they agree, member or
not, with one exception that comes from the order in which they look: hover prefers a function or
class-like of the document, wherever it stands, and what an imported module declares, to a visible
variable of the name, while go-to-definition takes the visible variable first.

## Proof shape

Where hover points is followed through the results that it returns (`Infer.Ensures`): nothing from
the catalog has a place, and a declaration has its own. For a member both queries infer the type of
the receiver from the same memo and walk over the same types. For any other word both places are
plain look-ups, `Analysis.preferredPlace?` and `Analysis.plainDefinition?`, and the cases are those
of the visible declaration.
-/

namespace Polyloft

open Infer

namespace Analysis

variable (a : Analysis)

/-! ### Where hover points -/

/-- Where an imported word is declared, if its module declares it. -/
def importedPlace? (word : String) (resolver : Resolver) : Option Location :=
  (a.imported? word resolver).bind fun i =>
    i.declaration.map fun d => ⟨some i.uri, d.line, d.column⟩

/-- What hover prefers to a visible variable: the place of a function or class-like of the document,
or else of the declaration in an imported module. -/
def preferredPlace? (word : String) (line : Int) (resolver : Resolver) : Option Location :=
  ((a.topLevel? word line).map a.locationOf).or (a.importedPlace? word resolver)

/-- Where the queries part: a word that is no member and means a variable on its line, but is also
declared where hover looks first. The places of the variable and of the other declaration. -/
def parting? (position : Position) (resolver : Resolver) : Option (Location × Location) :=
  (a.queriedWord? position none).bind fun (word, start) =>
    if (a.document.receiverAt? position.line start).isSome then none
    else
      ((a.visible? word position.line).filter (·.isVariable)).bind fun v =>
        (a.preferredPlace? word position.line resolver).map fun place => (a.locationOf v, place)

variable {a}

/-- If a hover has a place, it is `place?`. -/
def PointsTo (place? : Option Location) (shown? : Option Hover) : Prop :=
  ∀ shown, shown? = some shown → ∀ place, shown.location = some place → place? = some place

theorem pointsTo_none (place? : Option Location) : PointsTo place? none := by
  intro shown h
  simp at h

theorem pointsTo_of_no_location {place? : Option Location} {shown : Hover}
    (h : shown.location = none) : PointsTo place? (some shown) := by
  intro shown' heq place hplace
  obtain rfl := Option.some.inj heq
  rw [h] at hplace
  simp at hplace

theorem pointsTo_of_location {place? : Option Location} {shown : Hover}
    (h : shown.location = place?) : PointsTo place? (some shown) := by
  intro shown' heq place hplace
  obtain rfl := Option.some.inj heq
  rw [← h, hplace]

theorem PointsTo.or {place? : Option Location} {shown? : Option Hover} (h : PointsTo place? shown?)
    (other : Option Location) : PointsTo (place?.or other) shown? := by
  intro shown hshown place hplace
  rw [h shown hshown place hplace]
  rfl

theorem ensures_declarationHover (d : Declaration) :
    Ensures (fun shown => shown.location = some (a.locationOf d)) (a.declarationHover d) :=
  .bind (.trivial _) fun _ _ => .bind (.trivial _) fun _ _ => .pure rfl

theorem ensures_some_declarationHover (d : Declaration) :
    Ensures (fun shown? => PointsTo (some (a.locationOf d)) shown? ∧ shown? ≠ none)
      (some <$> a.declarationHover d) :=
  .bind (ensures_declarationHover d) fun _ h => .pure ⟨pointsTo_of_location h, by simp⟩

/-! ### Members -/

/-- The declaration that go-to-definition finds for a member, if there is no fault. -/
def memberPlace? (a : Analysis) (word : String) (types : List Ty) : Option Location :=
  (a.memberOf? word types).toOption.join.map a.locationOf

theorem memberPlace?_named (word name : String) (args types : List Ty) :
    a.memberPlace? word (.named name args :: types) =
      ((a.table.inheritedMember? name word).map a.locationOf).or (a.memberPlace? word types) := by
  unfold memberPlace?
  rw [memberOf?]
  cases a.table.inheritedMember? name word <;> rfl

/-- Hover goes on to the next type only where the type declares no such member. -/
theorem ensures_namedMemberHover (type : Ty) (name word : String) :
    Ensures (fun shown? => PointsTo ((a.table.inheritedMember? name word).map a.locationOf) shown? ∧
      (shown? = none → a.table.inheritedMember? name word = none))
      (a.namedMemberHover type name word) := by
  unfold namedMemberHover
  split
  · exact .pure ⟨pointsTo_of_no_location rfl, by simp⟩
  · split
    · rename_i d hd
      rw [hd]
      exact (ensures_some_declarationHover d).mono fun _ h => ⟨h.1, fun hnone => absurd hnone h.2⟩
    · rename_i hnone
      split
      · refine .pure ⟨?_, fun _ => hnone⟩
        intro shown hshown place hplace
        obtain ⟨m, -, rfl⟩ := Option.map_eq_some_iff.1 hshown
        simp at hplace
      · exact .pure ⟨pointsTo_none _, fun _ => hnone⟩

theorem ensures_memberHover (word : String) (types : List Ty) :
    Ensures (PointsTo (a.memberPlace? word types)) (a.memberHover word types) := by
  induction types with
  | nil =>
      refine .pure ?_
      split
      · exact pointsTo_of_no_location rfl
      · exact pointsTo_none _
  | cons t types ih =>
      cases t with
      | any => exact .ofExcept (by simp)
      | union members => exact .ofExcept (by simp)
      | named name args =>
          rw [memberHover]
          refine .bind (ensures_namedMemberHover _ name word) ?_
          rintro (_ | shown) ⟨hpoints, hnone⟩
          · rw [memberPlace?_named, hnone rfl]
            exact ih
          · rw [memberPlace?_named]
            exact .pure (hpoints.or _)

/-- Both queries start from the type of the receiver on the empty memo. -/
theorem receiver_places_agree {receiver : List Token} {word : String} {line : Int} {shown : Hover}
    {place found : Location}
    (hhover : (a.receiverHover receiver word line).answer = .ok (some shown))
    (hplace : shown.location = some place)
    (hdefinition : (do
      let type ← a.inferTokens receiver line
      let member ← Infer.ofExcept (a.memberOf? word type.alternatives)
      pure (member.map a.locationOf) : Infer (Option Location)).answer = .ok (some found)) :
    place = found := by
  unfold receiverHover at hhover
  split at hhover
  · -- A member of a package has no place.
    obtain ⟨m, -, rfl⟩ := Option.map_eq_some_iff.1 (Except.ok.inj hhover)
    simp at hplace
  · unfold Infer.answer at hhover hdefinition
    rcases hafter : (a.inferTokens receiver line).after {} with ⟨_ | type, memo⟩
    · rw [after_bind_error hafter] at hhover
      simp at hhover
    · rw [after_bind_ok hafter] at hhover hdefinition
      have hpoints : a.memberPlace? word type.alternatives = some place :=
        ensures_memberHover word type.alternatives memo (some shown) _
          (Prod.ext hhover rfl) shown rfl place hplace
      have hfound : a.memberPlace? word type.alternatives = some found := by
        unfold memberPlace?
        cases hmember : a.memberOf? word type.alternatives with
        | error e =>
            rw [hmember, after_bind_error (after_ofExcept _ memo)] at hdefinition
            simp at hdefinition
        | ok member =>
            rw [hmember, after_bind_ok (after_ofExcept _ memo)] at hdefinition
            exact Except.ok.inj hdefinition
      exact Option.some.inj (hpoints.symm.trans hfound)

/-! ### Other words -/

/-- The module of an imported word is known by the name under which it was found. -/
theorem uri_of_imported? {word : String} {resolver : Resolver} {i : ImportedDeclaration}
    (h : a.imported? word resolver = some i) : i.module.document.uri = some i.uri := by
  obtain ⟨symbol, -, h⟩ := Option.bind_eq_some_iff.1 h
  obtain ⟨source, -, rfl⟩ := Option.map_eq_some_iff.1 h
  rfl

theorem pointsTo_of_importedHover? {word : String} {resolver : Resolver} {shown? : Option Hover}
    (h : a.importedHover? word resolver = .ok shown?) :
    PointsTo (a.importedPlace? word resolver) shown? ∧
      (shown? = none → a.importedPlace? word resolver = none) := by
  unfold importedHover? at h
  unfold importedPlace?
  split at h
  · rename_i hnone
    obtain rfl := Except.ok.inj h
    exact ⟨pointsTo_none _, fun _ => by rw [hnone]; rfl⟩
  · rename_i i hi
    rw [hi, Option.bind_some]
    split at h
    · rename_i hnone
      obtain rfl := Except.ok.inj h
      exact ⟨pointsTo_none _, fun _ => by rw [hnone]; rfl⟩
    · rename_i d hd
      rw [hd, Option.map_some]
      cases hanswer : (i.module.declarationHover d).answer with
      | error e =>
          rw [hanswer] at h
          simp [Functor.map, Except.map] at h
      | ok shown =>
          rw [hanswer] at h
          obtain rfl := Except.ok.inj h
          have hlocation : shown.location = some (i.module.locationOf d) :=
            ensures_declarationHover d {} shown _ (Prod.ext hanswer rfl)
          rw [locationOf, uri_of_imported? hi] at hlocation
          exact ⟨pointsTo_of_location hlocation, by simp⟩

theorem ensures_plainHover (word : String) (line : Int) (resolver : Resolver) :
    Ensures (PointsTo ((a.preferredPlace? word line resolver).or
      ((a.visible? word line).map a.locationOf))) (a.plainHover word line resolver) := by
  unfold plainHover preferredPlace?
  split
  · rename_i shown hshown
    obtain ⟨doc, -, rfl⟩ := Option.map_eq_some_iff.1 hshown
    exact .pure (pointsTo_of_no_location rfl)
  · split
    · rename_i shown hshown
      obtain ⟨f, -, hshown⟩ := Option.bind_eq_some_iff.1 hshown
      split at hshown
      · obtain rfl := Option.some.inj hshown
        exact .pure (pointsTo_of_no_location rfl)
      · simp at hshown
    · split
      · rename_i d hd
        rw [hd]
        exact (ensures_some_declarationHover d).mono fun _ h => h.1
      · rename_i hnone
        rw [hnone, Option.map_none, Option.none_or]
        refine .bind (.ofExcept fun _ => pointsTo_of_importedHover?) ?_
        rintro (_ | shown) ⟨hpoints, hundeclared⟩
        · rw [hundeclared rfl, Option.none_or]
          dsimp only
          split
          · rename_i v hv
            rw [hv]
            exact (ensures_some_declarationHover v).mono fun _ h => h.1
          · refine .pure ?_
            unfold typeHover?
            split
            · exact pointsTo_of_no_location rfl
            · split
              · exact pointsTo_of_no_location rfl
              · exact pointsTo_none _
        · exact .pure (hpoints.or _)

/-- The cases of the visible declaration: none, one that is no variable, and a variable. -/
theorem plain_places_agree {word : String} {line : Int} {resolver : Resolver}
    {place found : Location}
    (hplace : (a.preferredPlace? word line resolver).or ((a.visible? word line).map a.locationOf) =
      some place)
    (hfound : a.plainDefinition? word line resolver = some found) :
    match ((a.visible? word line).filter (·.isVariable)).bind fun v =>
        (a.preferredPlace? word line resolver).map fun place => (a.locationOf v, place) with
    | none => place = found
    | some parted => found = parted.1 ∧ place = parted.2 := by
  unfold plainDefinition? at hfound
  cases hvisible : a.visible? word line with
  | none =>
      rw [hvisible] at hplace hfound
      simp only [Option.map_none, Option.or_none, Option.none_or, Option.filter_none,
        Option.bind_none] at hplace hfound ⊢
      unfold preferredPlace? at hplace
      cases htop : a.topLevel? word line with
      | some d =>
          rw [htop] at hplace hfound
          exact (Option.some.inj hplace).symm.trans (Option.some.inj hfound)
      | none =>
          rw [htop, Option.map_none, Option.none_or] at hplace hfound
          obtain ⟨i, hi, hdeclared⟩ := Option.bind_eq_some_iff.1 hplace
          obtain ⟨d, hd, rfl⟩ := Option.map_eq_some_iff.1 hdeclared
          rw [importedLocation?, hi, Option.map_some, hd] at hfound
          exact Option.some.inj hfound
  | some v =>
      rw [hvisible] at hplace hfound
      obtain rfl : a.locationOf v = found := by simpa using hfound
      cases hvariable : v.isVariable with
      | false =>
          have htop : a.topLevel? word line = some v := by
            rw [topLevel?, hvisible]
            simp [Option.filter, hvariable]
          simp only [preferredPlace?, htop] at hplace ⊢
          simp [Option.filter, hvariable] at hplace ⊢
          exact hplace.symm
      | true =>
          simp only [Option.filter, hvariable, if_true, Option.bind_some]
          cases hpreferred : a.preferredPlace? word line resolver with
          | none =>
              rw [hpreferred] at hplace
              exact (Option.some.inj hplace).symm
          | some other =>
              rw [hpreferred] at hplace
              exact ⟨rfl, (Option.some.inj hplace).symm⟩

/-- Asked about one position, each from an empty memo, hover and go-to-definition point to the same
place, unless the word means a variable that hover passes over (`Analysis.parting?`): then
go-to-definition points to the variable and hover to what it prefers. -/
theorem hover_and_definition_agree (a : Analysis) (position : Position) (resolver : Resolver)
    {shown : Hover} {place found : Location}
    (hhover : (a.hover position none resolver).answer = .ok (some shown))
    (hplace : shown.location = some place)
    (hdefinition : (a.definition position none resolver).answer = .ok (some found)) :
    match a.parting? position resolver with
    | none => place = found
    | some parted => found = parted.1 ∧ place = parted.2 := by
  unfold hover at hhover
  unfold definition at hdefinition
  unfold parting?
  cases hword : a.queriedWord? position none with
  | none =>
      rw [hword] at hhover
      exact absurd (Except.ok.inj hhover) (by simp)
  | some queried =>
      obtain ⟨word, start⟩ := queried
      rw [hword] at hhover hdefinition
      dsimp only [Option.bind_some] at hhover hdefinition ⊢
      cases hreceiver : a.document.receiverAt? position.line start with
      | some receiver =>
          rw [hreceiver] at hhover hdefinition
          exact receiver_places_agree hhover hplace hdefinition
      | none =>
          rw [hreceiver] at hhover hdefinition
          have hpoints := ensures_plainHover word position.line resolver {} (some shown) _
            (Prod.ext hhover rfl) shown rfl place hplace
          exact plain_places_agree hpoints (Except.ok.inj hdefinition)

/-! ### A parameter named like a class -/

theorem eq_ok_of_toOption {α : Type} {x : Except Fault α} {answer : α}
    (h : x.toOption = some answer) : x = .ok answer := by
  cases x with
  | error e => simp [Except.toOption] at h
  | ok b => exact congrArg Except.ok (Option.some.inj h)

/-- A parameter that has the name of a class, and a variable that it is assigned to. -/
def namesakes : List Char :=
  "class Foo\nend\ndef f(Foo: Int):\n    var n = Foo\n    return n\nend".toList

/-- On the variable the two queries agree. -/
theorem hover_and_definition_agree_namesakes :
    let a := Analysis.ofText namesakes none {}
    a.parting? ⟨4, 11⟩ .none = none ∧
      ∃ shown place found, (a.hover ⟨4, 11⟩ none .none).answer = .ok (some shown) ∧
        shown.location = some place ∧
        (a.definition ⟨4, 11⟩ none .none).answer = .ok (some found) ∧ place = found := by
  intro a
  have hparting : a.parting? ⟨4, 11⟩ .none = none := by decide +kernel
  have hhover : (a.hover ⟨4, 11⟩ none .none).answer =
      .ok (some ⟨"var n: Int", none, some ⟨none, 3, 8⟩⟩) :=
    eq_ok_of_toOption (by decide +kernel)
  have hdefinition : (a.definition ⟨4, 11⟩ none .none).answer = .ok (some ⟨none, 3, 8⟩) :=
    eq_ok_of_toOption (by decide +kernel)
  have hagree := hover_and_definition_agree a ⟨4, 11⟩ .none hhover rfl hdefinition
  rw [hparting] at hagree
  exact ⟨hparting, _, _, _, hhover, rfl, hdefinition, hagree⟩

/-- On the parameter hover points to the class that the parameter hides, and go-to-definition to the
parameter. -/
theorem hover_and_definition_differ_namesakes :
    let a := Analysis.ofText namesakes none {}
    (a.hover ⟨3, 12⟩ none .none).answer =
        .ok (some ⟨"class Foo", none, some ⟨none, 0, 6⟩⟩) ∧
      (a.definition ⟨3, 12⟩ none .none).answer = .ok (some ⟨none, 2, 6⟩) :=
  ⟨eq_ok_of_toOption (by decide +kernel), eq_ok_of_toOption (by decide +kernel)⟩

end Analysis

end Polyloft
