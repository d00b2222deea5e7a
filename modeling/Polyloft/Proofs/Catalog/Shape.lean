import Polyloft.Catalog.Reader

/-!
# Polyloft.Proofs.Catalog.Shape

Which data is a catalog. `Catalog.WellShaped` says what has to be an object, a list or an entry with
a name; what is absent or empty is fine everywhere, and so is every other field. Data of this shape
is read, other data is refused, and a name that is listed twice stands for its last entry.

What becomes text has to be writable as well. A whole number with too many digits is not, and then
reading may stop at it with an error of its own.

## Proof shape

Readers check and take apart at once. `Catalog.Reads` keeps the two apart: what a reader gives is
told by a function that checks nothing (`catalogOf` and the others), and whether it gives that is
told by a shape. Readers are put together by sequencing and by going through a list, and shapes are
put together in the same way (`Reads.bind`, `Reads.mapM`).
-/

namespace Polyloft

/-- The error tells of data of the wrong shape. -/
def CatalogError.IsShape : CatalogError → Prop
  | .rootNotMapping | .notMapping _ | .notList _ => True
  | .functionWithoutName _ | .constantWithoutName _ | .paramsNotList _ => True
  | .unreadable _ | .invalidYaml | .noSuchValue | .outOfRange | .numberTooLong => False

namespace Catalog

/-! ### Shapes -/

/-- The field is a list, if it is given. -/
def ListIfGiven (data : Value) (key : String) : Prop :=
  ∀ v, givenField? data key = some v → ∃ items, v = .list items

/-- The field is an object, if it is given. -/
def ObjectIfGiven (data : Value) (key : String) : Prop :=
  ∀ v, givenField? data key = some v → ∃ fields, v = .object fields

/-- The items of a list field. -/
def itemsOf (data : Value) (key : String) : List Value :=
  match givenField? data key with
  | some (.list items) => items
  | _ => []

/-- The fields of an object field. -/
def fieldsOf (data : Value) (key : String) : List (Scalar × Value) :=
  match givenField? data key with
  | some (.object fields) => fields
  | _ => []

/-- An object with a name; nothing else has fields. -/
def IsNamed (v : Value) : Prop :=
  (v.get? "name").isSome = true

/-- A list of functions, if it is given. -/
structure FunctionsShaped (data : Value) (key : String) : Prop where
  list : ListIfGiven data key
  named : ∀ f ∈ itemsOf data key, IsNamed f ∧ ListIfGiven f "params"

/-- A package. -/
structure PackageShaped (v : Value) : Prop where
  object : ∃ fields, v = .object fields
  functions : FunctionsShaped v "functions"
  constants : ListIfGiven v "constants"
  named : ∀ c ∈ itemsOf v "constants", IsNamed c

/-- A built-in type. -/
structure TypeShaped (v : Value) : Prop where
  object : ∃ fields, v = .object fields
  methods : FunctionsShaped v "methods"
  params : ListIfGiven v "params"

/-- A catalog. -/
structure WellShaped (data : Value) : Prop where
  object : ∃ fields, data = .object fields
  keywords : ObjectIfGiven data "keywords"
  typeNames : ListIfGiven data "types"
  globals : FunctionsShaped data "globals"
  packages : ObjectIfGiven data "packages"
  package : ∀ f ∈ fieldsOf data "packages", PackageShaped f.2
  types : ObjectIfGiven data "classes"
  type : ∀ f ∈ fieldsOf data "classes", TypeShaped f.2

/-! ### Contents -/

/-- A field as text. -/
def textOf (data : Value) (key dflt : String) : String :=
  ((data.get? key).map Value.text).getD dflt

/-- The function that an entry describes. -/
def functionOf (owner : Scalar) (v : Value) : CatalogFunction where
  name := textOf v "name" ""
  params := Parameter.parseList (", ".intercalate ((itemsOf v "params").map Value.text)).toList 0
  returns := textOf v "returns" "Void"
  description := textOf v "description" ""
  owner := owner

/-- The constant that an entry describes. -/
def constantOf (owner : Scalar) (v : Value) : CatalogConstant where
  name := textOf v "name" ""
  type := textOf v "type" "Any"
  value := textOf v "value" ""
  description := textOf v "description" ""
  owner := owner

/-- The functions that a list describes. -/
def functionsOf (owner : Scalar) (data : Value) (key : String) : List CatalogFunction :=
  lastByName CatalogFunction.name ((itemsOf data key).map (functionOf owner))

/-- The package that a field describes. -/
def packageOf (field : Scalar × Value) : CatalogPackage where
  name := field.1
  description := textOf field.2 "description" ""
  functions := functionsOf field.1 field.2 "functions"
  constants :=
    lastByName CatalogConstant.name ((itemsOf field.2 "constants").map (constantOf field.1))

/-- The built-in type that a field describes. -/
def typeOf (field : Scalar × Value) : CatalogType where
  name := field.1
  typeParams := (itemsOf field.2 "params").map Value.text
  description := textOf field.2 "description" ""
  methods := functionsOf field.1 field.2 "methods"

/-- The catalog that data describes. -/
def catalogOf (data : Value) : Catalog where
  keywords := collectFields (· == ·)
    ((fieldsOf data "keywords").map fun k => (k.1.text, k.2.text))
  typeNames := (itemsOf data "types").map Value.text
  globals := functionsOf .null data "globals"
  packages := (fieldsOf data "packages").map packageOf
  types := (fieldsOf data "classes").map typeOf

/-! ### Readers -/

/-- What a reader does: it gives a value from data of the right shape, and tells of the shape
otherwise; unless it comes first to what cannot be written. -/
inductive Reads {α : Type} (shaped writable : Prop) (a : α) : Except CatalogError α → Prop where
  | ok (h : shaped) : Reads shaped writable a (.ok a)
  | misshaped {e : CatalogError} (he : e.IsShape) (h : ¬shaped) :
      Reads shaped writable a (.error e)
  | unwritable (h : ¬writable) : Reads shaped writable a (.error .numberTooLong)

namespace Reads

variable {α β : Type} {S S' W W' : Prop} {a : α} {b : β} {x : Except CatalogError α}
  {f : α → Except CatalogError β}

theorem mono (h : Reads S W a x) (hwritable : W' → W) : Reads S W' a x := by
  cases h with
  | ok h => exact .ok h
  | misshaped he h => exact .misshaped he h
  | unwritable h => exact .unwritable fun hW => h (hwritable hW)

theorem congr (h : Reads S W a x) (hshaped : S ↔ S') : Reads S' W a x := by
  rwa [← hshaped]

/-- One reader after the other. -/
theorem bind (h : Reads S W a x) (hf : Reads S' W b (f a)) : Reads (S ∧ S') W b (x >>= f) := by
  cases h with
  | misshaped he h => exact .misshaped he fun hboth => h hboth.1
  | unwritable h => exact .unwritable h
  | ok h =>
      have hboth : S' ↔ S ∧ S' := ⟨fun hS' => ⟨h, hS'⟩, And.right⟩
      exact hf.congr hboth

/-- Where the first reader takes data of every shape. -/
theorem bind_plain (h : Reads True W a x) (hf : Reads S W b (f a)) : Reads S W b (x >>= f) :=
  (h.bind hf).congr (iff_of_eq (true_and S))

/-- What is read goes into the result. -/
theorem bind_pure (h : Reads S W a x) (g : α → β) :
    Reads S W (g a) (x >>= fun y => pure (g y)) := by
  have hpure : Reads True W (g a) (pure (g a)) := .ok trivial
  exact (h.bind (f := fun y => pure (g y)) hpure).congr (iff_of_eq (and_true S))

theorem mapM {items : List β} {shape : β → Prop} {g : β → α} {f : β → Except CatalogError α}
    (h : ∀ v ∈ items, Reads (shape v) W (g v) (f v)) :
    Reads (∀ v ∈ items, shape v) W (items.map g) (items.mapM f) := by
  induction items with
  | nil => exact .ok (by simp)
  | cons v items ih =>
      rw [List.forall_mem_cons] at h
      rw [List.mapM_cons, List.map_cons]
      exact (h.1.bind ((ih h.2).bind_pure (g v :: ·))).congr List.forall_mem_cons.symm

end Reads

/-! ### Writing -/

theorem areWritable_iff (items : List Value) :
    Value.areWritable items = true ↔ ∀ v ∈ items, v.isWritable = true := by
  induction items with
  | nil => simp [Value.areWritable]
  | cons v items ih => rw [Value.areWritable, Bool.and_eq_true, ih, List.forall_mem_cons]

theorem areFieldsWritable_iff (fields : List (Scalar × Value)) :
    Value.areFieldsWritable fields = true ↔
      ∀ f ∈ fields, f.1.isWritable = true ∧ f.2.isWritable = true := by
  induction fields with
  | nil => simp [Value.areFieldsWritable]
  | cons f fields ih =>
      rw [Value.areFieldsWritable, Bool.and_eq_true, Bool.and_eq_true, ih, List.forall_mem_cons]

section

variable {data v : Value} {key : String} (hdata : data.isWritable = true)
include hdata

/-- What can be written has fields that can be. -/
theorem isWritable_of_get? (h : data.get? key = some v) : v.isWritable = true := by
  unfold Value.get? at h
  split at h
  · rw [Value.isWritable, areFieldsWritable_iff] at hdata
    obtain ⟨before, after, rfl, -⟩ := List.lookup_eq_some_iff.1 h
    exact (hdata (.str key, v) (by simp)).2
  · simp at h

theorem isWritable_of_givenField? (h : givenField? data key = some v) : v.isWritable = true :=
  isWritable_of_get? hdata (Option.filter_eq_some_iff.1 h).1

theorem isWritable_of_mem_itemsOf (hv : v ∈ itemsOf data key) : v.isWritable = true := by
  unfold itemsOf at hv
  split at hv
  · rename_i items hgiven
    have hitems := isWritable_of_givenField? hdata hgiven
    rw [Value.isWritable, areWritable_iff] at hitems
    exact hitems v hv
  · simp at hv

theorem isWritable_of_mem_fieldsOf {f : Scalar × Value} (hf : f ∈ fieldsOf data key) :
    f.1.isWritable = true ∧ f.2.isWritable = true := by
  unfold fieldsOf at hf
  split at hf
  · rename_i fields hgiven
    have hfields := isWritable_of_givenField? hdata hgiven
    rw [Value.isWritable, areFieldsWritable_iff] at hfields
    exact hfields f hf
  · simp at hf

end

/-! ### Reading -/

theorem reads_readText (v : Value) : Reads True (v.isWritable = true) v.text (readText v) := by
  unfold readText
  split
  · exact .ok trivial
  · exact .unwritable ‹_›

theorem reads_textField (data : Value) (key dflt : String) :
    Reads True (data.isWritable = true) (textOf data key dflt) (textField data key dflt) := by
  unfold textOf textField
  cases h : data.get? key with
  | none => exact .ok trivial
  | some v => exact (reads_readText v).mono fun hdata => isWritable_of_get? hdata h

theorem reads_listField (data : Value) (key entry : String) {W : Prop} :
    Reads (ListIfGiven data key) W (itemsOf data key) (listField data key entry) := by
  unfold ListIfGiven itemsOf listField
  cases givenField? data key with
  | none => exact .ok (by simp)
  | some v =>
      cases v with
      | list items => exact .ok (by simp)
      | scalar s => exact .misshaped trivial (by simp)
      | object fields => exact .misshaped trivial (by simp)

theorem reads_objectField (data : Value) (key entry : String) {W : Prop} :
    Reads (ObjectIfGiven data key) W (fieldsOf data key) (objectField data key entry) := by
  unfold ObjectIfGiven fieldsOf objectField
  cases givenField? data key with
  | none => exact .ok (by simp)
  | some v =>
      cases v with
      | object fields => exact .ok (by simp)
      | scalar s => exact .misshaped trivial (by simp)
      | list items => exact .misshaped trivial (by simp)

/-- Items that become texts may have any shape. -/
theorem reads_mapM_readText (data : Value) (key : String) :
    Reads True (data.isWritable = true) ((itemsOf data key).map Value.text)
      ((itemsOf data key).mapM readText) := by
  have htexts : Reads (∀ v ∈ itemsOf data key, True) (data.isWritable = true)
      ((itemsOf data key).map Value.text) ((itemsOf data key).mapM readText) :=
    .mapM fun v hv => (reads_readText v).mono fun hdata => isWritable_of_mem_itemsOf hdata hv
  exact htexts.congr (by simp)

/-- What is left to read of a function once its name and its parameters are there. -/
theorem reads_functionParts (owner : Scalar) (v : Value) :
    Reads True (v.isWritable = true) (functionOf owner v) (do
      let params ← (itemsOf v "params").mapM readText
      let returns ← textField v "returns" "Void"
      let description ← textField v "description" ""
      return {
        name := textOf v "name" ""
        params := Parameter.parseList (", ".intercalate params).toList 0
        returns
        description
        owner }) := by
  refine (reads_mapM_readText v "params").bind_plain ?_
  refine (reads_textField v "returns" "Void").bind_plain ?_
  exact (reads_textField v "description" "").bind_pure fun description =>
    { functionOf owner v with description }

theorem reads_readFunction (owner : Scalar) (entry : String) (v : Value) :
    Reads (IsNamed v ∧ ListIfGiven v "params") (v.isWritable = true) (functionOf owner v)
      (readFunction owner entry v) := by
  unfold readFunction
  cases hname : v.get? "name" with
  | none => exact .misshaped trivial fun h => by simp [IsNamed, hname] at h
  | some name =>
      have hnamed : IsNamed v := by simp [IsNamed, hname]
      have htext : textOf v "name" "" = name.text := by simp [textOf, hname]
      have hparts := reads_functionParts owner v
      rw [htext] at hparts
      refine ((reads_readText name).mono fun hv => isWritable_of_get? hv hname).bind_plain ?_
      unfold itemsOf at hparts
      unfold ListIfGiven
      cases hgiven : givenField? v "params" with
      | none =>
          rw [hgiven] at hparts
          exact hparts.congr (by simp [hnamed])
      | some given =>
          rw [hgiven] at hparts
          cases given with
          | list items => exact hparts.congr (by simp [hnamed])
          | scalar s => exact .misshaped trivial (by simp)
          | object fields => exact .misshaped trivial (by simp)

theorem reads_readConstant (owner : Scalar) (entry : String) (v : Value) :
    Reads (IsNamed v) (v.isWritable = true) (constantOf owner v) (readConstant owner entry v) := by
  unfold readConstant
  cases hname : v.get? "name" with
  | none => exact .misshaped trivial fun h => by simp [IsNamed, hname] at h
  | some name =>
      have hnamed : True ↔ IsNamed v := by simp [IsNamed, hname]
      have htext : textOf v "name" "" = name.text := by simp [textOf, hname]
      refine ((reads_readText name).mono fun hv => isWritable_of_get? hv hname).bind_plain ?_
      refine (reads_textField v "type" "Any").bind_plain ?_
      refine (reads_textField v "value" "").bind_plain ?_
      rw [← htext]
      exact ((reads_textField v "description" "").bind_pure fun description =>
        { constantOf owner v with description }).congr hnamed

theorem reads_readFunctions (owner : Scalar) (entry : String) (data : Value) (key : String) :
    Reads (FunctionsShaped data key) (data.isWritable = true) (functionsOf owner data key)
      (readFunctions owner entry data key) := by
  have hfunctions : Reads (∀ v ∈ itemsOf data key, IsNamed v ∧ ListIfGiven v "params")
      (data.isWritable = true) ((itemsOf data key).map (functionOf owner))
      ((itemsOf data key).mapM (readFunction owner entry)) :=
    .mapM fun v hv =>
      (reads_readFunction owner entry v).mono fun hdata => isWritable_of_mem_itemsOf hdata hv
  refine ((reads_listField data key entry).bind
    (hfunctions.bind_pure (lastByName CatalogFunction.name))).congr ?_
  exact ⟨fun h => ⟨h.1, h.2⟩, fun h => ⟨h.list, h.named⟩⟩

theorem reads_constants (owner : Scalar) (entry : String) (v : Value) :
    Reads (∀ c ∈ itemsOf v "constants", IsNamed c) (v.isWritable = true)
      ((itemsOf v "constants").map (constantOf owner))
      ((itemsOf v "constants").mapM (readConstant owner entry)) :=
  .mapM fun c hc =>
    (reads_readConstant owner entry c).mono fun hv => isWritable_of_mem_itemsOf hv hc

theorem reads_readPackage (name : Scalar) (v : Value) :
    Reads (PackageShaped v) (name.isWritable = true ∧ v.isWritable = true) (packageOf (name, v))
      (readPackage name v) := by
  unfold readPackage
  refine ((reads_readText (.scalar name)).mono And.left).bind_plain ?_
  cases v with
  | scalar s => exact .misshaped trivial fun h => by simpa using h.object
  | list items => exact .misshaped trivial fun h => by simpa using h.object
  | object fields =>
      dsimp only
      generalize hv : Value.object fields = v
      have hshape : FunctionsShaped v "functions" ∧ ListIfGiven v "constants" ∧
          (∀ c ∈ itemsOf v "constants", IsNamed c) ∧ True ↔ PackageShaped v :=
        ⟨fun h => ⟨⟨fields, hv.symm⟩, h.1, h.2.1, h.2.2.1⟩,
          fun h => ⟨h.functions, h.constants, h.named, trivial⟩⟩
      refine (Reads.congr ?_ hshape).mono And.right
      refine (reads_readFunctions name _ v "functions").bind ?_
      refine (reads_listField v "constants" _).bind ?_
      refine (reads_constants name _ v).bind ?_
      exact (reads_textField v "description" "").bind_pure fun description =>
        { packageOf (name, v) with description }

theorem reads_readType (name : Scalar) (v : Value) :
    Reads (TypeShaped v) (name.isWritable = true ∧ v.isWritable = true) (typeOf (name, v))
      (readType name v) := by
  unfold readType
  refine ((reads_readText (.scalar name)).mono And.left).bind_plain ?_
  cases v with
  | scalar s => exact .misshaped trivial fun h => by simpa using h.object
  | list items => exact .misshaped trivial fun h => by simpa using h.object
  | object fields =>
      dsimp only
      generalize hv : Value.object fields = v
      have hshape : FunctionsShaped v "methods" ∧ ListIfGiven v "params" ∧ True ↔ TypeShaped v :=
        ⟨fun h => ⟨⟨fields, hv.symm⟩, h.1, h.2.1⟩, fun h => ⟨h.methods, h.params, trivial⟩⟩
      refine (Reads.congr ?_ hshape).mono And.right
      refine (reads_readFunctions name _ v "methods").bind ?_
      refine (reads_listField v "params" _).bind ?_
      refine (reads_mapM_readText v "params").bind_plain ?_
      exact (reads_textField v "description" "").bind_pure fun description =>
        { typeOf (name, v) with description }

theorem reads_readKeyword (name : Scalar) (v : Value) :
    Reads True (name.isWritable = true ∧ v.isWritable = true) (name.text, v.text)
      (readKeyword name v) :=
  ((reads_readText (.scalar name)).mono And.left).bind_plain
    (((reads_readText v).mono And.right).bind_pure fun text => (name.text, text))

/-- Every field of an object is read. -/
theorem reads_fields {α : Type} {shape : Value → Prop} {g : Scalar × Value → α}
    {f : Scalar → Value → Except CatalogError α} (data : Value) (key : String)
    (h : ∀ name v, Reads (shape v) (name.isWritable = true ∧ v.isWritable = true) (g (name, v))
      (f name v)) :
    Reads (∀ field ∈ fieldsOf data key, shape field.2) (data.isWritable = true)
      ((fieldsOf data key).map g) ((fieldsOf data key).mapM fun field => f field.1 field.2) :=
  .mapM fun field hfield =>
    (h field.1 field.2).mono fun hdata => isWritable_of_mem_fieldsOf hdata hfield

/-- Reading a catalog gives what is written in it, or tells of its shape. -/
theorem reads_ofValue (data : Value) :
    Reads (WellShaped data) (data.isWritable = true) (catalogOf data) (ofValue data) := by
  unfold ofValue
  cases data with
  | scalar s => exact .misshaped trivial fun h => by simpa using h.object
  | list items => exact .misshaped trivial fun h => by simpa using h.object
  | object fields =>
      dsimp only
      generalize hdata : Value.object fields = data
      have hkeywords : Reads True (data.isWritable = true)
          ((fieldsOf data "keywords").map fun k => (k.1.text, k.2.text))
          ((fieldsOf data "keywords").mapM fun k => readKeyword k.1 k.2) :=
        (reads_fields data "keywords" reads_readKeyword).congr (by simp)
      have hshape : ObjectIfGiven data "keywords" ∧ ListIfGiven data "types" ∧
          FunctionsShaped data "globals" ∧ ObjectIfGiven data "packages" ∧
          (∀ f ∈ fieldsOf data "packages", PackageShaped f.2) ∧ ObjectIfGiven data "classes" ∧
          (∀ f ∈ fieldsOf data "classes", TypeShaped f.2) ∧ True ↔ WellShaped data := by
        constructor
        · rintro ⟨hkeywords, htypeNames, hglobals, hpackages, hpackage, htypes, htype, -⟩
          exact ⟨⟨fields, hdata.symm⟩, hkeywords, htypeNames, hglobals, hpackages, hpackage, htypes,
            htype⟩
        · exact fun h => ⟨h.keywords, h.typeNames, h.globals, h.packages, h.package, h.types,
            h.type, trivial⟩
      refine Reads.congr ?_ hshape
      refine (reads_objectField data "keywords" _).bind ?_
      refine (reads_listField data "types" _).bind ?_
      refine (reads_readFunctions .null _ data "globals").bind ?_
      refine (reads_objectField data "packages" _).bind ?_
      refine (reads_fields data "packages" reads_readPackage).bind ?_
      refine (reads_objectField data "classes" _).bind ?_
      refine (reads_fields data "classes" reads_readType).bind ?_
      refine hkeywords.bind_plain ?_
      exact (reads_mapM_readText data "types").bind_pure fun typeNames =>
        { catalogOf data with typeNames }

end Catalog

end Polyloft
