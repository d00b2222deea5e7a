import Polyloft.Proofs.Catalog.Json

/-!
# Polyloft.Proofs.Catalog.Lookup

What is found in a catalog that was read from data. A name that is listed twice is found as its last
entry, whatever it was written as; a package has functions before constants. Together with the shape
of the data this says when a catalog is read and what it then answers.

## Proof shape

A list with one entry for each name is made by setting fields, and of the fields with one name the
first from the end is the one that counts (`lookup_collectFields`). Entries stand under their own
names in both lists, so they are found by name alike (`find?_map_snd`).
-/

namespace Polyloft

/-! ### Fields -/

section

variable {α : Type} {fields : List (String × α)}

theorem lookup_setField (fields : List (String × α)) (key k : String) (a : α) :
    (setField (· == ·) fields key a).lookup k = if k == key then some a else fields.lookup k := by
  fun_induction setField (· == ·) fields key a with
  | case1 => cases h : k == key <;> simp [List.lookup_cons, h]
  | case2 f fields hsame =>
      rw [List.lookup_cons, List.lookup_cons, beq_iff_eq.1 hsame]
      cases k == key <;> simp
  | case3 f fields hother ih =>
      rw [List.lookup_cons, List.lookup_cons, ih]
      cases hf : k == f.1 with
      | false => rfl
      | true =>
          -- The name looked for is that of the first field, so it is not the one that is set.
          have hkey : (k == key) = false := by simpa [beq_iff_eq.1 hf] using hother
          rw [hkey]
          rfl

theorem lookup_foldl_setField (fields acc : List (String × α)) (k : String) :
    (fields.foldl (fun acc f => setField (· == ·) acc f.1 f.2) acc).lookup k =
      (fields.reverse.lookup k).or (acc.lookup k) := by
  induction fields generalizing acc with
  | nil => rfl
  | cons f fields ih =>
      rw [List.foldl_cons, ih, lookup_setField, List.reverse_cons, List.lookup_append,
        Option.or_assoc, List.lookup_cons]
      cases k == f.1 <;> rfl

/-- Of fields with one name the last one counts. -/
theorem lookup_collectFields (fields : List (String × α)) (k : String) :
    (collectFields (· == ·) fields).lookup k = fields.reverse.lookup k := by
  rw [collectFields, lookup_foldl_setField, List.lookup_nil, Option.or_none]

theorem mem_of_mem_setField {key : String} {a : α} {f : String × α}
    (h : f ∈ setField (· == ·) fields key a) : f ∈ fields ∨ f = (key, a) := by
  fun_induction setField (· == ·) fields key a with
  | case1 => exact .inr (List.mem_singleton.1 h)
  | case2 g fields hsame =>
      rcases List.mem_cons.1 h with rfl | h
      · exact .inr (by rw [beq_iff_eq.1 hsame])
      · exact .inl (List.mem_cons_of_mem _ h)
  | case3 g fields _ ih =>
      rcases List.mem_cons.1 h with rfl | h
      · exact .inl (List.mem_cons_self ..)
      · exact (ih h).imp_left (List.mem_cons_of_mem _)

theorem mem_of_mem_collectFields {f : String × α} (h : f ∈ collectFields (· == ·) fields) :
    f ∈ fields := by
  refine List.foldlRecOn (motive := fun acc => ∀ f ∈ acc, f ∈ fields) fields _ (by simp) ?_ f h
  intro acc hacc g hg f hf
  rcases mem_of_mem_setField hf with hf | rfl
  · exact hacc f hf
  · exact hg

/-- Entries that stand under their own names are found by them. -/
theorem find?_map_snd {name : α → String} (hfields : ∀ f ∈ fields, name f.2 = f.1) (n : String) :
    (fields.map Prod.snd).find? (fun e => name e == n) = fields.lookup n := by
  induction fields with
  | nil => rfl
  | cons f fields ih =>
      rw [List.forall_mem_cons] at hfields
      rw [List.map_cons, List.find?_cons, List.lookup_cons, hfields.1, ih hfields.2, BEq.comm]

end

namespace Catalog

/-- Of entries with one name the last one is found. -/
theorem find?_lastByName {α : Type} (name : α → String) (entries : List α) (n : String) :
    (lastByName name entries).find? (fun e => name e == n) =
      entries.reverse.find? fun e => name e == n := by
  have hkeyed : ∀ f ∈ entries.map fun e => (name e, e), name f.2 = f.1 := by
    intro f hf
    obtain ⟨e, -, rfl⟩ := List.mem_map.1 hf
    rfl
  have hentries : (entries.map fun e => (name e, e)).reverse.map Prod.snd = entries.reverse := by
    rw [← List.map_reverse, List.map_map]
    exact List.map_id' _
  calc (lastByName name entries).find? (fun e => name e == n)
      = (collectFields (· == ·) (entries.map fun e => (name e, e))).lookup n :=
        find?_map_snd (fun f hf => hkeyed f (mem_of_mem_collectFields hf)) n
    _ = (entries.map fun e => (name e, e)).reverse.lookup n := lookup_collectFields _ n
    _ = entries.reverse.find? (fun e => name e == n) := by
        rw [← hentries, find?_map_snd fun f hf => hkeyed f (List.mem_reverse.1 hf)]

/-- The last of some entries with a name. -/
def lastNamed? (items : List Value) (name : String) : Option Value :=
  items.reverse.find? fun v => textOf v "name" "" == name

theorem find?_functionsOf (owner : Scalar) (data : Value) (key name : String) :
    (functionsOf owner data key).find? (fun f => f.name == name) =
      (lastNamed? (itemsOf data key) name).map (functionOf owner) := by
  rw [functionsOf, find?_lastByName, ← List.map_reverse, List.find?_map]
  rfl

theorem constant?_packageOf (field : Scalar × Value) (name : String) :
    (packageOf field).constant? name =
      (lastNamed? (itemsOf field.2 "constants") name).map (constantOf field.1) := by
  rw [CatalogPackage.constant?, packageOf, find?_lastByName, ← List.map_reverse, List.find?_map]
  rfl

/-- An owner is found under its name, if that is a text. -/
theorem find?_map_owner {α : Type} (owner : α → Scalar) {g : Scalar × Value → α}
    (hg : ∀ field, owner (g field) = field.1) (fields : List (Scalar × Value)) (name : String) :
    (fields.map g).find? (fun a => owner a == .str name) =
      (fields.lookup (.str name)).map fun v => g (.str name, v) := by
  induction fields with
  | nil => rfl
  | cons f fields ih =>
      rw [List.map_cons, List.find?_cons, hg, List.lookup_cons, ih, BEq.comm]
      cases h : (Scalar.str name == f.1) with
      | false => rfl
      | true => rw [beq_iff_eq.1 h]; rfl

/-! ### Catalogs -/

/-- What a catalog that was read from data answers: the last entry of a name, if there is one, and
of a package a function before a constant. -/
structure AnswersFrom (catalog : Catalog) (data : Value) : Prop where
  global : ∀ name, catalog.global? name =
    (lastNamed? (itemsOf data "globals") name).map (functionOf .null)
  function : ∀ package name, (catalog.package? package).bind (·.function? name) =
    ((fieldsOf data "packages").lookup (.str package)).bind fun v =>
      (lastNamed? (itemsOf v "functions") name).map (functionOf (.str package))
  constant : ∀ package name, (catalog.package? package).bind (·.constant? name) =
    ((fieldsOf data "packages").lookup (.str package)).bind fun v =>
      (lastNamed? (itemsOf v "constants") name).map (constantOf (.str package))
  member : ∀ package name, catalog.packageMember? package name =
    (((catalog.package? package).bind (·.function? name)).map .function).or
      (((catalog.package? package).bind (·.constant? name)).map .constant)
  method : ∀ receiver args name, catalog.method? (.named receiver args) name =
    ((fieldsOf data "classes").lookup (.str receiver)).bind fun v =>
      (lastNamed? (itemsOf v "methods") name).map (functionOf (.str receiver))

theorem answersFrom_catalogOf (data : Value) : AnswersFrom (catalogOf data) data := by
  have hpackage (package : String) : (catalogOf data).package? package =
      ((fieldsOf data "packages").lookup (.str package)).map fun v =>
        packageOf (.str package, v) :=
    find?_map_owner CatalogPackage.name (g := packageOf) (fun _ => rfl) _ package
  have htype (receiver : String) : (catalogOf data).type? receiver =
      ((fieldsOf data "classes").lookup (.str receiver)).map fun v => typeOf (.str receiver, v) :=
    find?_map_owner CatalogType.name (g := typeOf) (fun _ => rfl) _ receiver
  constructor
  case global => exact fun name => find?_functionsOf .null data "globals" name
  case function =>
    intro package name
    rw [hpackage, Option.bind_map]
    exact congrArg _ (funext fun v => find?_functionsOf (.str package) v "functions" name)
  case constant =>
    intro package name
    rw [hpackage, Option.bind_map]
    exact congrArg _ (funext fun v => constant?_packageOf (.str package, v) name)
  case member =>
    intro package name
    rw [packageMember?]
    cases (catalogOf data).package? package <;> rfl
  case method =>
    intro receiver args name
    rw [method?, htype, Option.bind_map]
    exact congrArg _ (funext fun v => find?_functionsOf (.str receiver) v "methods" name)

/-- Data of the right shape is read as a catalog, in which each name stands for its last entry;
other data is refused for its shape. A number too long to be written may stop either, and nothing
else does. -/
theorem loading_accepts_well_shaped_data (data : Value) :
    (∀ catalog, ofValue data = .ok catalog → WellShaped data ∧ AnswersFrom catalog data) ∧
      (∀ e, ofValue data = .error e →
        e.IsShape ∧ ¬WellShaped data ∨ e = .numberTooLong ∧ data.isWritable = false) ∧
      (data.isWritable = true →
        (WellShaped data ↔ ∃ catalog, ofValue data = .ok catalog) ∧
          (¬WellShaped data ↔ ∃ e, ofValue data = .error e ∧ e.IsShape)) := by
  have hreads := reads_ofValue data
  refine ⟨fun catalog hok => ?_, fun e herror => ?_, fun hdata => ?_⟩
  · rw [hok] at hreads
    cases hreads with
    | ok h => exact ⟨h, answersFrom_catalogOf data⟩
  · rw [herror] at hreads
    cases hreads with
    | misshaped he h => exact .inl ⟨he, h⟩
    | unwritable h => exact .inr ⟨rfl, by simpa using h⟩
  · generalize ofValue data = x at hreads
    cases hreads with
    | ok h => simp [h]
    | misshaped he h => simp [h, he]
    | unwritable h => exact absurd hdata h

/-- A package that lists a function twice, and a constant of the same name. -/
theorem loading_accepts_well_shaped_data_repeated :
    let named (returns : String) : Value :=
      .object [(.str "name", .str "e"), (.str "returns", .str returns)]
    let math : Value := .object
      [(.str "functions", .list [named "Int", named "Float"]), (.str "constants", .list [named ""])]
    let data : Value := .object [(.str "packages", .object [(.str "Math", math)])]
    ∃ catalog, ofValue data = .ok catalog ∧ WellShaped data ∧
      (catalog.packageMember? "Math" "e").map PackageMember.signature =
        some "Math.e() -> Float" := by
  intro named math data
  have hread : (ofValue data).isOk = true := by decide +kernel
  cases hok : ofValue data with
  | error e => simp [hok, Except.isOk, Except.toBool] at hread
  | ok catalog =>
      obtain ⟨hshaped, hanswers⟩ := (loading_accepts_well_shaped_data data).1 catalog hok
      refine ⟨catalog, rfl, hshaped, ?_⟩
      rw [hanswers.member, hanswers.function, hanswers.constant]
      decide +kernel

/-- A type that is named by a number with one digit too many. -/
def longTypeName : Value :=
  .object [(.str "types", .list [.int (Int.ofNat (Nat.pow 10 Text.maxIntegerDigits))])]

/-- Data of the right shape may hold a number that is too long to be written. -/
theorem loading_stops_at_long_number :
    ¬∀ data : Value, data.IsJson →
      ((∃ e, ofValue data = .error e ∧ e.IsShape) ↔ ¬WellShaped data) ∧
        ∀ e, ofValue data = .error e → e.IsShape := by
  intro h
  have hjson : longTypeName.IsJson := by
    refine .object (fun f hf => ⟨"types", ?_⟩) fun f hf => ?_
    · rw [List.mem_singleton.1 hf]
    · rw [List.mem_singleton.1 hf]
      refine .list fun v hv => ?_
      rw [List.mem_singleton.1 hv]
      exact .scalar nofun nofun
  have hread : (match ofValue longTypeName with
      | .ok _ => false
      | .error e => e == .numberTooLong) = true := by
    decide +kernel
  cases hdata : ofValue longTypeName with
  | ok catalog => simp [hdata] at hread
  | error e =>
      obtain rfl : e = .numberTooLong := by simpa [hdata] using hread
      exact (h longTypeName hjson).2 _ hdata

end Catalog

end Polyloft
