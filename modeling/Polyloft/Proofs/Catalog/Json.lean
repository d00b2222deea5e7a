import Polyloft.Proofs.Catalog.Shape

/-!
# Polyloft.Proofs.Catalog.Json

Catalogs from JSON. Data may name fields by any scalar, JSON names them by texts only; a catalog
that was read from JSON has packages that are named by texts.
-/

namespace Polyloft

/-- Data that JSON can write: there are no dates in it, and fields are named by texts. -/
inductive Value.IsJson : Value → Prop where
  | scalar {s : Scalar} (hdate : ∀ d, s ≠ .date d) (htimestamp : ∀ t, s ≠ .timestamp t) :
      IsJson (.scalar s)
  | list {items : List Value} (hitems : ∀ v ∈ items, IsJson v) : IsJson (.list items)
  | object {fields : List (Scalar × Value)} (hnames : ∀ f ∈ fields, ∃ name, f.1 = .str name)
      (hvalues : ∀ f ∈ fields, IsJson f.2) : IsJson (.object fields)

/-! ### Reading -/

section

variable {ε α β : Type}

theorem exists_of_bind_eq_ok {x : Except ε α} {f : α → Except ε β} {y : β}
    (h : x >>= f = .ok y) : ∃ a, x = .ok a ∧ f a = .ok y := by
  cases x with
  | error e => simp [bind, Except.bind] at h
  | ok a => exact ⟨a, rfl, h⟩

theorem exists_of_mem_mapM {f : α → Except ε β} {xs : List α} {ys : List β}
    (h : xs.mapM f = .ok ys) {y : β} (hy : y ∈ ys) : ∃ x ∈ xs, f x = .ok y := by
  induction xs generalizing ys with
  | nil =>
      obtain rfl := Except.ok.inj h
      simp at hy
  | cons x xs ih =>
      rw [List.mapM_cons] at h
      obtain ⟨z, hz, h⟩ := exists_of_bind_eq_ok h
      obtain ⟨zs, hzs, h⟩ := exists_of_bind_eq_ok h
      obtain rfl := Except.ok.inj h
      rcases List.mem_cons.1 hy with rfl | hy
      · exact ⟨x, List.mem_cons_self .., hz⟩
      · obtain ⟨x', hx', hfx'⟩ := ih hzs hy
        exact ⟨x', List.mem_cons_of_mem _ hx', hfx'⟩

end

namespace Catalog

/-- The fields of a field of JSON data are named by texts. -/
theorem named_of_mem_fieldsOf {data : Value} (hdata : data.IsJson) {key : String}
    {f : Scalar × Value} (hf : f ∈ fieldsOf data key) : ∃ name, f.1 = .str name := by
  unfold fieldsOf at hf
  split at hf
  · rename_i fields hgiven
    obtain ⟨hget, -⟩ := Option.filter_eq_some_iff.1 hgiven
    cases hdata with
    | scalar => simp [Value.get?] at hget
    | list => simp [Value.get?] at hget
    | object _ hvalues =>
        obtain ⟨before, after, rfl, -⟩ := List.lookup_eq_some_iff.1 hget
        have hfield := hvalues (.str key, .object fields) (by simp)
        cases hfield with
        | object hnames _ => exact hnames f hf
  · simp at hf

/-- The packages of a catalog that was read from JSON are named by texts. -/
theorem named_of_mem_packages {data : Value} (hdata : data.IsJson) {catalog : Catalog}
    (h : ofValue data = .ok catalog) {p : CatalogPackage} (hp : p ∈ catalog.packages) :
    ∃ name, p.name = .str name := by
  have hreads := reads_ofValue data
  rw [h] at hreads
  cases hreads
  obtain ⟨f, hf, rfl⟩ := List.mem_map.1 hp
  exact named_of_mem_fieldsOf hdata hf

end Catalog

end Polyloft
