import Mathlib.Data.List.Nodup

/-!
# Keyed tables

A table is a list of rows, each carrying its own key, in which no two rows have the same key.
The uniqueness is a field of the structure, so a table that breaks it cannot be built: `insert`
asks for a proof that the key is free, and `modify` for a proof that the key is kept.

Every lookup goes through `find?`. The lemmas below describe each operation twice: by the rows it
leaves (`mem_modify`, `mem_insert`) and by what `find?` then answers (`find?_modify`,
`find?_insert`). A proof about a table uses whichever view its invariant is stated in, and
`find?_eq_some` passes between the two.
-/

namespace Keyed

universe u v

/-- Rows of type `ρ` with pairwise different keys, in order of insertion. -/
structure Table (ρ : Type u) {κ : Type v} (key : ρ → κ) where
  rows : List ρ
  nodup : (rows.map key).Nodup

namespace Table

variable {ρ : Type u} {κ : Type v} {key : ρ → κ}

instance : Membership ρ (Table ρ key) := ⟨fun t r => r ∈ t.rows⟩

theorem mem_def {t : Table ρ key} {r : ρ} : r ∈ t ↔ r ∈ t.rows := Iff.rfl

instance {p : ρ → Prop} [DecidablePred p] (t : Table ρ key) : Decidable (∀ r ∈ t, p r) :=
  inferInstanceAs (Decidable (∀ r ∈ t.rows, p r))

def empty : Table ρ key := ⟨[], List.nodup_nil⟩

@[simp] theorem rows_empty : (empty : Table ρ key).rows = [] := rfl

@[simp] theorem not_mem_empty (r : ρ) : r ∉ (empty : Table ρ key) := List.not_mem_nil

/-- Two rows of a table with the same key are the same row. -/
theorem eq_of_key_eq {t : Table ρ key} {r r' : ρ} (h : r ∈ t) (h' : r' ∈ t)
    (hk : key r = key r') : r = r' :=
  List.inj_on_of_nodup_map t.nodup h h' hk

variable [DecidableEq κ]

/-- The row with key `k`. -/
def find? (t : Table ρ key) (k : κ) : Option ρ := t.rows.find? fun r => decide (key r = k)

theorem find?_eq_some {t : Table ρ key} {k : κ} {r : ρ} :
    t.find? k = some r ↔ r ∈ t ∧ key r = k := by
  constructor
  · intro h
    exact ⟨List.mem_of_find?_eq_some h, by simpa using List.find?_some h⟩
  · rintro ⟨hr, rfl⟩
    cases hf : t.find? (key r) with
    | none =>
      have hne : key r ≠ key r := by simpa using List.find?_eq_none.1 hf r hr
      exact absurd rfl hne
    | some r' =>
      have hr' : r' ∈ t := List.mem_of_find?_eq_some hf
      have hk : key r' = key r := by simpa using List.find?_some hf
      rw [eq_of_key_eq hr' hr hk]

theorem find?_eq_none {t : Table ρ key} {k : κ} :
    t.find? k = none ↔ ∀ r ∈ t, key r ≠ k := by
  simp [find?, List.find?_eq_none, mem_def]

theorem mem_of_find? {t : Table ρ key} {k : κ} {r : ρ} (h : t.find? k = some r) : r ∈ t :=
  (find?_eq_some.1 h).1

theorem key_of_find? {t : Table ρ key} {k : κ} {r : ρ} (h : t.find? k = some r) : key r = k :=
  (find?_eq_some.1 h).2

theorem find?_of_mem {t : Table ρ key} {r : ρ} (h : r ∈ t) : t.find? (key r) = some r :=
  find?_eq_some.2 ⟨h, rfl⟩

@[simp] theorem find?_empty (k : κ) : (empty : Table ρ key).find? k = none := rfl

/-! ## Insertion -/

/-- Append a row whose key is free. -/
def insert (t : Table ρ key) (r : ρ) (h : t.find? (key r) = none) : Table ρ key where
  rows := t.rows ++ [r]
  nodup := by
    rw [List.map_append, List.nodup_append]
    refine ⟨t.nodup, by simp, ?_⟩
    intro a ha b hb hab
    obtain ⟨x, hx, rfl⟩ := List.mem_map.1 ha
    simp only [List.map_cons, List.map_nil, List.mem_singleton] at hb
    exact find?_eq_none.1 h x hx (hab.trans hb)

@[simp] theorem rows_insert (t : Table ρ key) (r : ρ) (h : t.find? (key r) = none) :
    (t.insert r h).rows = t.rows ++ [r] := rfl

theorem mem_insert {t : Table ρ key} {r x : ρ} {h : t.find? (key r) = none} :
    x ∈ t.insert r h ↔ x ∈ t ∨ x = r := by
  simp [mem_def]

theorem find?_insert {t : Table ρ key} {r : ρ} {h : t.find? (key r) = none} (k : κ) :
    (t.insert r h).find? k = if key r = k then some r else t.find? k := by
  by_cases hk : key r = k
  · rw [if_pos hk]
    exact find?_eq_some.2 ⟨mem_insert.2 (.inr rfl), hk⟩
  · rw [if_neg hk]
    simp [find?, insert, hk]

/-! ## Change in place -/

/-- Apply `f` to the row with key `k`, which keeps its key. -/
def modify (t : Table ρ key) (k : κ) (f : ρ → ρ) (hf : ∀ r, key (f r) = key r) : Table ρ key where
  rows := t.rows.map fun r => if key r = k then f r else r
  nodup := by
    have hmap : (t.rows.map fun r => if key r = k then f r else r).map key = t.rows.map key := by
      rw [List.map_map]
      refine List.map_congr_left fun r _ => ?_
      simp only [Function.comp_apply]
      split <;> simp [hf]
    rw [hmap]
    exact t.nodup

variable {t : Table ρ key} {k : κ} {f : ρ → ρ} {hf : ∀ r, key (f r) = key r}

theorem rows_modify :
    (t.modify k f hf).rows = t.rows.map fun r => if key r = k then f r else r := rfl

theorem mem_modify {x : ρ} :
    x ∈ t.modify k f hf ↔ ∃ r ∈ t, x = if key r = k then f r else r := by
  simp only [mem_def, rows_modify, List.mem_map, eq_comm]

/-- A changed table holds the changed row and every row with another key. -/
theorem mem_modify_of_find? {r x : ρ} (h : t.find? k = some r) :
    x ∈ t.modify k f hf ↔ x = f r ∨ (x ∈ t ∧ key x ≠ k) := by
  obtain ⟨hr, rfl⟩ := find?_eq_some.1 h
  rw [mem_modify]
  constructor
  · rintro ⟨y, hy, rfl⟩
    by_cases hk : key y = key r
    · rw [if_pos hk, eq_of_key_eq hy hr hk]
      exact .inl rfl
    · rw [if_neg hk]
      exact .inr ⟨hy, hk⟩
  · rintro (rfl | ⟨hx, hk⟩)
    · exact ⟨r, hr, by rw [if_pos rfl]⟩
    · exact ⟨x, hx, by rw [if_neg hk]⟩

theorem find?_modify (k' : κ) :
    (t.modify k f hf).find? k' = (t.find? k').map fun r => if k' = k then f r else r := by
  cases h : t.find? k' with
  | none =>
    rw [find?_eq_none] at h
    rw [Option.map_none, find?_eq_none]
    intro x hx
    obtain ⟨r, hr, rfl⟩ := mem_modify.1 hx
    have hkey : key (if key r = k then f r else r) = key r := by split <;> simp [hf]
    rw [hkey]
    exact h r hr
  | some r =>
    obtain ⟨hr, rfl⟩ := find?_eq_some.1 h
    rw [Option.map_some, find?_eq_some]
    refine ⟨mem_modify.2 ⟨r, hr, rfl⟩, ?_⟩
    split <;> simp [hf]

theorem find?_modify_self : (t.modify k f hf).find? k = (t.find? k).map f := by
  simp [find?_modify]

theorem find?_modify_ne {k' : κ} (h : k' ≠ k) : (t.modify k f hf).find? k' = t.find? k' := by
  simp [find?_modify, h]

/-- Whether a key is present does not depend on changes in place. -/
theorem find?_modify_isSome (k' : κ) :
    ((t.modify k f hf).find? k').isSome = (t.find? k').isSome := by
  simp [find?_modify]

theorem find?_modify_eq_none (k' : κ) :
    (t.modify k f hf).find? k' = none ↔ t.find? k' = none := by
  simp [find?_modify]

/-- A column that `f` keeps is kept at every key. -/
theorem map_find?_modify {β : Type*} {g : ρ → β} (hg : ∀ r, g (f r) = g r) (k' : κ) :
    ((t.modify k f hf).find? k').map g = (t.find? k').map g := by
  rw [find?_modify, Option.map_map]
  congr 1
  funext r
  simp only [Function.comp_apply]
  split <;> simp [hg]

/-- Two changes of one row are one change. -/
theorem modify_modify {g : ρ → ρ} {hg : ∀ r, key (g r) = key r} :
    (t.modify k f hf).modify k g hg =
      t.modify k (fun r => g (f r)) (fun r => (hg _).trans (hf r)) := by
  simp only [modify, mk.injEq, List.map_map]
  refine List.map_congr_left fun r _ => ?_
  simp only [Function.comp_apply]
  by_cases hk : key r = k <;> simp [hk, hf]

/-- A change that rewrites the row to itself changes nothing. -/
theorem modify_eq_self {r : ρ} (h : t.find? k = some r) (hfr : f r = r) :
    t.modify k f hf = t := by
  have hrows : (t.modify k f hf).rows = t.rows := by
    rw [rows_modify]
    refine (List.map_congr_left fun x hx => ?_).trans (List.map_id _)
    by_cases hk : key x = k
    · rw [if_pos hk, eq_of_key_eq hx (mem_of_find? h) (hk.trans (key_of_find? h).symm), hfr]
      rfl
    · rw [if_neg hk]
      rfl
  cases t
  simpa [modify] using hrows

/-! ## Removal -/

/-- Drop the row with key `k`. -/
def erase (t : Table ρ key) (k : κ) : Table ρ key where
  rows := t.rows.filter fun r => key r ≠ k
  nodup := t.nodup.sublist (List.filter_sublist.map key)

theorem mem_erase {x : ρ} : x ∈ t.erase k ↔ x ∈ t ∧ key x ≠ k := by
  simp [mem_def, erase]

/-! ## Change throughout -/

/-- Apply `f`, which keeps keys, to every row. -/
def map (t : Table ρ key) (f : ρ → ρ) (hf : ∀ r, key (f r) = key r) : Table ρ key where
  rows := t.rows.map f
  nodup := by
    have hmap : (t.rows.map f).map key = t.rows.map key := by
      rw [List.map_map]
      exact List.map_congr_left fun r _ => hf r
    rw [hmap]
    exact t.nodup

omit [DecidableEq κ] in
theorem rows_map : (t.map f hf).rows = t.rows.map f := rfl

omit [DecidableEq κ] in
theorem map_map {g : ρ → ρ} {hg : ∀ r, key (g r) = key r} :
    (t.map f hf).map g hg = t.map (g ∘ f) (fun r => (hg _).trans (hf r)) := by
  simp only [map, List.map_map]

omit [DecidableEq κ] in
theorem map_id (t : Table ρ key) : t.map id (fun _ => rfl) = t := by
  simp only [map, List.map_id]

/-- A change in place is a change throughout. -/
theorem modify_eq_map : t.modify k f hf =
    t.map (fun r => if key r = k then f r else r) (fun r => by split <;> simp [hf]) := rfl

theorem find?_map (k' : κ) : (t.map f hf).find? k' = (t.find? k').map f := by
  cases h : t.find? k' with
  | none =>
    rw [Option.map_none, find?_eq_none]
    intro x hx
    obtain ⟨r, hr, rfl⟩ := List.mem_map.1 hx
    rw [hf]
    exact find?_eq_none.1 h r hr
  | some r =>
    obtain ⟨hr, rfl⟩ := find?_eq_some.1 h
    exact find?_eq_some.2 ⟨List.mem_map.2 ⟨r, hr, rfl⟩, hf r⟩

end Table

end Keyed
