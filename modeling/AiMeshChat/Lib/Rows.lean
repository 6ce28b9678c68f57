import Mathlib.Data.List.Nodup

/-!
# Rows with a primary key

A table whose rows have distinct keys, in the order in which they were added: a SQL
table with a primary key, read in the order of its row numbers, or a Python dict whose
values know their key. That the keys are distinct is a field of the table, so no
operation can leave two rows of one key behind.

`put` replaces the row of the same key where it stands, or adds the row at the end;
`update` rewrites the rows that meet a condition and keeps their keys; `delete` removes
those that meet one. Each comes with the equation for `get?` of an arbitrary key.
-/

namespace AiMeshChat.Lib

/-- Rows with distinct keys. -/
structure Rows (K R : Type) (key : R → K) where
  list : List R
  nodup : (list.map key).Nodup

namespace Rows

variable {K R : Type} {key : R → K}

def empty : Rows K R key := ⟨[], List.nodup_nil⟩

variable {t : Rows K R key} {r : R} {p : R → Bool} {k : K}

theorem ext {u : Rows K R key} (h : t.list = u.list) : t = u := by
  cases t
  cases u
  cases h
  rfl

theorem eq_of_key {r' : R} (hr : r ∈ t.list) (hr' : r' ∈ t.list)
    (h : key r = key r') : r = r' := List.inj_on_of_nodup_map t.nodup hr hr' h

/-- The rows that meet the condition, in order. -/
def select (t : Rows K R key) (p : R → Bool) : List R := t.list.filter p

/-- Remove the rows that meet the condition. -/
def delete (t : Rows K R key) (p : R → Bool) : Rows K R key where
  list := t.list.filter fun r => !p r
  nodup := t.nodup.sublist (List.filter_sublist.map key)

/-- Rewrite the rows that meet the condition. -/
def update (t : Rows K R key) (p : R → Bool) (f : R → R) (hf : ∀ r, key (f r) = key r) :
    Rows K R key where
  list := t.list.map fun r => if p r then f r else r
  nodup := by
    have hkeys : (t.list.map fun r => if p r then f r else r).map key = t.list.map key := by
      rw [List.map_map]
      refine List.map_congr_left fun r _ => ?_
      show key (if p r then f r else r) = key r
      split
      · exact hf r
      · rfl
    rw [hkeys]
    exact t.nodup

@[simp] theorem mem_select : r ∈ t.select p ↔ r ∈ t.list ∧ p r = true := List.mem_filter

theorem select_nodup (t : Rows K R key) (p : R → Bool) : ((t.select p).map key).Nodup :=
  t.nodup.sublist (List.filter_sublist.map key)

theorem mem_delete : r ∈ (t.delete p).list ↔ r ∈ t.list ∧ p r = false := by
  simp [delete]

theorem mem_update {f : R → R}
    {hf : ∀ r, key (f r) = key r} :
    r ∈ (t.update p f hf).list ↔ ∃ r₀ ∈ t.list, (if p r₀ then f r₀ else r₀) = r := by
  simp [update]

variable [DecidableEq K]

/-- The row of a key. -/
def get? (t : Rows K R key) (k : K) : Option R := t.list.find? fun r => key r = k

/-- Let `r` be the row of its key. -/
def put (t : Rows K R key) (r : R) : Rows K R key where
  list := if key r ∈ t.list.map key then t.list.map fun r' => if key r' = key r then r else r'
    else t.list ++ [r]
  nodup := by
    split
    · have hkeys : (t.list.map fun r' => if key r' = key r then r else r').map key =
          t.list.map key := by
        rw [List.map_map]
        refine List.map_congr_left fun r' _ => ?_
        show key (if key r' = key r then r else r') = key r'
        split
        · next h => exact h.symm
        · rfl
      rw [hkeys]
      exact t.nodup
    · next h =>
      rw [List.map_append, List.map_singleton]
      exact t.nodup.append (List.nodup_singleton _) (List.disjoint_singleton.mpr h)

theorem get?_eq_some : t.get? k = some r ↔ r ∈ t.list ∧ key r = k := by
  constructor
  · intro h
    exact ⟨List.mem_of_find?_eq_some h, by simpa using List.find?_some h⟩
  · rintro ⟨hr, rfl⟩
    cases h : t.get? (key r) with
    | none =>
      have hne := List.find?_eq_none.mp h r hr
      simp at hne
    | some r' =>
      have hkey : key r' = key r := by simpa using List.find?_some h
      rw [eq_of_key (List.mem_of_find?_eq_some h) hr hkey]

theorem get?_eq_none : t.get? k = none ↔ ∀ r ∈ t.list, key r ≠ k := by
  simp [get?]

theorem mem_of_get? (h : t.get? k = some r) : r ∈ t.list :=
  (get?_eq_some.mp h).1

theorem key_of_get? (h : t.get? k = some r) : key r = k :=
  (get?_eq_some.mp h).2

theorem get?_of_mem (h : r ∈ t.list) : t.get? (key r) = some r :=
  get?_eq_some.mpr ⟨h, rfl⟩

theorem get?_congr {u : Rows K R key}
    (h : ∀ r, key r = k → (r ∈ t.list ↔ r ∈ u.list)) : t.get? k = u.get? k := by
  refine Option.ext fun r => ?_
  rw [get?_eq_some, get?_eq_some]
  exact ⟨fun ⟨hr, hk⟩ => ⟨(h r hk).mp hr, hk⟩, fun ⟨hr, hk⟩ => ⟨(h r hk).mpr hr, hk⟩⟩

theorem mem_put {r' : R} : r' ∈ (t.put r).list ↔ r' = r ∨ (r' ∈ t.list ∧ key r' ≠ key r) := by
  unfold put
  dsimp only
  split
  · next h =>
    obtain ⟨r₀, hr₀, hkey⟩ := List.mem_map.mp h
    rw [List.mem_map]
    constructor
    · rintro ⟨r₁, hr₁, heq⟩
      split at heq
      · exact .inl heq.symm
      · next hne => exact .inr (heq ▸ ⟨hr₁, hne⟩)
    · rintro (rfl | ⟨hmem, hne⟩)
      · exact ⟨r₀, hr₀, if_pos hkey⟩
      · exact ⟨r', hmem, if_neg hne⟩
  · next h =>
    rw [List.mem_append, List.mem_singleton]
    constructor
    · rintro (hmem | rfl)
      · exact .inr ⟨hmem, fun hkey => h (hkey ▸ List.mem_map_of_mem hmem)⟩
      · exact .inl rfl
    · rintro (rfl | ⟨hmem, -⟩)
      · exact .inr rfl
      · exact .inl hmem

theorem get?_put (t : Rows K R key) (r : R) (k : K) :
    (t.put r).get? k = if k = key r then some r else t.get? k := by
  split
  · next h => exact get?_eq_some.mpr ⟨mem_put.mpr (.inl rfl), h.symm⟩
  · next h =>
    refine get?_congr fun r' hk => ?_
    rw [mem_put]
    constructor
    · rintro (rfl | hmem)
      · exact absurd hk.symm h
      · exact hmem.1
    · exact fun hmem => .inr ⟨hmem, fun he => h (hk.symm.trans he)⟩

theorem get?_put_self (t : Rows K R key) (r : R) : (t.put r).get? (key r) = some r := by
  rw [get?_put, if_pos rfl]

theorem get?_put_ne (t : Rows K R key) (h : k ≠ key r) : (t.put r).get? k = t.get? k := by
  rw [get?_put, if_neg h]

theorem get?_delete (t : Rows K R key) (p : R → Bool) (k : K) :
    (t.delete p).get? k = (t.get? k).filter fun r => !p r := by
  refine Option.ext fun r => ?_
  rw [get?_eq_some, mem_delete, Option.filter_eq_some_iff, get?_eq_some]
  constructor
  · rintro ⟨⟨hr, hp⟩, hk⟩
    exact ⟨⟨hr, hk⟩, by rw [hp]; rfl⟩
  · rintro ⟨⟨hr, hk⟩, hp⟩
    exact ⟨⟨hr, by simpa using hp⟩, hk⟩

theorem get?_update (t : Rows K R key) (p : R → Bool) (f : R → R) (hf : ∀ r, key (f r) = key r)
    (k : K) : (t.update p f hf).get? k = (t.get? k).map fun r => if p r then f r else r := by
  have hkey (r : R) : key (if p r then f r else r) = key r := by
    split
    · exact hf r
    · rfl
  refine Option.ext fun r => ?_
  rw [get?_eq_some, mem_update, Option.map_eq_some_iff]
  constructor
  · rintro ⟨⟨r₀, hr₀, rfl⟩, hk⟩
    exact ⟨r₀, get?_eq_some.mpr ⟨hr₀, (hkey r₀).symm.trans hk⟩, rfl⟩
  · rintro ⟨r₀, hr₀, rfl⟩
    exact ⟨⟨r₀, mem_of_get? hr₀, rfl⟩, (hkey r₀).trans (key_of_get? hr₀)⟩

theorem get?_update_key (t : Rows K R key) (k k' : K) (f : R → R) (hf : ∀ r, key (f r) = key r) :
    (t.update (fun r => key r = k) f hf).get? k' =
      if k' = k then (t.get? k').map f else t.get? k' := by
  rw [get?_update]
  cases h : t.get? k' with
  | none => split <;> rfl
  | some r =>
    have hk : key r = k' := key_of_get? h
    by_cases hkk : k' = k <;> simp [hk, hkk]

theorem get?_delete_key (t : Rows K R key) (k k' : K) :
    (t.delete fun r => key r = k).get? k' = if k' = k then none else t.get? k' := by
  rw [get?_delete]
  cases h : t.get? k' with
  | none => split <;> rfl
  | some r =>
    have hk : key r = k' := key_of_get? h
    by_cases hkk : k' = k <;> simp [hk, hkk, Option.filter]

theorem put_list_of_none (h : t.get? (key r) = none) : (t.put r).list = t.list ++ [r] := by
  have hn : key r ∉ t.list.map key := by
    intro hmem
    obtain ⟨r', hr', hk⟩ := List.mem_map.mp hmem
    exact get?_eq_none.mp h r' hr' hk
  exact if_neg hn

theorem foldl_put (t : Rows K R key) : t.list.foldl put empty = t := by
  have hfold : ∀ (l : List R) (acc : Rows K R key), ((acc.list ++ l).map key).Nodup →
      (l.foldl put acc).list = acc.list ++ l := by
    intro l
    induction l with
    | nil => exact fun acc _ => (List.append_nil _).symm
    | cons r l ih =>
      intro acc hnd
      have hnew : acc.get? (key r) = none := by
        refine get?_eq_none.mpr fun r' hr' hkey => ?_
        rw [List.map_append, List.map_cons] at hnd
        exact (List.nodup_append.mp hnd).2.2 _ (List.mem_map_of_mem hr') _ List.mem_cons_self hkey
      have hput : (acc.put r).list = acc.list ++ [r] := put_list_of_none hnew
      have hassoc : acc.list ++ [r] ++ l = acc.list ++ r :: l := List.append_assoc ..
      rw [List.foldl_cons, ih (acc.put r) (by rw [hput, hassoc]; exact hnd), hput, hassoc]
  exact ext (hfold t.list empty t.nodup)

theorem filter_key (t : Rows K R key) (k : K) :
    (t.list.filter fun r => key r = k) = (t.get? k).toList := by
  obtain ⟨l, hl⟩ := t
  show l.filter _ = (l.find? _).toList
  induction l with
  | nil => rfl
  | cons r l ih =>
    obtain ⟨hr, hl'⟩ := List.nodup_cons.mp hl
    by_cases hk : key r = k
    · have hnone : l.filter (fun r => key r = k) = [] := by
        refine List.filter_eq_nil_iff.mpr fun r' hr' => ?_
        have hne : key r' ≠ k := fun hk' => hr (hk.trans hk'.symm ▸ List.mem_map_of_mem hr')
        simpa using hne
      simp [hk, hnone]
    · simp [hk, ih hl']

end Rows

end AiMeshChat.Lib
