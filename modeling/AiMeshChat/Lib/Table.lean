import Mathlib.Data.List.AList

/-!
# Tables with a default

A table gives every key a value, and all but finitely many keys the default one.
So a program can look up and change any key without asking whether it is there, and
can still go through the keys that have been set.
-/

namespace AiMeshChat.Lib

/-- A value for each key; the default one where none is set. -/
structure Table (K V : Type) where
  entries : AList (fun _ : K => V)

namespace Table

variable {K V : Type}

/-- Every key has the default value. -/
def empty : Table K V := ⟨∅⟩

variable [DecidableEq K] [Inhabited V]

/-- The value of a key. -/
def get (t : Table K V) (k : K) : V := (t.entries.lookup k).getD default

/-- Let `k` have the value `v`. -/
def set (t : Table K V) (k : K) (v : V) : Table K V := ⟨t.entries.insert k v⟩

/-- The keys that were set and whose value satisfies `p`. -/
def keysWith (t : Table K V) (p : V → Bool) : List K :=
  t.entries.keys.filter fun k => p (t.get k)

@[simp] theorem get_empty (k : K) : (empty : Table K V).get k = default := rfl

theorem get_set (t : Table K V) (k k' : K) (v : V) :
    (t.set k v).get k' = if k' = k then v else t.get k' := by
  unfold get set
  split_ifs with h
  · subst h
    rw [AList.lookup_insert]
    rfl
  · rw [AList.lookup_insert_ne h]

@[simp] theorem get_set_self (t : Table K V) (k : K) (v : V) : (t.set k v).get k = v := by
  rw [get_set, if_pos rfl]

theorem keysWith_nodup (t : Table K V) (p : V → Bool) : (t.keysWith p).Nodup :=
  t.entries.keys_nodup.filter _

theorem mem_keysWith {t : Table K V} {p : V → Bool} (hp : p default = false) {k : K} :
    k ∈ t.keysWith p ↔ p (t.get k) = true := by
  rw [keysWith, List.mem_filter]
  refine ⟨And.right, fun h => ⟨?_, h⟩⟩
  by_contra hk
  have hnone : t.entries.lookup k = none := AList.lookup_eq_none.mpr hk
  rw [get, hnone, Option.getD_none, hp] at h
  exact absurd h (by decide)

end Table

end AiMeshChat.Lib
