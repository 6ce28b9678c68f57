import AiMeshChat.Mailbox.LeaseRole

/-!
# Leases: active claims are not recycled

The invariant ties a claim file to what the holder of its lock has read: while
a call is in the phase `seen key answer`, the claim `key` is gone or still as
`answer` says. Only the holder of the lock rewrites a claim, so an expired claim
that was re-read under the lock is still the expired one when the message moves.

Along every run whose steps meet `Guarded`, crashes included, no active claim is
recycled (`active_claims_kept`). Without it the leftover claim of a crashed
owner makes `recover_stale` take a message from its live owner
(`leftover_claim_recycles`).
-/

namespace AiMeshChat.Mailbox

open Lib

namespace Leases

/-! ## The invariant -/

section

variable (sid agent : String)

def claimPath (key : String) : MPath := ⟨.box sid agent .processing, claimName key⟩
def draftPath (key : String) (n : ℕ) : MPath := ⟨.box sid agent .processing, tmpClaimName key n⟩
def renewPath (key : String) : MPath := ⟨.box sid agent .processing, tmpRenewName key⟩
def lockPath (key : String) : MPath := ⟨.box sid agent .processing, claimLockName key⟩
def inboxPath (name : String) : MPath := ⟨.box sid agent .inbox, name⟩

/-- The file holds a claim with the key `key`. -/
def HoldsClaim (key : String) (f : MFile) : Prop := ∃ j, f.data = .json j ∧ IsClaim key j

/-- Claims and drafts are claims of their key, messages have plain names, a phase
under a lock comes with the lock, and what was read or staged under it is still
so. -/
structure Inv (s : Disk) (q : ℕ → Phase) : Prop where
  claims : ∀ key f, s.files.get? (claimPath sid agent key) = some f → HoldsClaim key f
  drafts : ∀ key n f, s.files.get? (draftPath sid agent key n) = some f → HoldsClaim key f
  inbox : ∀ name f, s.files.get? (inboxPath sid agent name) = some f →
    isMessageName name = true → dotted name = false
  holds : ∀ i key, (q i).key = some key → (lockPath sid agent key, i) ∈ s.locks
  unique : ∀ p i j, (p, i) ∈ s.locks → (p, j) ∈ s.locks → i = j
  seen : ∀ i key answer f, q i = .seen key answer →
    s.files.get? (claimPath sid agent key) = some f → answer = .ok f.data
  staged : ∀ i key j f, q i = .staged key j →
    s.files.get? (renewPath sid agent key) = some f → f.data = .json j

end

variable {sid agent : String} {s s' : Disk} {q : ℕ → Phase} {i : ℕ}

variable {key name : String} {x : Phase} {o : Op} {c : Choice} {a : Except OsErr Unit} {j : Json}

theorem Inv.same_holder (h : Inv sid agent s q) {i j : ℕ} (hi : (q i).key = some key)
    (hj : (q j).key = some key) : i = j :=
  h.unique _ i j (h.holds i key hi) (h.holds j key hj)

/-- The step lemma for files: a step that leaves the locks alone keeps the
invariant if every file it puts at a path of one of the four kinds may stand
there. -/
theorem Inv.files (h : Inv sid agent s q) {x : Phase} (hlocks : s'.locks = s.locks)
    (hkey : x.key = (q i).key)
    (hclaims : ∀ key f, s'.files.get? (claimPath sid agent key) = some f →
      s.files.get? (claimPath sid agent key) = some f ∨
      (HoldsClaim key f ∧ ∀ k answer, Function.update q i x k ≠ .seen key answer))
    (hdrafts : ∀ key n f, s'.files.get? (draftPath sid agent key n) = some f →
      s.files.get? (draftPath sid agent key n) = some f ∨ HoldsClaim key f)
    (hinbox : ∀ name f, s'.files.get? (inboxPath sid agent name) = some f →
      (∃ f', s.files.get? (inboxPath sid agent name) = some f') ∨ dotted name = false)
    (hrenew : ∀ key f, s'.files.get? (renewPath sid agent key) = some f →
      s.files.get? (renewPath sid agent key) = some f ∨
      ∀ k j, Function.update q i x k = .staged key j → f.data = .json j)
    (hseen : ∀ key answer, x = .seen key answer → q i = .seen key answer ∨
      ∀ f, s.files.get? (claimPath sid agent key) = some f → answer = .ok f.data)
    (hstaged : ∀ key j, x = .staged key j → q i = .staged key j ∨
      ∀ f, s'.files.get? (renewPath sid agent key) = some f → f.data = .json j) :
    Inv sid agent s' (Function.update q i x) where
  claims key f hf := by
    rcases hclaims key f hf with hf | hf
    · exact h.claims key f hf
    · exact hf.1
  drafts key n f hf := by
    rcases hdrafts key n f hf with hf | hf
    · exact h.drafts key n f hf
    · exact hf
  inbox name f hf hn := by
    rcases hinbox name f hf with ⟨f', hf'⟩ | hd
    · exact h.inbox name f' hf' hn
    · exact hd
  holds k key hk := by
    rw [hlocks]
    refine h.holds k key ?_
    by_cases hki : k = i
    · subst hki
      rw [Function.update_self, hkey] at hk
      exact hk
    · rwa [Function.update_of_ne hki] at hk
  unique p k l := by rw [hlocks]; exact h.unique p k l
  seen k key answer f hk hf := by
    rcases hclaims key f hf with hf' | hf'
    · by_cases hki : k = i
      · subst hki
        rw [Function.update_self] at hk
        rcases hseen key answer hk with hq | hq
        · exact h.seen k key answer f hq hf'
        · exact hq f hf'
      · rw [Function.update_of_ne hki] at hk
        exact h.seen k key answer f hk hf'
    · exact absurd hk (hf'.2 k answer)
  staged k key j f hk hf := by
    rcases hrenew key f hf with hf' | hf'
    · by_cases hki : k = i
      · subst hki
        rw [Function.update_self] at hk
        rcases hstaged key j hk with hq | hq
        · exact h.staged k key j f hq hf'
        · exact hq f hf
      · rw [Function.update_of_ne hki] at hk
        exact h.staged k key j f hk hf'
    · exact hf' k j hk

/-! ## One operation -/

theorem claimPath_inj {a b : String} (h : claimPath sid agent a = claimPath sid agent b) : a = b :=
  claimName_inj (congrArg Path.name h)

/-- The operation touches no hidden file of `processing`. -/
def Plain (sid agent : String) (o : Op) : Prop :=
  ∀ p ∈ o.targets, p.dir = .box sid agent .processing → dotted p.name = false

/-- A hidden file of `processing` is not changed by a plain operation. -/
theorem Plain.get? (ho : Plain sid agent o) {a : Ans o} (hp : s.perform i o c = some (a, s'))
    (hn : dotted name = true) : s'.files.get? ⟨.box sid agent .processing, name⟩ =
      s.files.get? ⟨.box sid agent .processing, name⟩ := by
  refine Disk.perform_get? hp fun hmem => ?_
  rw [ho _ hmem rfl] at hn
  cases hn

theorem dotted_claimName (key : String) : dotted (claimName key) = true :=
  dotted_of_claim (startsWith_claimName key)
theorem dotted_tmpClaimName (key : String) (n : ℕ) : dotted (tmpClaimName key n) = true :=
  dotted_of_tmpClaim (startsWith_tmpClaimName key n)
theorem dotted_tmpRenewName (key : String) : dotted (tmpRenewName key) = true :=
  dotted_of_tmpRenew (startsWith_tmpRenewName key)

theorem Inv.plain (h : Inv sid agent s q) {o : Op} (ho : Plain sid agent o) {c : Choice} {a : Ans o}
    (hp : s.perform i o c = some (a, s')) (hl : o.locking = false)
    (hinbox : ∀ name f, s'.files.get? (inboxPath sid agent name) = some f →
      (∃ f', s.files.get? (inboxPath sid agent name) = some f') ∨ dotted name = false)
    {x : Phase} (hkey : x.key = (q i).key)
    (hseen : ∀ key answer, x = .seen key answer → q i = .seen key answer ∨
      ∀ f, s.files.get? (claimPath sid agent key) = some f → answer = .ok f.data)
    (hstaged : ∀ key j, x = .staged key j → q i = .staged key j) :
    Inv sid agent s' (Function.update q i x) := by
  refine h.files (Disk.perform_locks hp hl) hkey (fun key f hf => .inl ?_) (fun key n f hf => .inl ?_)
    hinbox (fun key f hf => .inl ?_) hseen (fun key j hx => .inl (hstaged key j hx))
  · rwa [claimPath, ho.get? hp (dotted_claimName key)] at hf
  · rwa [draftPath, ho.get? hp (dotted_tmpClaimName key n)] at hf
  · rwa [renewPath, ho.get? hp (dotted_tmpRenewName key)] at hf

theorem Inv.self (h : Inv sid agent s q) (i : ℕ) :
    Inv sid agent s (Function.update q i (q i)) := by
  rw [Function.update_eq_self]
  exact h

theorem Inv.unlink (h : Inv sid agent s q)
    (hp : s.perform i (.unlink ⟨.box sid agent .processing, name⟩) c = some (a, s')) :
    Inv sid agent s' (Function.update q i (q i)) := by
  rcases Disk.perform_unlink hp with rfl | hget
  · exact h.self i
  · have hold : ∀ r f, s'.files.get? r = some f → s.files.get? r = some f := by
      intro r f hf
      rw [hget] at hf
      split_ifs at hf
      exact hf
    exact h.files (Disk.perform_locks hp rfl) rfl (fun key f hf => .inl (hold _ f hf))
      (fun key n f hf => .inl (hold _ f hf)) (fun name f hf => .inl ⟨f, hold _ f hf⟩)
      (fun key f hf => .inl (hold _ f hf)) (fun _ _ hx => .inl hx) (fun _ _ hx => .inl hx)

/-- A new file at the hidden path `p` of `processing`. -/
theorem Inv.put (h : Inv sid agent s q) {x : Phase} {name : String} {f₀ : MFile}
    (hget : ∀ r, s'.files.get? r =
      if r = ⟨.box sid agent .processing, name⟩ then some f₀ else s.files.get? r)
    (hlocks : s'.locks = s.locks) (hkey : x.key = (q i).key)
    (hclaim : ∀ key, claimName key = name → HoldsClaim key f₀ ∧
      ∀ k answer, Function.update q i x k ≠ .seen key answer)
    (hdraft : ∀ key n, tmpClaimName key n = name → HoldsClaim key f₀)
    (hrenew : ∀ key, tmpRenewName key = name →
      ∀ k j, Function.update q i x k = .staged key j → f₀.data = .json j)
    (hseen : ∀ key answer, x = .seen key answer → q i = .seen key answer)
    (hstaged : ∀ key j, x = .staged key j → q i = .staged key j ∨ tmpRenewName key = name) :
    Inv sid agent s' (Function.update q i x) := by
  have hnew : ∀ r f, s'.files.get? r = some f →
      s.files.get? r = some f ∨ (r = ⟨.box sid agent .processing, name⟩ ∧ f = f₀) := by
    intro r f hf
    rw [hget] at hf
    split_ifs at hf with hr
    · exact .inr ⟨hr, (Option.some.inj hf).symm⟩
    · exact .inl hf
  refine h.files hlocks hkey (fun key f hf => ?_) (fun key n f hf => ?_) (fun name f hf => ?_)
    (fun key f hf => ?_) (fun key answer hx => .inl (hseen key answer hx)) (fun key j hx => ?_)
  · rcases hnew _ f hf with hf | ⟨hr, rfl⟩
    · exact .inl hf
    · exact .inr (hclaim key (congrArg Path.name hr))
  · rcases hnew _ f hf with hf | ⟨hr, rfl⟩
    · exact .inl hf
    · exact .inr (hdraft key n (congrArg Path.name hr))
  · rcases hnew _ f hf with hf | ⟨hr, rfl⟩
    · exact .inl ⟨f, hf⟩
    · simp [inboxPath] at hr
  · rcases hnew _ f hf with hf | ⟨hr, rfl⟩
    · exact .inl hf
    · exact .inr (hrenew key (congrArg Path.name hr))
  · rcases hstaged key j hx with hq | hn
    · exact .inl hq
    · refine .inr fun f hf => ?_
      rcases hnew _ f hf with hf' | ⟨-, rfl⟩
      · rw [hget, if_pos (by rw [renewPath, hn])] at hf
        cases hf
        exact hrenew key hn i j (by rw [Function.update_self, hx])
      · exact hrenew key hn i j (by rw [Function.update_self, hx])

theorem Inv.not_seen (h : Inv sid agent s q) (hfree : ∀ x ∈ s.locks, x.1 ≠ lockPath sid agent key)
    (k : ℕ) (answer : Except OsErr Data) : q k ≠ .seen key answer := by
  intro hk
  exact hfree _ (h.holds k key (by rw [hk]; rfl)) rfl

theorem lockOf_claimPath (key : String) :
    lockOf (claimPath sid agent key) = lockPath sid agent key := by
  rw [lockOf, claimPath, lockPath]
  congr 2
  exact between_append _ _ _

theorem Inv.draft (h : Inv sid agent s q) {n : ℕ} (hj : IsClaim key j)
    (hp : s.perform i (.writeNew (draftPath sid agent key n) (.json j)) c = some (a, s')) :
    Inv sid agent s' (Function.update q i (q i)) := by
  rcases Disk.perform_writeNew hp with ⟨e, -, rfl⟩ | ⟨-, -, f, hf, hget⟩
  · exact h.self i
  · refine h.put hget (Disk.perform_locks hp rfl) rfl (fun key' hk => ?_) (fun key' n' hk => ?_)
      (fun key' hk => ?_) (fun _ _ hx => hx) (fun _ _ hx => .inl hx)
    · exact absurd hk (claimName_ne_tmpClaimName _ _ _)
    · rw [tmpClaimName_inj hk]
      exact ⟨j, hf, hj⟩
    · exact absurd hk.symm (tmpClaimName_ne_tmpRenewName _ _ _)

theorem Inv.appear (h : Inv sid agent s q) {f : MFile} (hf : HoldsClaim key f)
    (hfree : ∀ x ∈ s.locks, x.1 ≠ lockPath sid agent key) (hlocks : s'.locks = s.locks)
    (hget : ∀ r, s'.files.get? r = if r = claimPath sid agent key then some f else s.files.get? r) :
    Inv sid agent s' (Function.update q i (q i)) := by
  refine h.put hget hlocks rfl (fun key' hk => ?_) (fun key' n hk => ?_) (fun key' hk => ?_)
    (fun _ _ hx => hx) (fun _ _ hx => .inl hx)
  · rw [claimName_inj hk, Function.update_eq_self]
    exact ⟨hf, h.not_seen hfree⟩
  · exact absurd hk.symm (claimName_ne_tmpClaimName _ _ _)
  · exact absurd hk.symm (claimName_ne_tmpRenewName _ _)

theorem Inv.create (h : Inv sid agent s q) (hj : IsClaim key j)
    (hG : PublishesUnlocked s (.writeNew (claimPath sid agent key) (.json j)))
    (hp : s.perform i (.writeNew (claimPath sid agent key) (.json j)) c = some (a, s')) :
    Inv sid agent s' (Function.update q i (q i)) := by
  rcases Disk.perform_writeNew hp with ⟨e, -, rfl⟩ | ⟨-, hnone, f, hf, hget⟩
  · exact h.self i
  · refine h.appear ⟨j, hf, hj⟩ (fun x hx => ?_) (Disk.perform_locks hp rfl) hget
    rw [← lockOf_claimPath]
    exact hG _ rfl (startsWith_claimName key) (by rw [hnone]; rfl) x hx

theorem Inv.link (h : Inv sid agent s q) {key : String} {n : ℕ} {c : Choice}
    {a : Except OsErr Unit}
    (hG : PublishesUnlocked s (.link (draftPath sid agent key n) (claimPath sid agent key)))
    (hp : s.perform i (.link (draftPath sid agent key n) (claimPath sid agent key)) c =
      some (a, s')) :
    Inv sid agent s' (Function.update q i (q i)) := by
  rcases Disk.perform_link hp with ⟨e, -, rfl⟩ | ⟨-, f, hf, hnone, hget⟩
  · exact h.self i
  · refine h.appear (h.drafts key n f hf) (fun x hx => ?_) (Disk.perform_locks hp rfl) hget
    rw [← lockOf_claimPath]
    exact hG _ rfl (startsWith_claimName key) (by rw [hnone]; rfl) x hx

theorem Inv.stage (h : Inv sid agent s q) (hq : (q i).key = some key)
    (hp : s.perform i (.write (renewPath sid agent key) (.json j)) c = some (a, s')) :
    Inv sid agent s' (Function.update q i
      ((role sid agent).next (q i) (.write (renewPath sid agent key) (.json j)) a)) := by
  rcases Disk.perform_write hp with ⟨e, rfl, rfl⟩ | ⟨rfl, f, hf, hget⟩
  · exact h.self i
  · simp only [hq]
    refine h.put hget (Disk.perform_locks hp rfl) (by rw [hq]; rfl) (fun key' hk => ?_)
      (fun key' n hk => ?_) (fun key' hk k j' hk' => ?_) nofun (fun key' j' hx => .inr ?_)
    · exact absurd hk (claimName_ne_tmpRenewName _ _)
    · exact absurd hk (tmpClaimName_ne_tmpRenewName _ _ _)
    · -- nobody else can have staged a claim under this lock
      obtain rfl := tmpRenewName_inj hk
      by_cases hki : k = i
      · subst hki
        rw [Function.update_self] at hk'
        cases hk'
        exact hf
      · rw [Function.update_of_ne hki] at hk'
        exact absurd (h.same_holder (by rw [hk']; rfl) hq) hki
    · cases hx
      rfl

theorem Inv.renew (h : Inv sid agent s q) {key key' : String} {j : Json} (hq : q i = .staged key j)
    (hj : IsClaim key' j) {c : Choice} {a : Except OsErr Unit}
    (hG : RenewsOwn (.replace (renewPath sid agent key) (claimPath sid agent key') none))
    (hp : s.perform i (.replace (renewPath sid agent key) (claimPath sid agent key') none) c =
      some (a, s')) :
    Inv sid agent s' (Function.update q i (q i)) := by
  have hkey : key' = key := by
    have := hG _ rfl (startsWith_tmpRenewName key)
    rw [renewPath, show between ".tmp-renew-" ".json" (tmpRenewName key) = key from
      between_append _ _ _] at this
    exact claimName_inj this
  subst hkey
  rcases Disk.perform_replace hp with ⟨e, -, rfl⟩ | ⟨-, ⟨f, hf⟩, rfl⟩
  · exact h.self i
  · have hget := fun r => Files.get?_move hf (claimPath sid agent key') r
    have hdata := h.staged i key' j f hq hf
    have hold : ∀ r g, r ≠ claimPath sid agent key' → (s.files.move (renewPath sid agent key')
        (claimPath sid agent key')).get? r = some g → s.files.get? r = some g := by
      intro r g hr hg
      rw [hget, if_neg hr] at hg
      split_ifs at hg
      exact hg
    refine h.files rfl rfl (fun k g hg => ?_) (fun k n g hg => .inl (hold _ g ?_ hg))
      (fun name g hg => .inl ⟨g, hold _ g ?_ hg⟩) (fun k g hg => .inl (hold _ g ?_ hg))
      (fun _ _ hx => .inl hx) (fun _ _ hx => .inl hx)
    · by_cases hk : claimPath sid agent k = claimPath sid agent key'
      · rw [hget, if_pos hk] at hg
        cases hg
        obtain rfl := claimPath_inj hk
        refine .inr ⟨⟨j, hdata, hj⟩, fun l answer hl => ?_⟩
        -- whoever has re-read the claim holds its lock, so it is this call
        rw [Function.update_eq_self] at hl
        have : l = i := h.same_holder (by rw [hl]; rfl) (by rw [hq]; rfl)
        rw [this, hq] at hl
        cases hl
      · exact .inl (hold _ g hk hg)
    · exact fun e => claimName_ne_tmpClaimName _ _ _ (congrArg Path.name e).symm
    · simp [inboxPath, claimPath]
    · exact fun e => claimName_ne_tmpRenewName _ _ (congrArg Path.name e).symm

theorem Inv.lock (h : Inv sid agent s q) {a : Unit}
    (hp : s.perform i (.lock (lockPath sid agent key)) c = some (a, s')) :
    Inv sid agent s' (Function.update q i (.held key)) := by
  simp only [Disk.perform] at hp
  split_ifs at hp with hfree
  cases hp
  have hnone : ∀ j, (lockPath sid agent key, j) ∉ s.locks := by
    intro j hj
    have := List.lookup_eq_none_iff.mp (Option.not_isSome_iff_eq_none.mp hfree) _ hj
    simp at this
  refine ⟨h.claims, h.drafts, h.inbox, fun k key' hk => ?_, fun p k l hk hl => ?_,
    fun k key' answer f hk hf => ?_, fun k key' j f hk hf => ?_⟩
  · by_cases hki : k = i
    · subst hki
      rw [Function.update_self] at hk
      cases hk
      exact List.mem_cons_self
    · rw [Function.update_of_ne hki] at hk
      exact List.mem_cons_of_mem _ (h.holds k key' hk)
  · rcases List.mem_cons.mp hk with hk | hk <;> rcases List.mem_cons.mp hl with hl | hl
    · cases hk; cases hl; rfl
    · cases hk; exact absurd hl (hnone l)
    · cases hl; exact absurd hk (hnone k)
    · exact h.unique p k l hk hl
  · by_cases hki : k = i
    · subst hki
      rw [Function.update_self] at hk
      cases hk
    · rw [Function.update_of_ne hki] at hk
      exact h.seen k key' answer f hk hf
  · by_cases hki : k = i
    · subst hki
      rw [Function.update_self] at hk
      cases hk
    · rw [Function.update_of_ne hki] at hk
      exact h.staged k key' j f hk hf

/-- Dropping locks of process `i` that it no longer needs. -/
theorem Inv.drop (h : Inv sid agent s q) {P : MPath × ℕ → Bool}
    (hP : ∀ p k, k ≠ i → P (p, k) = true) {il : List (ℕ × ℕ)} :
    Inv sid agent { s with locks := s.locks.filter P, inoLocks := il }
      (Function.update q i .idle) := by
  have hother : ∀ k, Function.update q i .idle k ≠ .idle → k ≠ i ∧
      Function.update q i .idle k = q k := by
    intro k hk
    have hki : k ≠ i := by
      rintro rfl
      exact hk (Function.update_self ..)
    exact ⟨hki, Function.update_of_ne hki ..⟩
  refine ⟨h.claims, h.drafts, h.inbox, fun k key hk => ?_, fun p k l hk hl => ?_,
    fun k key answer f hk hf => ?_, fun k key j f hk hf => ?_⟩
  · obtain ⟨hki, hq⟩ := hother k (by intro e; rw [e] at hk; cases hk)
    rw [hq] at hk
    exact List.mem_filter.mpr ⟨h.holds k key hk, hP _ k hki⟩
  · exact h.unique p k l (List.mem_filter.mp hk).1 (List.mem_filter.mp hl).1
  · obtain ⟨-, hq⟩ := hother k (by rw [hk]; nofun)
    exact h.seen k key answer f (hq ▸ hk) hf
  · obtain ⟨-, hq⟩ := hother k (by rw [hk]; nofun)
    exact h.staged k key j f (hq ▸ hk) hf

theorem Inv.unlock (h : Inv sid agent s q) {p : MPath} {a : Unit}
    (hp : s.perform i (.unlock p) c = some (a, s')) :
    Inv sid agent s' (Function.update q i .idle) := by
  simp only [Disk.perform] at hp
  cases hp
  exact h.drop fun p' k hk => by simp [hk]

theorem Inv.move (h : Inv sid agent s q) {src dst : Box} {name : String} {l : Option Lease}
    (hn : dotted name = false) {c : Choice} {a : Except OsErr Unit}
    (hp : s.perform i (.replace ⟨.box sid agent src, name⟩ ⟨.box sid agent dst, name⟩ l) c =
      some (a, s')) : Inv sid agent s' (Function.update q i (q i)) := by
  refine h.plain ?_ hp rfl (fun name' f hf => ?_) rfl (fun _ _ hx => .inl hx) (fun _ _ hx => hx)
  · intro p hmem _
    simp only [Op.targets, List.mem_cons, List.not_mem_nil, or_false] at hmem
    rcases hmem with rfl | rfl <;> exact hn
  · by_cases hname : name' = name
    · rw [hname]; exact .inr hn
    · left
      rw [Disk.perform_get? hp (by simp [Op.targets, inboxPath, hname])] at hf
      exact ⟨f, hf⟩

theorem Inv.quarantine (h : Inv sid agent s q) {name : String} {c : Choice} {a : Except OsErr Unit}
    (hp : s.perform i (.replace ⟨.box sid agent .inbox, name⟩ ⟨.box sid agent .corrupt, name⟩ none)
      c = some (a, s')) : Inv sid agent s' (Function.update q i (q i)) := by
  refine h.plain (by simp [Plain, Op.targets]) hp rfl (fun name' f hf => .inl ?_) rfl
    (fun _ _ hx => .inl hx) (fun _ _ hx => hx)
  rcases Disk.perform_replace hp with ⟨e, -, rfl⟩ | ⟨-, ⟨g, hg⟩, rfl⟩
  · exact ⟨f, hf⟩
  · rw [Files.get?_move hg, if_neg (by simp [inboxPath])] at hf
    split_ifs at hf
    exact ⟨f, hf⟩

theorem Inv.read (h : Inv sid agent s q) {p : MPath} {a : Except OsErr Data}
    (hG : RereadsWell s i (.read p) c) (hp : s.perform i (.read p) c = some (a, s')) :
    (role sid agent).assumes (q i) (.read p) a ∧
      Inv sid agent s' (Function.update q i ((role sid agent).next (q i) (.read p) a)) := by
  obtain ⟨rfl, ha⟩ := Disk.perform_read hp
  constructor
  · rcases ha with ⟨-, rfl⟩ | ⟨-, rfl⟩ | ⟨f, hf, rfl⟩
    · trivial
    · trivial
    · refine ⟨fun key hk => ?_, fun name hn => ?_⟩
      · rw [hk] at hf
        exact h.claims key f hf
      · rw [hn] at hf
        exact h.inbox name f hf
  · cases hq : q i with
    | held key =>
      simp only
      split
      · next hpk =>
        refine h.plain (by simp [Plain, Op.targets]) hp rfl (fun _ f hf => .inl ⟨f, hf⟩)
          (by rw [hq]; rfl) (fun key' answer hx => .inr fun f hf => ?_) nofun
        -- the disk does not fail here, because the lock is held
        cases hx
        subst hpk
        rcases ha with ⟨hfault, -⟩ | ⟨hnone, -⟩ | ⟨f', hf', rfl⟩
        · have hsome : (s'.files.get? (claimPath sid agent key)).isSome = true := by rw [hf]; rfl
          exact absurd rfl (hG hfault _ rfl (startsWith_claimName key) hsome _
            (h.holds i key (by rw [hq]; rfl)))
        · rw [claimPath, hnone] at hf
          cases hf
        · rw [claimPath, hf'] at hf
          cases hf
          rfl
      · have := h.self i; rwa [hq] at this
    | idle => have := h.self i; rwa [hq] at this
    | seen key answer => have := h.self i; rwa [hq] at this
    | staged key j => have := h.self i; rwa [hq] at this

theorem Inv.look (h : Inv sid agent s q) (ho : o.looks = true) {a : Ans o}
    (hG : RereadsWell s i o c) (hp : s.perform i o c = some (a, s')) :
    (role sid agent).assumes (q i) o a ∧
      Inv sid agent s' (Function.update q i ((role sid agent).next (q i) o a)) := by
  have hother (ht : o.targets = []) (hl : o.locking = false) :
      Inv sid agent s' (Function.update q i (q i)) :=
    h.plain (by simp [Plain, ht]) hp hl
      (fun name f hf => .inl ⟨f, by rwa [Disk.perform_get? hp (by simp [ht])] at hf⟩) rfl
      (fun _ _ hx => .inl hx) (fun _ _ hx => hx)
  cases o with
  | read p => exact h.read hG hp
  | _ => first | cases ho; done | exact ⟨trivial, hother rfl rfl⟩

theorem opKeeps : Pool.OpKeeps world (role sid agent) Guarded (Inv sid agent) := by
  intro s q i o c a s' h ho hG hp
  generalize hq : q i = x at ho
  cases ho with
  | look ho => exact hq ▸ h.look ho hG.2.2.2 hp
  | lock key =>
    refine ⟨trivial, ?_⟩
    have hkey : between ".claimlock-" ".lock" (claimLockName key) = key := between_append _ _ _
    have : Inv sid agent s' (Function.update q i (.held key)) := h.lock (c := c) hp
    simpa only [hkey] using this
  | unlock hk => exact ⟨trivial, h.unlock (c := c) hp⟩
  | unlink hn => exact ⟨trivial, hq ▸ h.unlink hp⟩
  | draft hj => exact ⟨trivial, hq ▸ h.draft hj hp⟩
  | create hj => exact ⟨trivial, hq ▸ h.create hj hG.2.1 hp⟩
  | link key n => exact ⟨trivial, hq ▸ h.link hG.2.1 hp⟩
  | move hn => exact ⟨trivial, hq ▸ h.move hn hp⟩
  | quarantine name => exact ⟨trivial, hq ▸ h.quarantine hp⟩
  | recycle hn _ => exact ⟨trivial, hq ▸ h.move hn hp⟩
  | stage hk => exact ⟨trivial, hq ▸ h.stage (hq ▸ hk) hp⟩
  | renew hj => exact ⟨trivial, hq ▸ h.renew hq hj hG.2.2.1 hp⟩

theorem crashKeeps : Pool.CrashKeeps world (role sid agent) (Inv sid agent) :=
  fun _ _ _ h => ⟨.idle, h.drop fun _ _ hk => by simp [hk]⟩

/-! ## The result -/

theorem inv_start (hs : Start sid agent s) : Inv sid agent s fun _ => .idle where
  claims key f hf := by
    rw [claimPath, hs.processing _ (dotted_claimName key)] at hf
    cases hf
  drafts key n f hf := by
    rw [draftPath, hs.processing _ (dotted_tmpClaimName key n)] at hf
    cases hf
  inbox name f hf hn := by
    by_contra hd
    rw [inboxPath, hs.inbox name hn (by simpa using hd)] at hf
    cases hf
  holds i key hk := by cases hk
  unique p i j hi := by
    rw [hs.locks] at hi
    cases hi
  seen i key answer f hk := by cases hk
  staged i key j f hk := by cases hk

theorem mem_claimsOn {d : Dir} {cl : String × Json} (h : cl ∈ claimsOn s d name) :
    globMatch ".claim-" ".json" cl.1 = true ∧
      ∃ f, s.files.get? ⟨d, cl.1⟩ = some f ∧ f.data = .json cl.2 := by
  simp only [claimsOn, List.mem_filterMap, List.mem_filter] at h
  obtain ⟨cf, ⟨-, hglob⟩, h⟩ := h
  split at h
  · next j t n hf =>
    split_ifs at h
    cases h
    exact ⟨hglob, _, hf, rfl⟩
  · cases h

/-- Under the lock, with the only claim re-read as expired, no claim on the
message is active. -/
theorem sparesActive_of_inv (o : Op) (c : Choice) (h : Inv sid agent s q)
    (ho : Allowed sid agent (q i) o) (hG : Guarded s i o c) : SparesActive s i o c := by
  intro x hx cl hcl ts hts
  generalize hq : q i = y at ho
  cases ho with
  | @recycle key name answer cutoff hn hlt =>
    cases hx
    obtain ⟨-, f, hf, hdata⟩ := mem_claimsOn hcl
    have hsole := hG.1 _ rfl cl hcl
    rw [hsole] at hf
    have hans := h.seen i key answer f hq hf
    exact hlt cl.2 ts (by rw [hans, hdata]) hts
  | look ho => cases o <;> first | cases hx | cases ho
  | _ => cases hx

/-- **Active claims are not recycled.**  In every run of the consuming calls on
one mailbox, with crashes anywhere, whose steps meet `Guarded`: whenever a
message is taken out of `processing` for an expired claim, every claim on it is
older than the cutoff. -/
theorem active_claims_kept (sid agent : String) (fuel : ℕ) (s : Disk) (hs : Start sid agent s)
    (reqs : ℕ → Option Request) (hreqs : ∀ i r, reqs i = some r → Consumes sid agent r)
    (es : List (Event Choice)) (hes : (pool fuel s reqs).Admits world Guarded es) :
    (pool fuel s reqs).Admits world SparesActive es := by
  refine Pool.admits_of_keeps (R := role sid agent) (Q := fun _ _ _ => True) opKeeps crashKeeps
    (fun s q i o c h ho hG => sparesActive_of_inv o c h ho hG) es ?_ hes
  refine ⟨fun _ => .idle, inv_start hs, fun i => ?_⟩
  cases h : reqs i with
  | none => simp [pool, h]
  | some r => simpa [pool, h] using call_keeps fuel (hreqs i r h)

/-! ## Two runs -/

/-- The message `m` lies in the inbox of `b`. -/
def oneMessage : Disk :=
  (newSession "s" "a" ["b"] 0).write ⟨.box "s" "b" .inbox, "m.json"⟩
    (.json (messageOf notice "m" (isoFormat 0) []).toDict) 0

theorem oneMessage_start : Start "s" "b" oneMessage where
  processing name _ := by
    rw [oneMessage, Disk.write, newSession, Files.get?_write_ne _ _ _ (by simp),
      Files.get?_write_ne _ _ _ (by simp), Files.get?_empty]
  inbox name _ hd := by
    have hne : name ≠ "m.json" := by
      rintro rfl
      exact absurd hd (by decide)
    rw [oneMessage, Disk.write, newSession, Files.get?_write_ne _ _ _ (by simp [hne]),
      Files.get?_write_ne _ _ _ (by simp), Files.get?_empty]
  locks := rfl

/-- Two workers of `b` and a recovery. -/
def workersAndRecovery : ℕ → Option Request
  | 0 => some (.read { sessionId := "s", agentId := "b", owner := "w1" })
  | 1 => some (.read { sessionId := "s", agentId := "b", owner := "w2" })
  | 2 => some (.recoverStale "s" "b")
  | _ => none

theorem workersAndRecovery_consumes :
    ∀ i r, workersAndRecovery i = some r → Consumes "s" "b" r := by
  intro i r h
  match i with
  | 0 | 1 | 2 => cases h; exact ⟨rfl, rfl⟩
  | _ + 3 => cases h

/-- A clock reading of `t` seconds. -/
def atSecond (t : ℕ) : Choice := { time := t * 1000000 }

/-- The first worker takes the message and goes silent; the recovery runs 4000
seconds later. -/
def silentWorker : List (Event Choice) := steps 0 13 (atSecond 0) ++ steps 2 12 (atSecond 4000)

theorem active_claims_kept_silentWorker :
    (Pool.run world (pool 2 oneMessage workersAndRecovery) silentWorker).shared.files.get?
      ⟨.box "s" "b" .processing, "m.json"⟩ = none ∧
    (pool 2 oneMessage workersAndRecovery).Admits world SparesActive silentWorker :=
  ⟨by decide +kernel, active_claims_kept "s" "b" 2 oneMessage oneMessage_start workersAndRecovery
    workersAndRecovery_consumes silentWorker (by decide +kernel)⟩

/-- The first worker dies between publishing its claim and moving the message; the
second worker takes the message 4000 seconds later, and the recovery runs at
once. -/
def leftoverClaim : List (Event Choice) :=
  steps 0 11 (atSecond 0) ++ [.crash 0] ++ steps 1 13 (atSecond 4000) ++ steps 2 9 (atSecond 4000)

/-- **A leftover claim takes the message from its live owner.** -/
theorem leftover_claim_recycles :
    (Pool.run world (pool 2 oneMessage workersAndRecovery) leftoverClaim).shared.files.get?
      ⟨.box "s" "b" .processing, "m.json"⟩ = none ∧
    ¬ (pool 2 oneMessage workersAndRecovery).Admits world SparesActive leftoverClaim := by
  constructor <;> decide +kernel

end Leases

end AiMeshChat.Mailbox
