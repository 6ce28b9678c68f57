import AiMeshChat.Gateway.Merges
import AiMeshChat.Lib.Crash

/-!
# Latches after a restart

A save takes its copy of the latches before it writes, and the temporary file is common to
all. So a save may rename a file that another call has just cut to nothing, or put an older
copy over a newer one, and a latch that `write_merge` has confirmed is gone after a restart.

`Publishes` is the condition on a rename, and `latches_survive` says that nothing else can
lose a latch, wherever the gateway is stopped.
-/

namespace AiMeshChat.Gateway

open Lib

/-- After the rename the file has the whole text of a copy that is at least as new as that of
the call and the one in the file before, and no call is still writing to it. -/
def Publishes (s : MergeState) (i : ℕ) (o : MergeOp) (_ : MergeChoice) : Prop :=
  match o with
  | .replace =>
    match s.disk.tmp with
    | none => s.past.copied i ≤ s.past.published
    | some ino =>
      s.disk.bytes ino = mergesBytes (s.past.tables (s.past.copied (s.disk.opener ino))) ∧
        (∀ f ∈ s.disk.fds, f.ino ≠ ino) ∧
        s.past.copied i ≤ s.past.copied (s.disk.opener ino) ∧
        s.past.published ≤ s.past.copied (s.disk.opener ino)
  | _ => True

instance decidablePublishes (s : MergeState) (i : ℕ) (o : MergeOp) (c : MergeChoice) :
    Decidable (Publishes s i o c) :=
  match o with
  | .replace =>
    match h : s.disk.tmp with
    | none => decidable_of_iff (s.past.copied i ≤ s.past.published) (by simp only [Publishes, h])
    | some ino => decidable_of_iff
        (s.disk.bytes ino = mergesBytes (s.past.tables (s.past.copied (s.disk.opener ino))) ∧
          (∀ f ∈ s.disk.fds, f.ino ≠ ino) ∧
          s.past.copied i ≤ s.past.copied (s.disk.opener ino) ∧
          s.past.published ≤ s.past.copied (s.disk.opener ino))
        (by simp only [Publishes, h])
  | .set _ | .clear _ _ | .copy | .openTmp | .write _ | .closeTmp => isTrue trivial

/-- The gateway is stopped in this state, and a fresh one restores the file. It has each
latch that a call has merged and nobody has cleared since, and a write that is in conflict
with it fails. -/
def Survive (d : ℕ) (s : Pool MergeOp MergeAns MergeState GatewayErr MergeAnswer) : Prop :=
  ∃ t, restoreMerges (d + 2) s.shared.disk.content = .ok t ∧
    ∀ i l v, s.shared.past.held i = some (l, v) → (s.procs i).returned? = some .merged →
      t.get? l.key = some l ∧ ∀ p tmp j, l.key = ⟨p.sessionId, p.targetPath⟩ → p.sha256 ≠ l.sha256 →
        (writeMerge p).Total mergeWorld j (fun _ => True) (fun _ => True)
          (.fresh s.shared.disk.content tmp t) fun r s' => (∃ e, r = .error e) ∧ s'.merges = t

/-! ## What a call does in which order -/

/-- How far a call has come: nothing done, the latches changed, copied, the file renamed. -/
inductive SavePhase
  | start
  | changed
  | copied
  | renamed
  deriving DecidableEq

def mergeRole : Role MergeOp MergeAns where
  St := SavePhase
  allows q
    | .set _ | .clear _ _ => q = .start
    | .copy => q = .changed
    | .replace => q = .copied
    | _ => True
  assumes _ _ _ := True
  next q
    | .set _, none => .changed
    | .clear _ _, _ => .changed
    | .copy, _ => .copied
    | .replace, _ => .renamed
    | _, _ => q

/-- A call that has merged has saved. -/
def Saved (_ : ℕ) (q : SavePhase) (r : Except GatewayErr MergeAnswer) : Prop :=
  r = .ok .merged → q = .renamed

theorem writeAll_only (n : ℕ) (bytes : List UInt8) :
    (writeAll n bytes).Only (mergeRole.Ignores .copied) := by
  induction n generalizing bytes with
  | zero => cases bytes <;> trivial
  | succ n ih =>
    cases bytes with
    | nil => trivial
    | cons b bytes => exact ⟨⟨trivial, fun _ => rfl⟩, fun k => ih _⟩

theorem saveMerges_keeps :
    saveMerges.Keeps mergeRole .changed fun q r => r = .ok () → q = .renamed := by
  refine Prog.keeps_op_bind rfl fun t _ => ?_
  refine Prog.keeps_ignored_bind ⟨trivial, fun _ => rfl⟩ fun _ _ => ?_
  refine (writeAll_only _ _).keeps_bind (Prog.rets_true _) (fun _ h => h) (fun _ _ => ?_) nofun
  refine Prog.keeps_ignored_bind ⟨trivial, fun _ => rfl⟩ fun _ _ => ?_
  exact Prog.keeps_op_bind rfl fun _ _ _ => rfl

theorem writeMerge_keeps (i : ℕ) (p : MergeParams) :
    (writeMerge p).Keeps mergeRole .start (Saved i) := by
  unfold writeMerge
  split
  · refine Prog.keeps_op_bind rfl fun found _ => ?_
    cases found with
    | some existing => exact nofun
    | none => exact saveMerges_keeps.bind (fun q _ h _ => h rfl) fun _ _ _ => nofun
  · exact nofun

theorem mergeReset_keeps (i : ℕ) (sessionId targetPath : String) :
    (mergeReset sessionId targetPath).Keeps mergeRole .start (Saved i) := by
  unfold mergeReset
  split
  · exact nofun
  · refine Prog.keeps_op_bind rfl fun removed _ => ?_
    dsimp only
    split
    · exact saveMerges_keeps.bind (fun _ _ _ => nofun) fun _ _ _ => nofun
    · exact nofun

theorem mergePool_keeps (reqs : ℕ → Option MergeRequest) (s : MergeState) (i : ℕ) :
    ((mergePool s reqs).procs i).Keeps mergeRole .start (Saved i) := by
  unfold mergePool
  dsimp only
  split
  · next r _ =>
    cases r with
    | write p => exact writeMerge_keeps i p
    | reset sessionId targetPath => exact mergeReset_keeps i sessionId targetPath
  · trivial

/-! ## The invariant -/

/-- A latch that is held is in every table since it was set. -/
def Holds (past : MergePast) : Prop :=
  ∀ i l v, past.held i = some (l, v) → v ≤ past.version ∧
    ∀ n, v ≤ n → n ≤ past.version → (past.tables n).get? l.key = some l

structure Restorable (d : ℕ) (s : MergeState) (q : ℕ → SavePhase) : Prop where
  settled : s.disk.Settled
  current : s.past.tables s.past.version = s.merges
  published : s.past.published ≤ s.past.version
  file : restoreMerges (d + 2) s.disk.content = .ok (s.past.tables s.past.published)
  copied : ∀ i, s.past.copied i ≤ s.past.version
  holds : Holds s.past
  /-- A copy has the latch of its process. -/
  fresh : ∀ i, q i = .copied ∨ q i = .renamed → ∀ l v, s.past.held i = some (l, v) →
    v ≤ s.past.copied i
  /-- What is in the file is no older than the copy of a call that has saved. -/
  saved : ∀ i, q i = .renamed → s.past.copied i ≤ s.past.published

variable {d : ℕ} {s : MergeState} {q : ℕ → SavePhase} {i : ℕ}

theorem Restorable.stay (h : Restorable d s q) : Restorable d s (Function.update q i (q i)) := by
  rw [Function.update_eq_self]
  exact h

theorem Restorable.change (h : Restorable d s q) {t : Latches} {held : ℕ → Option (Latch × ℕ)}
    (hnew : ∀ j l v, held j = some (l, v) → t.get? l.key = some l ∧
      (v = s.past.version + 1 ∧ j = i ∨ s.past.held j = some (l, v))) :
    Restorable d (s.change t held) (Function.update q i .changed) := by
  have hold {n : ℕ} (hn : n ≤ s.past.version) :
      Function.update s.past.tables (s.past.version + 1) t n = s.past.tables n :=
    Function.update_of_ne (by omega) _ _
  refine ⟨h.settled, Function.update_self .., Nat.le_succ_of_le h.published, ?_,
    fun j => Nat.le_succ_of_le (h.copied j), fun j l v hj => ?_, fun j hj l v hl => ?_,
    fun j hj => ?_⟩
  · show restoreMerges (d + 2) s.disk.content =
      .ok (Function.update s.past.tables (s.past.version + 1) t s.past.published)
    rw [hold h.published]
    exact h.file
  · obtain ⟨hget, hwhen⟩ := hnew j l v hj
    have hv : v ≤ s.past.version + 1 := by
      rcases hwhen with ⟨hv, -⟩ | hbefore
      · omega
      · exact Nat.le_succ_of_le (h.holds j l v hbefore).1
    refine ⟨hv, fun n hvn hn => ?_⟩
    show (Function.update s.past.tables (s.past.version + 1) t n).get? l.key = some l
    by_cases hlast : n = s.past.version + 1
    · rw [hlast, Function.update_self]
      exact hget
    · have hn' : n ≤ s.past.version := by
        have hle : n ≤ s.past.version + 1 := hn
        omega
      rw [hold hn']
      rcases hwhen with ⟨hv, -⟩ | hbefore
      · omega
      · exact (h.holds j l v hbefore).2 n hvn hn'
  · have hne : j ≠ i := by
      rintro rfl
      rw [Function.update_self] at hj
      rcases hj with hj | hj <;> cases hj
    rw [Function.update_of_ne hne] at hj
    rcases (hnew j l v hl).2 with ⟨-, hji⟩ | hbefore
    · exact absurd hji hne
    · exact h.fresh j hj l v hbefore
  · have hne : j ≠ i := by
      rintro rfl
      rw [Function.update_self] at hj
      cases hj
    rw [Function.update_of_ne hne] at hj
    exact h.saved j hj

theorem Restorable.latch (h : Restorable d s q) {l : Latch}
    (hfree : ∀ e, s.merges.get? l.key = some e → e.sha256 = l.sha256) :
    Restorable d (s.latch i l) (Function.update q i .changed) := by
  refine h.change fun j l' v hj => ?_
  by_cases hji : j = i
  · subst hji
    rw [Function.update_self] at hj
    cases hj
    exact ⟨Rows.get?_put_self .., .inl ⟨rfl, rfl⟩⟩
  · rw [Function.update_of_ne hji] at hj
    refine ⟨?_, .inr hj⟩
    have hget : s.merges.get? l'.key = some l' := by
      rw [← h.current]
      exact (h.holds j l' v hj).2 _ (h.holds j l' v hj).1 (Nat.le_refl _)
    rw [Rows.get?_put]
    split
    · next hkey =>
      -- the same latch again
      have hsha := hfree l' (hkey ▸ hget)
      obtain ⟨key', sha', named'⟩ := l'
      obtain ⟨key, sha, named⟩ := l
      cases hkey
      cases hsha
      rfl
    · exact hget

theorem Restorable.clear (h : Restorable d s q) (p : Latch → Bool) :
    Restorable d (s.change (s.merges.delete p)
      fun j => (s.past.held j).filter fun x => !p x.1) (Function.update q i .changed) := by
  refine h.change fun j l v hj => ?_
  obtain ⟨hheld, hkept⟩ := Option.filter_eq_some_iff.mp hj
  refine ⟨?_, .inr hheld⟩
  have hget : s.merges.get? l.key = some l := by
    rw [← h.current]
    exact (h.holds j l v hheld).2 _ (h.holds j l v hheld).1 (Nat.le_refl _)
  rw [Rows.get?_delete, hget, Option.filter_some, if_pos hkept]

theorem Restorable.copy (h : Restorable d s q) :
    Restorable d
      { s with past := { s.past with copied := Function.update s.past.copied i s.past.version } }
      (Function.update q i .copied) := by
  refine ⟨h.settled, h.current, h.published, h.file, fun j => ?_, h.holds, fun j hj l v hl => ?_,
    fun j hj => ?_⟩
  · show Function.update s.past.copied i s.past.version j ≤ s.past.version
    by_cases hji : j = i
    · rw [hji, Function.update_self]
    · rw [Function.update_of_ne hji]
      exact h.copied j
  · show v ≤ Function.update s.past.copied i s.past.version j
    by_cases hji : j = i
    · rw [hji, Function.update_self]
      exact (h.holds j l v hl).1
    · rw [Function.update_of_ne hji] at hj ⊢
      exact h.fresh j hj l v hl
  · show Function.update s.past.copied i s.past.version j ≤ s.past.published
    have hne : j ≠ i := by
      rintro rfl
      rw [Function.update_self] at hj
      cases hj
    rw [Function.update_of_ne hne] at hj ⊢
    exact h.saved j hj

theorem Restorable.disk (h : Restorable d s q) {disk : TempFile} (hsettled : disk.Settled)
    (hcontent : disk.content = s.disk.content) : Restorable d { s with disk := disk } q :=
  { h with
    settled := hsettled
    file := hcontent ▸ h.file }

theorem Restorable.renamed (h : Restorable d s q) (hcopied : q i = .copied) {disk : TempFile}
    {n : ℕ} (hsettled : disk.Settled) (hn : n ≤ s.past.version)
    (hfile : restoreMerges (d + 2) disk.content = .ok (s.past.tables n))
    (hown : s.past.copied i ≤ n) (hnew : s.past.published ≤ n) :
    Restorable d { s with disk := disk, past := { s.past with published := n } }
      (Function.update q i .renamed) := by
  refine ⟨hsettled, h.current, hn, hfile, h.copied, h.holds, fun j hj l v hl => ?_, fun j hj => ?_⟩
  · by_cases hji : j = i
    · exact h.fresh j (.inl (hji ▸ hcopied)) l v hl
    · rw [Function.update_of_ne hji] at hj
      exact h.fresh j hj l v hl
  · show s.past.copied j ≤ n
    by_cases hji : j = i
    · exact hji ▸ hown
    · rw [Function.update_of_ne hji] at hj
      exact (h.saved j hj).trans hnew

theorem op_keeps_restorable (d : ℕ) :
    Pool.OpKeeps mergeWorld mergeRole Publishes (Restorable d) := by
  intro s q i o c a s' h hallow hG hw
  refine ⟨trivial, ?_⟩
  cases o with
  | set l =>
    simp only [mergeWorld, MergeState.perform] at hw
    split at hw
    · next existing hget =>
      split at hw
      · cases hw
        exact h.stay
      · next hsame =>
        cases hw
        refine h.latch fun e he => ?_
        rw [hget] at he
        cases he
        exact not_not.mp hsame
    · next hget =>
      cases hw
      refine h.latch fun e he => ?_
      rw [hget] at he
      cases he
  | clear sessionId targetPath =>
    cases hw
    exact h.clear _
  | copy =>
    cases hw
    exact h.copy
  | openTmp =>
    cases hw
    exact (h.disk h.settled.truncate (TempFile.content_truncate h.settled)).stay
  | write bytes =>
    cases hw
    exact (h.disk (h.settled.write _) (TempFile.content_write h.settled _)).stay
  | closeTmp =>
    cases hw
    exact (h.disk h.settled.close rfl).stay
  | replace =>
    cases hw
    have hcond : Publishes s i .replace c := hG
    simp only [Publishes] at hcond
    show Restorable d _ (Function.update q i .renamed)
    cases htmp : s.disk.tmp with
    | none =>
      rw [htmp] at hcond
      rw [TempFile.rename_of_none htmp]
      exact h.renamed hallow h.settled h.published h.file hcond (Nat.le_refl _)
    | some ino =>
      rw [htmp] at hcond
      obtain ⟨hbytes, hclosed, hown, hnew⟩ := hcond
      refine h.renamed hallow (h.settled.rename htmp hclosed) (h.copied _) ?_ hown hnew
      rw [TempFile.content_rename htmp, hbytes]
      exact restoreMerges_mergesBytes d _

theorem crash_keeps_restorable (d : ℕ) :
    Pool.CrashKeeps mergeWorld mergeRole (Restorable d) := by
  intro s q i h
  exact ⟨q i, (h.disk h.settled.close rfl).stay⟩

theorem restorable_fresh {file : Option (List UInt8)} (tmp : Option (List UInt8)) {t : Latches}
    (hfile : restoreMerges (d + 2) file = .ok t) :
    Restorable d (MergeState.fresh file tmp t) fun _ => .start := by
  have hino {o : Option (List UInt8)} {n ino : ℕ} (h : o.map (fun _ => n) = some ino) : ino = n := by
    obtain ⟨-, -, rfl⟩ := Option.map_eq_some_iff.mp h
    rfl
  have hcontent : (MergeState.fresh file tmp t).disk.content = file := by
    cases file <;> rfl
  refine ⟨⟨fun ino h => ?_, fun ino h => ?_, fun ino h h' => ?_, fun _ _ f hf => absurd hf List.not_mem_nil⟩,
    rfl, Nat.le_refl _, ?_, fun _ => Nat.le_refl _, nofun, fun _ h => ?_, fun _ h => ?_⟩
  · rw [hino h]
    exact Nat.zero_lt_two
  · rw [hino h]
    exact Nat.one_lt_two
  · have hzero := hino h
    rw [hino h'] at hzero
    cases hzero
  · rw [hcontent]
    exact hfile
  · rcases h with h | h <;> cases h
  · cases h

/-! ## Restarts -/

theorem writeMerge_conflict {p : MergeParams} {l : Latch} {s : MergeState}
    (hget : s.merges.get? l.key = some l) (hkey : l.key = ⟨p.sessionId, p.targetPath⟩)
    (hne : p.sha256 ≠ l.sha256) (i : ℕ) :
    (writeMerge p).Total mergeWorld i (fun _ => True) (fun _ => True) s fun r s' =>
      (∃ e, r = .error e) ∧ s'.merges = s.merges := by
  unfold writeMerge
  split
  · refine ⟨trivial, fun c _ => ⟨some l.sha256, s, ?_, trivial, ⟨_, rfl⟩, rfl⟩⟩
    simp only [mergeWorld, MergeState.perform, ← hkey, hget, hne.symm, ne_eq, not_false_eq_true,
      if_true]
  · exact ⟨trivial, ⟨_, rfl⟩, rfl⟩

/-- **The latches survive a restart at any time**, if every rename publishes a copy that is
new enough. -/
theorem latches_survive {d : ℕ} {file : Option (List UInt8)} (tmp : Option (List UInt8))
    {t : Latches} (read : restoreMerges (d + 2) file = .ok t) (reqs : ℕ → Option MergeRequest)
    {es : List (Event MergeChoice)}
    (h : (mergePool (.fresh file tmp t) reqs).Admits mergeWorld Publishes es) :
    Survive d (Pool.run mergeWorld (mergePool (.fresh file tmp t) reqs) es) := by
  have hstart : (mergePool (.fresh file tmp t) reqs).Kept mergeRole (Restorable d) Saved :=
    ⟨fun _ => .start, restorable_fresh tmp read, fun i => mergePool_keeps reqs _ i⟩
  obtain ⟨q, hJ, hq⟩ :=
    Pool.run_keeps (op_keeps_restorable d) (crash_keeps_restorable d) es hstart h
  refine ⟨_, hJ.file, fun i l v hheld hret => ?_⟩
  have hrenamed : q i = .renamed := by
    have hi := hq i
    cases hp : (Pool.run mergeWorld (mergePool (.fresh file tmp t) reqs) es).procs i with
    | ret a =>
      rw [hp] at hi hret
      cases hret
      exact hi rfl
    | _ =>
      rw [hp] at hret
      cases hret
  have hv := (hJ.fresh i (.inr hrenamed) l v hheld).trans (hJ.saved i hrenamed)
  have hget := (hJ.holds i l v hheld).2 _ hv hJ.published
  exact ⟨hget, fun p tmp' j hkey hne =>
    writeMerge_conflict (s := .fresh _ tmp' _) hget hkey hne j⟩

/-- Two calls that merge two paths. -/
def twoWrites : ℕ → Option MergeRequest
  | 0 => some (.write ⟨"s", "p", "a"⟩)
  | 1 => some (.write ⟨"s", "q", "b"⟩)
  | _ => none

/-- Both change the latches, and one of them saves. -/
theorem latches_survive_first_saved :
    Survive 0 (Pool.run mergeWorld (mergePool (.fresh none none Rows.empty) twoWrites)
      ([.tick 0 {}, .tick 1 {}] ++ List.replicate 5 (.tick 0 {}))) :=
  latches_survive none rfl twoWrites (by decide +kernel)

/-- The first call copies the latches before the second changes them, and renames after it. -/
def staleCopy : List (Event MergeChoice) :=
  [.tick 0 {}, .tick 0 {}] ++ List.replicate 6 (.tick 1 {}) ++ List.replicate 4 (.tick 0 {})

/-- The latch of the second call is lost. -/
theorem latch_overwritten : ¬ ∀ (d : ℕ) (file tmp : Option (List UInt8)) (t : Latches)
    (reqs : ℕ → Option MergeRequest) (es : List (Event MergeChoice)),
    restoreMerges (d + 2) file = .ok t →
      Survive d (Pool.run mergeWorld (mergePool (.fresh file tmp t) reqs) es) := by
  intro h
  obtain ⟨t, hread, hheld⟩ := h 0 none none Rows.empty twoWrites staleCopy rfl
  have hrun : (Pool.run mergeWorld (mergePool (.fresh none none Rows.empty) twoWrites)
        staleCopy).shared.past.held 1 = some (⟨⟨"s", "q"⟩, "b", by decide⟩, 2) ∧
      ((Pool.run mergeWorld (mergePool (.fresh none none Rows.empty) twoWrites)
        staleCopy).procs 1).returned? = some .merged ∧
      ((restoreMerges 2 (Pool.run mergeWorld (mergePool (.fresh none none Rows.empty) twoWrites)
        staleCopy).shared.disk.content).toOption.bind (·.get? ⟨"s", "q"⟩)) = none := by
    decide +kernel
  obtain ⟨hset, hret, hlost⟩ := hrun
  have hget := (hheld 1 _ 2 hset hret).1
  rw [hread] at hlost
  rw [show t.get? ⟨"s", "q"⟩ = none from hlost] at hget
  cases hget

end AiMeshChat.Gateway
