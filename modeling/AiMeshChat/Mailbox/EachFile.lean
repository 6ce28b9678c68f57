import AiMeshChat.Mailbox.Reader

/-!
# Invariants of the single files

An invariant that looks at one file at a time, at its path and its content (`Φ`), is kept
by every operation that writes what fits its place and moves a file only to where it fits
again (`Op.Fits`). What a call reads then fits too, and a call may rely on that
(`Vouches`).

The rule is `eachFile_run`: when every call vouches for its operations, all files fit in
every state that the calls reach, in any order and with crashes.
-/

namespace AiMeshChat.Mailbox

open Lib

section Rule

variable (Φ : MPath → Data → Prop)

/-- What is written fits its place, and what is moved fits the new place as it fitted the old. -/
def Op.Fits : Op → Prop
  | .write p x | .writeNew p x => Φ p x
  | .replace src dst _ | .link src dst => ∀ x, Φ src x → Φ dst x
  | .openFd p => Φ p .junk
  | _ => True

/-- The role of a call that performs only such operations. -/
abbrev fileRole : Role Op Ans where
  St := Unit
  allows _ o := o.Fits Φ
  assumes _ o a := match o, a with
    | .read p, .ok x => Φ p x
    | _, _ => True
  next _ _ _ := ()

/-- Every file lies in a directory that is there, and fits its place. -/
def EachFile (s : Disk) : Prop := ∀ p f, s.files.get? p = some f → p.dir ∈ s.dirs ∧ Φ p f.data

/-- The call performs only operations that fit, and returns values in `M` if what it reads fits. -/
def Vouches {α : Type} (p : Call α) (M : α → Prop) : Prop :=
  p.Keeps (fileRole Φ) () fun _ r => ∀ a, r = .ok a → M a

variable {Φ} {s s' : Disk} {i : ℕ} {o : Op} {c : Choice}

/-! ### Steps -/

theorem EachFile.step (h : EachFile Φ s) (hdirs : s'.dirs = s.dirs)
    (hnew : ∀ p f, s'.files.get? p = some f →
      s.files.get? p = some f ∨ p.dir ∈ s.dirs ∧ Φ p f.data) : EachFile Φ s' := by
  intro p f hf
  rw [hdirs]
  rcases hnew p f hf with hold | hfits
  · exact h p f hold
  · exact hfits

theorem EachFile.put (h : EachFile Φ s) (hdirs : s'.dirs = s.dirs) {q : MPath} {g : MFile}
    (hget : ∀ r, s'.files.get? r = if r = q then some g else s.files.get? r)
    (hq : q.dir ∈ s.dirs) (hg : Φ q g.data) : EachFile Φ s' := by
  refine h.step hdirs fun p f hf => ?_
  rw [hget] at hf
  split_ifs at hf with hp
  · cases hf
    exact .inr ⟨hp ▸ hq, hp ▸ hg⟩
  · exact .inl hf

theorem EachFile.write (h : EachFile Φ s) {q : MPath} {x : Data} (hq : q.dir ∈ s.dirs)
    (hx : Φ q x) (t : ℕ) : EachFile Φ (s.write q x t) := by
  obtain ⟨n, hn⟩ := Files.get?_write s.files q x t
  exact h.put rfl hn hq hx

theorem EachFile.move (h : EachFile Φ s) {src dst : MPath} (hdst : dst.dir ∈ s.dirs)
    (hfits : ∀ x, Φ src x → Φ dst x) {f : MFile} (hf : s.files.get? src = some f) :
    EachFile Φ { s with files := s.files.move src dst } := by
  refine h.step rfl fun p g hg => ?_
  rw [Files.get?_move hf] at hg
  split_ifs at hg with hp
  · cases hg
    exact .inr ⟨hp ▸ hdst, hp ▸ hfits f.data (h src f hf).2⟩
  · exact .inl hg

theorem EachFile.del (h : EachFile Φ s) (p : MPath) :
    EachFile Φ { s with files := s.files.del p } := by
  refine h.step rfl fun q f hf => ?_
  rw [Files.get?_del] at hf
  split_ifs at hf
  exact .inl hf

/-- **One operation** keeps the invariant. -/
theorem EachFile.perform (h : EachFile Φ s) (ho : o.Fits Φ) {a : Ans o}
    (hw : s.perform i o c = some (a, s')) : EachFile Φ s' := by
  cases o with
  | write p x =>
    simp only [Disk.perform] at hw
    split_ifs at hw with _ hp
    · cases hw; exact h
    · cases hw; exact h.write hp ho c.time
    · cases hw; exact h
  | writeNew p x =>
    simp only [Disk.perform] at hw
    split_ifs at hw with _ hp
    · cases hw; exact h
    · cases hw; exact h
    · cases hw; exact h.write hp ho c.time
    · cases hw; exact h
  | openFd p =>
    simp only [Disk.perform] at hw
    split at hw
    · cases hw; exact h
    · split_ifs at hw with hp
      · cases hw; exact h.write hp ho c.time
      · cases hw; exact h
  | replace src dst l =>
    simp only [Disk.perform] at hw
    split_ifs at hw with _ hno
    · cases hw; exact h
    · cases hw; exact h
    · cases hw
      obtain ⟨hsome, hdst⟩ := not_or.mp hno
      obtain ⟨f, hf⟩ := Option.ne_none_iff_exists'.mp (mt Option.isNone_iff_eq_none.mpr hsome)
      exact h.move (not_not.mp hdst) ho hf
  | link src dst =>
    simp only [Disk.perform] at hw
    cases hsrc : s.files.get? src with
    | none =>
      simp only [hsrc] at hw
      split_ifs at hw <;> cases hw <;> exact h
    | some f =>
      simp only [hsrc] at hw
      split_ifs at hw with _ hdst _
      · cases hw; exact h
      · cases hw; exact h
      · cases hw
        exact h.put rfl (fun r => Files.get?_put s.files dst r f) hdst
          (ho f.data (h src f hsrc).2)
      · cases hw; exact h
  | unlink p =>
    simp only [Disk.perform] at hw
    split_ifs at hw
    · cases hw; exact h
    · cases hw; exact h
    · cases hw; exact h.del p
  | mkdir d =>
    cases hw
    split_ifs with hd
    · exact h
    · intro p f hf
      exact ⟨List.mem_cons_of_mem d (h p f hf).1, (h p f hf).2⟩
  | read p => obtain ⟨rfl, -⟩ := Disk.perform_read hw; exact h
  | stat p =>
    simp only [Disk.perform] at hw
    split at hw <;> cases hw <;> exact h
  | lock p =>
    simp only [Disk.perform] at hw
    split_ifs at hw
    cases hw
    exact h
  | flock n =>
    simp only [Disk.perform] at hw
    split_ifs at hw
    cases hw
    exact h
  | _ => cases hw; exact h

theorem EachFile.assumes (h : EachFile Φ s) {a : Ans o} (hw : s.perform i o c = some (a, s')) :
    (fileRole Φ).assumes () o a := by
  cases o with
  | read p =>
    obtain ⟨-, ⟨-, rfl⟩ | ⟨-, rfl⟩ | ⟨f, hf, rfl⟩⟩ := Disk.perform_read hw
    · trivial
    · trivial
    · exact (h p f hf).2
  | _ => trivial

/-- **The rule for single files.**  All files fit in every state that the calls reach. -/
theorem eachFile_run {ε α : Type} (es : List (Event Choice)) {pool : Pool Op Ans Disk ε α}
    (hs : EachFile Φ pool.shared)
    (hcalls : ∀ j, (pool.procs j).Keeps (fileRole Φ) () fun _ _ => True) :
    EachFile Φ (pool.run world es).shared := by
  have hop : Pool.OpKeeps world (fileRole Φ) (fun _ _ _ _ => True) fun s _ => EachFile Φ s :=
    fun _ _ _ _ _ _ _ h ho _ hw => ⟨h.assumes hw, h.perform ho hw⟩
  have hcrash : Pool.CrashKeeps world (fileRole Φ) fun s _ => EachFile Φ s :=
    fun _ _ _ h => ⟨(), h⟩
  have hkept : pool.Kept (fileRole Φ) (fun s _ => EachFile Φ s) fun _ _ _ => True :=
    ⟨fun _ => (), hs, hcalls⟩
  obtain ⟨_, h, -⟩ := Pool.run_keeps hop hcrash es hkept (Pool.admits_of_forall (by simp) es)
  exact h

/-! ### Calls -/

variable {α β : Type}

theorem Vouches.keeps {p : Call α} {M : α → Prop} (h : Vouches Φ p M) :
    p.Keeps (fileRole Φ) () fun _ _ => True :=
  Prog.Keeps.mono h fun _ _ _ => trivial

theorem vouches_of_keeps {p : Call α} {Q : Unit → Except PyErr α → Prop}
    (h : p.Keeps (fileRole Φ) () Q) : Vouches Φ p fun _ => True :=
  h.mono fun _ _ _ _ _ => trivial

theorem vouches_ret {M : α → Prop} {a : α} (h : M a) : Vouches Φ (.ret a) M := by
  intro b hb
  cases hb
  exact h

theorem vouches_raise {M : α → Prop} (e : PyErr) : Vouches Φ (.raise e) M := by
  intro b hb
  cases hb

theorem Vouches.bind {p : Call α} {f : α → Call β} {M : α → Prop} {N : β → Prop}
    (hp : Vouches Φ p M) (hf : ∀ a, M a → Vouches Φ (f a) N) : Vouches Φ (p >>= f) N := by
  refine Prog.Keeps.bind hp (fun _ a h => hf a (h a rfl)) fun _ e _ b hb => ?_
  cases hb

theorem Vouches.tryCatch {p : Call α} {g : PyErr → Call α} {M : α → Prop} (hp : Vouches Φ p M)
    (hg : ∀ e, Vouches Φ (g e) M) : Vouches Φ (p.tryCatch g) M :=
  Prog.Keeps.tryCatch hp (fun _ _ h => h) fun _ e _ => hg e

theorem vouches_only {p : Call α} {M : α → Prop} (hp : p.Only (Op.Fits Φ)) (hM : p.Rets M) :
    Vouches Φ p M :=
  (hp.keeps_rets (R := fileRole Φ) (q := ()) hM fun _ ho => ⟨ho, fun _ => rfl⟩).mono
    fun _ _ h => h.2

theorem vouches_read {p : MPath} {f : Except OsErr Data → Call β} {N : β → Prop}
    (hf : ∀ r, (∀ x, r = .ok x → Φ p x) → Vouches Φ (f r) N) : Vouches Φ (readBytes p >>= f) N := by
  refine Prog.keeps_ignored_bind ⟨trivial, fun _ => rfl⟩ fun r hr => hf r fun x hx => ?_
  subst hx
  exact hr

theorem fits_of_looks (h : o.looks = true) : o.Fits Φ := by
  cases o <;> trivial

theorem withClaimLock_vouches {processing : Dir} {key : String} {body : Call α} {M : α → Prop}
    (h : Vouches Φ body M) : Vouches Φ (withClaimLock processing key body) M := by
  refine Prog.keeps_ignored_bind ⟨trivial, fun _ => rfl⟩ fun _ _ => ?_
  exact Prog.Keeps.ensure h fun _ _ hr => ⟨trivial, fun _ _ => hr⟩

theorem unlinkMissingOk_fits (p : MPath) : (unlinkMissingOk p).Only (Op.Fits Φ) :=
  unlinkMissingOk_only trivial

end Rule

end AiMeshChat.Mailbox
