import AiMeshChat.Jobs.Manager

/-!
# A finished job stays finished

A child may be so fast that its `mark_done` has ended before the parent calls
`mark_running`, and then `running` replaces the final status; as the child is gone,
`status` makes `stale` of it (`done_job_stale`).

`finished_stays_finished` says that this is the only way. Where the two calls overlap,
one of them finds the common temporary file gone and raises; and once the final status is
in place it stays, because only `mark_running` writes anything else.
-/

namespace AiMeshChat.Jobs

open Lib

/-! ## A job and its callers -/

/-- The parent, the child, and any number of calls of `status`. -/
def jobProcs (jobId : String) (pid : ℤ) (result : RunResult) : ℕ → JobCall (Option JobInfo)
  | 0 => markRunning jobId pid >>= fun _ => .ret none
  | 1 => markDone jobId result >>= fun _ => .ret none
  | _ => status jobId >>= fun info => .ret (some info)

abbrev JobPool := Pool JobOp JobAns JobDir JobErr (Option JobInfo)

/-- The pool after `create_placeholder`. -/
def jobPool (dir : JobDir) (jobId : String) (pid : ℤ) (result : RunResult) : JobPool :=
  ⟨dir, jobProcs jobId pid result⟩

/-- The process has not begun. -/
def Fresh (jobId : String) (s : JobPool) (i : ℕ) : Prop :=
  2 ≤ i ∧ s.procs i = status jobId >>= fun info => .ret (some info)

def JobInfo.Finished (info : JobInfo) : Prop := info.status = "done" ∨ info.status = "failed"

/-- The call reports the final status and the return code of the result. -/
def JobInfo.Reports (info : JobInfo) (result : RunResult) : Prop :=
  info.status = finalStatus result ∧ info.returncode = .int result.returncode

/-- From `s` to a later state: if both writers have ended without an exception in `s`, or a
call of `status` has reported an end, then `result.json` is there and every call that begins
afterwards reports the end. -/
def StaysFinished (jobId : String) (result : RunResult) (s s' : JobPool) : Prop :=
  ((s.procs 0).returned?.isSome ∧ (s.procs 1).returned?.isSome ∨
      ∃ i info, s.procs i = .ret (some info) ∧ info.Finished) →
    s.shared.saved .resultJson = some (resultDict result) ∧
    ∀ j info, Fresh jobId s j → s'.procs j = .ret (some info) → info.Reports result

/-- `mark_running` does not begin to write its status once the final one is in place. -/
def InTime (d : JobDir) (_ : ℕ) (o : JobOp) (_ : JobChoice) : Prop :=
  match o with
  | .writeTmp .status text => text = "running" → d.saved .status = some "pending"
  | _ => True

instance (d : JobDir) (i : ℕ) (c : JobChoice) : (o : JobOp) → Decidable (InTime d i o c)
  | .writeTmp .status text =>
    inferInstanceAs (Decidable (text = "running" → d.saved .status = some "pending"))
  | .writeTmp .metaJson _ | .writeTmp .startedAt _ | .writeTmp .pid _ | .writeTmp .resultJson _
  | .writeTmp .stderrTxt _ | .writeTmp .finishedAt _ => isTrue trivial
  | .dirExists | .rename _ | .writeStderr _ | .exists _ | .read _ | .now | .kill _ => isTrue trivial

/-! ## What each process does -/

/-- How far a writer is with the status: before it, with the temporary file written, and
with the file renamed. The child writes its result first. -/
inductive Phase
  | start
  | before
  | written
  | renamed
  deriving DecidableEq

/-- A writer, or a reader with the status that it has read; a late one begins after the
end. -/
inductive Watch
  | parent (phase : Phase)
  | child (phase : Phase)
  | reader (late : Bool) (seen : Option String)

section

variable (result : RunResult)

/-- What the parent writes under a temporary name. -/
def ParentWrites (ph : Phase) : (f : JobFile) → f.Content → Prop
  | .status, text => ph = .before ∧ text = "running"
  | .startedAt, _ | .pid, _ => True
  | _, _ => False

def ChildWrites (ph : Phase) : (f : JobFile) → f.Content → Prop
  | .resultJson, doc => ph = .start ∧ doc = resultDict result
  | .status, text => ph = .before ∧ text = finalStatus result
  | .finishedAt, _ => True
  | _, _ => False

def ParentRenames (ph : Phase) : JobFile → Prop
  | .status => ph = .written
  | .startedAt | .pid => True
  | _ => False

def ChildRenames (ph : Phase) : JobFile → Prop
  | .resultJson => ph = .start
  | .status => ph = .written
  | .finishedAt => True
  | _ => False

def Watch.Allows (q : Watch) : JobOp → Prop
  | .writeTmp f x =>
    match q with
    | .parent ph => ParentWrites ph f x
    | .child ph => ChildWrites result ph f x
    | .reader _ _ => False
  | .rename f =>
    match q with
    | .parent ph => ParentRenames ph f
    | .child ph => ChildRenames ph f
    | .reader _ _ => False
  | .writeStderr _ =>
    match q with
    | .child _ => True
    | _ => False
  | _ => True

/-- What a late reader finds. -/
def Watch.Assumes (q : Watch) (o : JobOp) (a : JobAns o) : Prop :=
  match q, o, a with
  | .reader true _, .read .status, a => a = some (finalStatus result)
  | .reader true _, .exists .resultJson, a => a = true
  | .reader true _, .read .resultJson, a => a = some (resultDict result)
  | _, _, _ => True

def Watch.next (q : Watch) (o : JobOp) (a : JobAns o) : Watch :=
  match q, o, a with
  | .parent _, .writeTmp .status _, _ => .parent .written
  | .parent _, .rename .status, true => .parent .renamed
  | .child _, .rename .resultJson, true => .child .before
  | .child _, .writeTmp .status _, _ => .child .written
  | .child _, .rename .status, true => .child .renamed
  | .reader late _, .read .status, a => .reader late a
  | q, _, _ => q

abbrev jobRole : Role JobOp JobAns where
  St := Watch
  allows := Watch.Allows result
  assumes := Watch.Assumes result
  next := Watch.next

/-- A writer that has ended has renamed its status; a reader reports what it has read. -/
def Watch.Ended (q : Watch) (r : Except JobErr (Option JobInfo)) : Prop :=
  match q with
  | .parent ph => ∀ info, r = .ok info → info = none ∧ ph = .renamed
  | .child ph => ∀ info, r = .ok info → info = none ∧ ph = .renamed
  | .reader true _ => ∀ info, r = .ok (some info) → info.Reports result
  | .reader false seen => ∀ info, r = .ok (some info) → info.Finished →
      ∃ text, seen = some text ∧ info.status = stripped text

variable {result}

theorem atomicWrite_keeps {q : Watch} {f : JobFile} {x : f.Content}
    {Q : Watch → Except JobErr Unit → Prop} (hw : q.Allows result (.writeTmp f x))
    (hr : (q.next (.writeTmp f x) ()).Allows result (.rename f))
    (hok : Q ((q.next (.writeTmp f x) ()).next (.rename f) true) (.ok ()))
    (herr : Q ((q.next (.writeTmp f x) ()).next (.rename f) false) (.error .replace)) :
    (atomicWrite f x).Keeps (jobRole result) q Q := by
  refine ⟨hw, fun _ _ => ⟨hr, fun a _ => ?_⟩⟩
  cases a with
  | true => exact hok
  | false => exact herr

theorem requireDir_keeps (jobId : String) (q : Watch) :
    (requireDir jobId).Keeps (jobRole result) q fun q' _ => q' = q := by
  have hnext (a : Bool) : q.next .dirExists a = q := by
    cases q <;> rfl
  refine ⟨trivial, fun a _ => ?_⟩
  cases a with
  | true => exact hnext true
  | false => exact hnext false

theorem markRunning_keeps (jobId : String) (pid : ℤ) :
    (markRunning jobId pid).Keeps (jobRole result) (.parent .before)
      fun q r => ∃ ph, q = .parent ph ∧ (r = .ok () → ph = .renamed) := by
  unfold markRunning
  refine (requireDir_keeps jobId _).bind ?_ fun q e h => ⟨_, h, nofun⟩
  rintro q ⟨⟩ rfl
  refine Prog.Keeps.bind (M := fun (q : Watch) r => ∃ ph, q = .parent ph ∧ (r = .ok () → ph = .renamed))
    (atomicWrite_keeps ⟨rfl, rfl⟩ rfl ⟨_, rfl, fun _ => rfl⟩ ⟨_, rfl, nofun⟩) ?_ ?_
  · rintro q ⟨⟩ ⟨ph, rfl, hph⟩
    obtain rfl := hph rfl
    refine ⟨trivial, fun now _ => ?_⟩
    show Prog.Keeps (jobRole result) (atomicWrite .startedAt now >>= _) (.parent .renamed) _
    refine Prog.Keeps.bind (M := fun (q : Watch) _ => q = .parent .renamed)
      (atomicWrite_keeps (q := .parent .renamed) (f := .startedAt) (x := now) trivial trivial rfl rfl)
      ?_ fun q e h => ⟨_, h, nofun⟩
    rintro q ⟨⟩ rfl
    split
    · exact atomicWrite_keeps (q := .parent .renamed) (f := .pid) trivial trivial
        ⟨_, rfl, fun _ => rfl⟩ ⟨_, rfl, nofun⟩
    · exact ⟨_, rfl, fun _ => rfl⟩
  · rintro q e ⟨ph, rfl, -⟩
    exact ⟨_, rfl, nofun⟩

theorem markDone_keeps (jobId : String) :
    (markDone jobId result).Keeps (jobRole result) (.child .start)
      fun q r => ∃ ph, q = .child ph ∧ (r = .ok () → ph = .renamed) := by
  unfold markDone
  refine (requireDir_keeps jobId _).bind ?_ fun q e h => ⟨_, h, nofun⟩
  rintro q ⟨⟩ rfl
  refine Prog.Keeps.bind (M := fun (q : Watch) r => ∃ ph, q = .child ph ∧ (r = .ok () → ph = .before))
    (atomicWrite_keeps ⟨rfl, rfl⟩ rfl ⟨_, rfl, fun _ => rfl⟩ ⟨_, rfl, nofun⟩) ?_ ?_
  · rintro q ⟨⟩ ⟨ph, rfl, hph⟩
    obtain rfl := hph rfl
    have hrest : (atomicWrite .status (finalStatus result) >>= fun _ =>
        (Prog.op JobOp.now : JobCall String) >>= fun now => atomicWrite .finishedAt now).Keeps
          (jobRole result) (.child .before)
          fun q r => ∃ ph, q = .child ph ∧ (r = .ok () → ph = .renamed) := by
      refine Prog.Keeps.bind (M := fun (q : Watch) r => ∃ ph, q = .child ph ∧ (r = .ok () → ph = .renamed))
        (atomicWrite_keeps ⟨rfl, rfl⟩ rfl ⟨_, rfl, fun _ => rfl⟩ ⟨_, rfl, nofun⟩) ?_ ?_
      · rintro q ⟨⟩ ⟨ph, rfl, hph⟩
        obtain rfl := hph rfl
        refine ⟨trivial, fun now _ => ?_⟩
        exact atomicWrite_keeps (q := .child .renamed) (f := .finishedAt) trivial trivial
          ⟨_, rfl, fun _ => rfl⟩ ⟨_, rfl, nofun⟩
      · rintro q e ⟨ph, rfl, -⟩
        exact ⟨_, rfl, nofun⟩
    dsimp only
    split
    · exact ⟨trivial, fun _ _ => hrest⟩
    · exact hrest
  · rintro q e ⟨ph, rfl, -⟩
    exact ⟨_, rfl, nofun⟩

/-! ### A call of `status` -/

/-- What comes after the status has been read: the files are only read, and the status is
not read again. -/
def Looks (o : JobOp) : Prop :=
  match o with
  | .exists _ | .kill _ => True
  | .read f => f ≠ .status
  | _ => False

theorem looks_ignored {q : Watch} {o : JobOp} (h : Looks o) : (jobRole result).Ignores q o := by
  cases o with
  | «exists» f => exact ⟨trivial, fun a => by cases q <;> rfl⟩
  | kill pid => exact ⟨trivial, fun a => by cases q <;> rfl⟩
  | read f =>
    refine ⟨trivial, fun a => ?_⟩
    cases q <;> cases f <;> first | rfl | exact absurd rfl h
  | _ => exact h.elim

/-- The status is kept, but a process that is gone makes `stale` of `running`; the result
has not been read yet. -/
def JobInfo.Follows (info info' : JobInfo) : Prop :=
  (info'.status = info.status ∨ info.status = "running" ∧ info'.status = "stale") ∧
    info'.returncode = info.returncode

theorem JobInfo.follows_refl (info : JobInfo) : info.Follows info := ⟨.inl rfl, rfl⟩

theorem readMeta_looks (info : JobInfo) :
    (readMeta info).Only Looks ∧ (readMeta info).Rets info.Follows := by
  refine ⟨⟨trivial, fun a => ?_⟩, fun a => ?_⟩
  · cases a with
    | false => trivial
    | true =>
      refine ⟨nofun, fun m => ?_⟩
      cases m with
      | none => trivial
      | some m =>
        show Prog.Only Looks (ite _ _ _)
        split_ifs <;> trivial
  · cases a with
    | false => exact info.follows_refl
    | true =>
      intro m
      cases m with
      | none => exact info.follows_refl
      | some m =>
        show Prog.Rets info.Follows (ite _ _ _)
        split_ifs
        · exact ⟨.inl rfl, rfl⟩
        · trivial

theorem readFile_looks {f : JobFile} (hf : f ≠ .status) : (readFile f).Only Looks :=
  ⟨hf, fun _ => trivial⟩

theorem textOf_looks {f : JobFile} {text : JobCall (Option String)}
    (htext : text.Only Looks) : (textOf (fileExists f) text).Only Looks := by
  refine ⟨trivial, fun a => ?_⟩
  cases a with
  | false => trivial
  | true => exact htext.bind fun _ => trivial

theorem readTimes_looks (info : JobInfo) :
    (readTimes info).Only Looks ∧ (readTimes info).Rets info.Follows := by
  constructor
  · refine (textOf_looks (readFile_looks (f := .startedAt) nofun)).bind fun startedAt => ?_
    exact (textOf_looks (readFile_looks (f := .finishedAt) nofun)).bind fun finishedAt => trivial
  · refine (Prog.rets_true _).bind fun startedAt _ => ?_
    exact (Prog.rets_true _).bind fun finishedAt _ => ⟨.inl rfl, rfl⟩

theorem JobInfo.follows_gone (info : JobInfo) : info.Follows info.gone := by
  unfold JobInfo.gone
  split_ifs with h
  · exact ⟨.inr ⟨h, rfl⟩, rfl⟩
  · exact info.follows_refl

theorem checkPid_looks (info : JobInfo) (text : Option String) :
    (checkPid info text).Only Looks ∧ (checkPid info text).Rets info.Follows := by
  unfold checkPid
  split
  · exact ⟨trivial, info.follows_gone⟩
  · refine ⟨⟨trivial, fun alive => ?_⟩, fun alive => ?_⟩ <;> cases alive
    · trivial
    · trivial
    · exact info.follows_gone
    · exact ⟨.inl rfl, rfl⟩

theorem readPid_looks (info : JobInfo) :
    (readPid info).Only Looks ∧ (readPid info).Rets info.Follows := by
  refine ⟨⟨trivial, fun a => ?_⟩, fun a => ?_⟩
  · show Prog.Only Looks (ite _ _ _)
    split_ifs
    · exact ⟨nofun, fun text => (checkPid_looks info text).1⟩
    · trivial
  · show Prog.Rets info.Follows (ite _ _ _)
    split_ifs
    · exact fun text => (checkPid_looks info text).2
    · exact info.follows_refl

theorem follows_trans {i₁ i₂ i₃ : JobInfo} (h : i₁.Follows i₂) (h' : i₂.Follows i₃) :
    i₁.Follows i₃ := by
  refine ⟨?_, h'.2.trans h.2⟩
  rcases h.1 with hs | ⟨hs, hs'⟩
  · rw [← hs]
    exact h'.1
  · refine .inr ⟨hs, ?_⟩
    rcases h'.1 with ht | ⟨ht, -⟩
    · exact ht.trans hs'
    · exact absurd (hs'.symm.trans ht) (by decide)

theorem readFiles_looks (info : JobInfo) :
    (readFiles info).Only Looks ∧ (readFiles info).Rets info.Follows := by
  constructor
  · exact (readMeta_looks info).1.bind fun i₁ => (readTimes_looks i₁).1.bind fun i₂ =>
      (readPid_looks i₂).1
  · refine (readMeta_looks info).2.bind fun i₁ h₁ => (readTimes_looks i₁).2.bind fun i₂ h₂ => ?_
    exact Prog.Rets.mono (readPid_looks i₂).2 fun i₃ h₃ => follows_trans (follows_trans h₁ h₂) h₃

theorem readResult_late (info : JobInfo) (seen : Option String) :
    (readResult info).Keeps (jobRole result) (.reader true seen) fun q r =>
      q = .reader true seen ∧ r = .ok (info.withResult (resultDict result)) := by
  refine ⟨trivial, fun a ha => ?_⟩
  obtain rfl : a = true := ha
  refine ⟨trivial, fun doc hdoc => ?_⟩
  obtain rfl : doc = some (resultDict result) := hdoc
  exact ⟨rfl, rfl⟩

theorem readResult_looks (info : JobInfo) : (readResult info).Only Looks ∧
    (readResult info).Rets fun info' => info'.status = info.status := by
  refine ⟨⟨trivial, fun a => ?_⟩, fun a => ?_⟩
  · cases a with
    | false => trivial
    | true =>
      refine ⟨nofun, fun doc => ?_⟩
      cases doc with
      | none => trivial
      | some doc =>
        show Prog.Only Looks (ite _ _ _)
        split_ifs <;> trivial
  · cases a with
    | false => rfl
    | true =>
      intro doc
      cases doc with
      | none => rfl
      | some doc =>
        show Prog.Rets _ (ite _ _ _)
        split_ifs
        · rfl
        · trivial

theorem finalStatus_cases (result : RunResult) :
    finalStatus result = "done" ∨ finalStatus result = "failed" := by
  unfold finalStatus
  split_ifs
  · exact .inl rfl
  · exact .inr rfl

theorem stripped_final (result : RunResult) :
    stripped (finalStatus result) = finalStatus result := by
  rcases finalStatus_cases result with h | h <;> rw [h] <;> rfl

/-- A call of `status` that begins after the end. -/
theorem status_late (jobId : String) : (status jobId).Keeps (jobRole result) (.reader true none)
    fun q r => ∃ seen, q = .reader true seen ∧ ∀ info, r = .ok info → info.Reports result := by
  unfold status
  refine (requireDir_keeps jobId _).bind ?_ fun q e h => ⟨none, h, nofun⟩
  rintro q ⟨⟩ rfl
  refine ⟨trivial, fun text htext => ?_⟩
  obtain rfl : text = some (finalStatus result) := htext
  have hfiles := readFiles_looks { jobId := jobId, status := stripped (finalStatus result) }
  refine hfiles.1.keeps_bind hfiles.2 (fun o => looks_ignored) (fun info hinfo => ?_)
    fun e => ⟨_, rfl, nofun⟩
  refine (readResult_late info _).mono ?_
  rintro q r ⟨rfl, rfl⟩
  refine ⟨_, rfl, fun info' h => ?_⟩
  cases h
  refine ⟨?_, rfl⟩
  rcases hinfo.1 with hs | ⟨hs, -⟩
  · exact hs.trans (stripped_final result)
  · rw [stripped_final] at hs
    rcases finalStatus_cases result with h | h <;> exact absurd (h.symm.trans hs) (by decide)

theorem status_keeps (jobId : String) : (status jobId).Keeps (jobRole result) (.reader false none)
    fun q r => ∃ seen, q = .reader false seen ∧ ∀ info, r = .ok info → info.Finished →
      ∃ text, seen = some text ∧ info.status = stripped text := by
  unfold status
  refine (requireDir_keeps jobId _).bind ?_ fun q e h => ⟨none, h, nofun⟩
  rintro q ⟨⟩ rfl
  refine ⟨trivial, fun text _ => ?_⟩
  have hfiles := readFiles_looks { jobId := jobId, status := (text.map stripped).getD "unknown" }
  refine hfiles.1.keeps_bind hfiles.2 (fun o => looks_ignored) (fun info hinfo => ?_)
    fun e => ⟨_, rfl, nofun⟩
  have hresult := readResult_looks info
  refine (hresult.1.keeps_rets hresult.2 fun o => looks_ignored).mono ?_
  rintro q r ⟨rfl, hr⟩
  refine ⟨text, rfl, fun info' h hfin => ?_⟩
  have hsame : info'.status = info.status := hr info' h
  rcases hinfo.1 with hs | ⟨-, hs⟩
  · cases text with
    | none =>
      have hunknown : info'.status = "unknown" := hsame.trans hs
      rcases hfin with h | h <;> exact absurd (hunknown.symm.trans h) (by decide)
    | some text => exact ⟨text, rfl, hsame.trans hs⟩
  · have hstale : info'.status = "stale" := hsame.trans hs
    rcases hfin with h | h <;> exact absurd (hstale.symm.trans h) (by decide)

/-- Each process from its beginning. -/
def Watch.start (i : ℕ) : Watch :=
  match i with
  | 0 => .parent .before
  | 1 => .child .start
  | _ => .reader false none

theorem jobProcs_keeps (jobId : String) (pid : ℤ) (i : ℕ) :
    (jobProcs jobId pid result i).Keeps (jobRole result) (.start i) (Watch.Ended result) := by
  match i with
  | 0 =>
    refine (markRunning_keeps jobId pid).bind ?_ ?_
    · rintro q ⟨⟩ ⟨ph, rfl, hph⟩
      intro info hinfo
      cases hinfo
      exact ⟨rfl, hph rfl⟩
    · rintro q e ⟨ph, rfl, -⟩
      exact fun info hinfo => nomatch hinfo
  | 1 =>
    refine (markDone_keeps jobId).bind ?_ ?_
    · rintro q ⟨⟩ ⟨ph, rfl, hph⟩
      intro info hinfo
      cases hinfo
      exact ⟨rfl, hph rfl⟩
    · rintro q e ⟨ph, rfl, -⟩
      exact fun info hinfo => nomatch hinfo
  | n + 2 =>
    refine (status_keeps jobId).bind ?_ ?_
    · rintro q info ⟨seen, rfl, hseen⟩
      intro info' hinfo
      cases hinfo
      exact hseen info rfl
    · rintro q e ⟨seen, rfl, -⟩
      exact fun info hinfo => nomatch hinfo

/-- A call of `status` that has not begun is a late one from here. -/
theorem fresh_keeps (jobId : String) :
    (status jobId >>= fun info => .ret (some info) : JobCall (Option JobInfo)).Keeps
      (jobRole result) (.reader true none) (Watch.Ended result) := by
  refine (status_late jobId).bind ?_ ?_
  · rintro q info ⟨seen, rfl, hseen⟩
    intro info' hinfo
    cases hinfo
    exact hseen info rfl
  · rintro q e ⟨seen, rfl, -⟩
    exact fun info hinfo => nomatch hinfo

/-! ## The files -/

variable (result)

/-- The status and the result and their temporary files, with the parent in `p` and the
child in `c`. -/
structure Phases (status tmp : Option String) (doc docTmp : Option Json) (p c : Phase) : Prop where
  begun : p ≠ .start
  texts : status = some "pending" ∨ status = some "running" ∨ status = some (finalStatus result)
  tmps : tmp = none ∨ tmp = some "running" ∨ tmp = some (finalStatus result)
  /-- Once the final status is in place nothing else waits to be renamed. -/
  stays : status = some (finalStatus result) → tmp ≠ some "running"
  docs : ∀ d, docTmp = some d → d = resultDict result
  present : c ≠ .start → doc = some (resultDict result)
  final : status = some (finalStatus result) ∨ tmp = some (finalStatus result) →
    c = .written ∨ c = .renamed
  /-- The child has ended well: the final status is in place, or the parent has lost its
  temporary file. -/
  renamed : c = .renamed → status = some (finalStatus result) ∨ p = .written ∧ tmp = none
  /-- The child has written its status and the parent has not, or has already renamed it. -/
  ahead : c = .written → p = .before → tmp = some (finalStatus result)
  behind : c = .written → p = .renamed → tmp ≠ some "running"

variable {result}

theorem running_ne_final : "running" ≠ finalStatus result := by
  rcases finalStatus_cases result with h | h <;> rw [h] <;> decide

theorem pending_ne_final : "pending" ≠ finalStatus result := by
  rcases finalStatus_cases result with h | h <;> rw [h] <;> decide

namespace Phases

variable {status tmp : Option String} {doc docTmp : Option Json} {p c : Phase} {x : String}

theorem start : Phases result (some "pending") none none none .before .start where
  begun := nofun
  texts := .inl rfl
  tmps := .inl rfl
  stays := fun _ => nofun
  docs := nofun
  present := fun h => absurd rfl h
  final h := by
    rcases h with h | h
    · exact absurd (Option.some.inj h) pending_ne_final
    · cases h
  renamed := nofun
  ahead := nofun
  behind := nofun

/-- The final status does not wait for a renaming any more, so the parent has not ended
with another one. -/
theorem parentWrites (h : Phases result status tmp doc docTmp .before c)
    (hpending : status = some "pending") :
    Phases result status (some "running") doc docTmp .written c where
  begun := nofun
  texts := h.texts
  tmps := .inr (.inl rfl)
  stays hfinal := absurd (Option.some.inj (hpending.symm.trans hfinal)) pending_ne_final
  docs := h.docs
  present := h.present
  final hf := by
    rcases hf with hf | hf
    · exact h.final (.inl hf)
    · exact absurd (Option.some.inj hf) running_ne_final
  renamed hc := by
    rcases h.renamed hc with hf | ⟨hp, -⟩
    · exact absurd (Option.some.inj (hpending.symm.trans hf)) pending_ne_final
    · cases hp
  ahead := fun _ => nofun
  behind := fun _ => nofun

theorem eq_final (h : Phases result status (some x) doc docTmp p c) (hx : x ≠ "running") :
    x = finalStatus result := by
  rcases h.tmps with ht | ht | ht
  · cases ht
  · exact absurd (Option.some.inj ht) hx
  · exact Option.some.inj ht

theorem parentRenames (h : Phases result status (some x) doc docTmp .written c) :
    Phases result (some x) none doc docTmp .renamed c where
  begun := nofun
  texts := .inr (h.tmps.resolve_left nofun)
  tmps := .inl rfl
  stays := fun _ => nofun
  docs := h.docs
  present := h.present
  final hf := h.final (.inr (hf.resolve_right nofun))
  renamed hc := by
    rcases h.renamed hc with hf | ⟨-, hnone⟩
    · exact .inl (congrArg some (h.eq_final fun hx => h.stays hf (congrArg some hx)))
    · cases hnone
  ahead := fun _ => nofun
  behind := fun _ _ => nofun

theorem childWritesDoc (h : Phases result status tmp doc docTmp p .start) :
    Phases result status tmp doc (some (resultDict result)) p .start :=
  { h with docs := fun _ hd => (Option.some.inj hd).symm }

theorem childRenamesDoc {d : Json} (h : Phases result status tmp doc (some d) p .start) :
    Phases result status tmp (some d) none p .before where
  begun := h.begun
  texts := h.texts
  tmps := h.tmps
  stays := h.stays
  docs := nofun
  present _ := congrArg some (h.docs d rfl)
  final hf := by
    rcases h.final hf with hc | hc <;> cases hc
  renamed := nofun
  ahead := nofun
  behind := nofun

theorem childWrites (h : Phases result status tmp doc docTmp p .before) :
    Phases result status (some (finalStatus result)) doc docTmp p .written where
  begun := h.begun
  texts := h.texts
  tmps := .inr (.inr rfl)
  stays _ hrun := running_ne_final (Option.some.inj hrun).symm
  docs := h.docs
  present _ := h.present nofun
  final _ := .inl rfl
  renamed := nofun
  ahead _ _ := rfl
  behind _ _ hrun := running_ne_final (Option.some.inj hrun).symm

theorem childRenames (h : Phases result status (some x) doc docTmp p .written) :
    Phases result (some x) none doc docTmp p .renamed where
  begun := h.begun
  texts := .inr (h.tmps.resolve_left nofun)
  tmps := .inl rfl
  stays := fun _ => nofun
  docs := h.docs
  present _ := h.present nofun
  final _ := .inr rfl
  renamed _ := by
    cases p with
    | start => exact absurd rfl h.begun
    | before => exact .inl (h.ahead rfl rfl)
    | written => exact .inr ⟨rfl, rfl⟩
    | renamed =>
      exact .inl (congrArg some (h.eq_final fun hx => h.behind rfl rfl (congrArg some hx)))
  ahead := nofun
  behind := nofun

end Phases

/-- The phases as the files show them. -/
def InPhases (result : RunResult) (d : JobDir) (p c : Phase) : Prop :=
  Phases result (d.saved .status) (d.tmp .status) (d.saved .resultJson) (d.tmp .resultJson) p c

/-- An operation that changes no file. -/
def Reads (o : JobOp) : Prop :=
  match o with
  | .writeTmp _ _ | .rename _ | .writeStderr _ => False
  | _ => True

variable {d d' : JobDir} {i : ℕ} {o : JobOp} {ch : JobChoice} {a : JobAns o} {p c : Phase}

theorem reads_state (ho : Reads o) (hw : d.perform i o ch = some (a, d')) : d' = d := by
  cases o with
  | writeTmp f x | rename f | writeStderr bytes => exact ho.elim
  | dirExists | «exists» f | read f | now | kill pid =>
    exact (congrArg Prod.snd (Option.some.inj hw)).symm

theorem next_parent (ho : Reads o) (p : Phase) (a : JobAns o) :
    (Watch.parent p).next o a = .parent p := by
  cases o with
  | writeTmp f x | rename f | writeStderr bytes => exact ho.elim
  | dirExists | «exists» f | read f | now | kill pid => rfl

theorem next_child (ho : Reads o) (c : Phase) (a : JobAns o) :
    (Watch.child c).next o a = .child c := by
  cases o with
  | writeTmp f x | rename f | writeStderr bytes => exact ho.elim
  | dirExists | «exists» f | read f | now | kill pid => rfl

theorem parent_op (h : InPhases result d p c) (ha : (Watch.parent p).Allows result o)
    (hG : InTime d i o ch) (hw : d.perform i o ch = some (a, d')) :
    ∃ p', (Watch.parent p).next o a = .parent p' ∧ InPhases result d' p' c := by
  by_cases ho : Reads o
  · obtain rfl := reads_state ho hw
    exact ⟨p, next_parent ho p a, h⟩
  cases o with
  | writeTmp f x =>
    cases hw
    cases f with
    | status =>
      obtain ⟨rfl, rfl⟩ := ha
      exact ⟨_, rfl, h.parentWrites (hG rfl)⟩
    | startedAt => exact ⟨p, rfl, h⟩
    | pid => exact ⟨p, rfl, h⟩
    | metaJson | resultJson | stderrTxt | finishedAt => exact ha.elim
  | rename f =>
    simp only [JobDir.perform] at hw
    split at hw
    · next x hx =>
      cases hw
      cases f with
      | status =>
        obtain rfl : p = .written := ha
        unfold InPhases at h
        rw [hx] at h
        exact ⟨_, rfl, h.parentRenames⟩
      | startedAt => exact ⟨p, rfl, h⟩
      | pid => exact ⟨p, rfl, h⟩
      | metaJson | resultJson | stderrTxt | finishedAt => exact ha.elim
    · cases hw
      cases f <;> exact ⟨p, rfl, h⟩
  | writeStderr bytes => exact ha.elim
  | dirExists | «exists» f | read f | now | kill pid => exact absurd trivial ho

theorem child_op (h : InPhases result d p c) (ha : (Watch.child c).Allows result o)
    (hw : d.perform i o ch = some (a, d')) :
    ∃ c', (Watch.child c).next o a = .child c' ∧ InPhases result d' p c' := by
  by_cases ho : Reads o
  · obtain rfl := reads_state ho hw
    exact ⟨c, next_child ho c a, h⟩
  cases o with
  | writeTmp f x =>
    cases hw
    cases f with
    | resultJson =>
      obtain ⟨rfl, rfl⟩ := ha
      exact ⟨_, rfl, h.childWritesDoc⟩
    | status =>
      obtain ⟨rfl, rfl⟩ := ha
      exact ⟨_, rfl, h.childWrites⟩
    | finishedAt => exact ⟨c, rfl, h⟩
    | metaJson | startedAt | pid | stderrTxt => exact ha.elim
  | rename f =>
    simp only [JobDir.perform] at hw
    split at hw
    · next x hx =>
      cases hw
      unfold InPhases at h
      cases f with
      | resultJson =>
        obtain rfl : c = .start := ha
        rw [hx] at h
        exact ⟨_, rfl, h.childRenamesDoc⟩
      | status =>
        obtain rfl : c = .written := ha
        rw [hx] at h
        exact ⟨_, rfl, h.childRenames⟩
      | finishedAt => exact ⟨c, rfl, h⟩
      | metaJson | startedAt | pid | stderrTxt => exact ha.elim
    · cases hw
      cases f <;> exact ⟨c, rfl, h⟩
  | writeStderr bytes =>
    cases hw
    exact ⟨c, rfl, h⟩
  | dirExists | «exists» f | read f | now | kill pid => exact absurd trivial ho

theorem reader_op {late : Bool} {seen : Option String}
    (ha : (Watch.reader late seen).Allows result o)
    (hw : d.perform i o ch = some (a, d')) : d' = d := by
  by_cases ho : Reads o
  · exact reads_state ho hw
  cases o with
  | writeTmp f x | rename f | writeStderr bytes => exact ha.elim
  | dirExists | «exists» f | read f | now | kill pid => exact absurd trivial ho

def Final (result : RunResult) (d : JobDir) : Prop := d.saved .status = some (finalStatus result)

theorem final_stays (h : InPhases result d p c) (hfinal : Final result d)
    (hw : d.perform i o ch = some (a, d')) : Final result d' := by
  by_cases ho : Reads o
  · obtain rfl := reads_state ho hw
    exact hfinal
  cases o with
  | rename f =>
    simp only [JobDir.perform] at hw
    split at hw
    · next x hx =>
      cases hw
      cases f with
      | status =>
        unfold InPhases at h
        rw [hx] at h
        exact congrArg some (h.eq_final fun hrun => h.stays hfinal (congrArg some hrun))
      | _ => exact hfinal
    · cases hw
      exact hfinal
  | writeTmp f x | writeStderr bytes =>
    cases hw
    exact hfinal
  | dirExists | «exists» f | read f | now | kill pid => exact absurd trivial ho

/-! ## Runs -/

/-- What a reader knows: a late one, and one that has read that the job has ended, has the
final status before it. -/
def Knows (result : RunResult) (d : JobDir) (q : Watch) : Prop :=
  ∃ late seen, q = .reader late seen ∧ (late = true → Final result d) ∧
    ∀ text, seen = some text → stripped text = "done" ∨ stripped text = "failed" → Final result d

def JobInv (result : RunResult) (d : JobDir) (q : ℕ → Watch) : Prop :=
  ∃ p c, q 0 = .parent p ∧ q 1 = .child c ∧ InPhases result d p c ∧
    ∀ i, 2 ≤ i → Knows result d (q i)

theorem Knows.mono {q : Watch} (h : Knows result d q)
    (hfinal : Final result d → Final result d') : Knows result d' q := by
  obtain ⟨late, seen, rfl, hlate, hseen⟩ := h
  exact ⟨late, seen, rfl, fun hl => hfinal (hlate hl), fun text ht he => hfinal (hseen text ht he)⟩

theorem final_of_texts (h : InPhases result d p c) {text : String}
    (htext : d.saved .status = some text)
    (hend : stripped text = "done" ∨ stripped text = "failed") :
    Final result d := by
  rcases h.texts with hs | hs | hs
  · obtain rfl := Option.some.inj (htext.symm.trans hs)
    rcases hend with h | h <;> exact absurd h (by decide)
  · obtain rfl := Option.some.inj (htext.symm.trans hs)
    rcases hend with h | h <;> exact absurd h (by decide)
  · exact hs

theorem reader_learns {q : Watch} (h : InPhases result d p c) (hq : Knows result d q)
    (hw : d.perform i o ch = some (a, d')) :
    q.Assumes result o a ∧ Knows result d (q.next o a) := by
  have hdoc (hf : Final result d) : d.saved .resultJson = some (resultDict result) := by
    refine h.present ?_
    rcases h.final (.inl hf) with hc | hc <;> rw [hc] <;> exact nofun
  obtain ⟨late, seen, rfl, hlate, hseen⟩ := hq
  cases o with
  | read f =>
    cases hw
    cases f with
    | status =>
      have hknows : Knows result d (.reader late (d.saved .status)) :=
        ⟨late, _, rfl, hlate, fun text ht he => final_of_texts h ht he⟩
      cases late with
      | false => exact ⟨trivial, hknows⟩
      | true => exact ⟨hlate rfl, hknows⟩
    | resultJson =>
      cases late with
      | false => exact ⟨trivial, false, seen, rfl, hlate, hseen⟩
      | true => exact ⟨hdoc (hlate rfl), true, seen, rfl, hlate, hseen⟩
    | metaJson | startedAt | pid | stderrTxt | finishedAt =>
      cases late <;> exact ⟨trivial, _, seen, rfl, hlate, hseen⟩
  | «exists» f =>
    cases hw
    cases f with
    | resultJson =>
      cases late with
      | false => exact ⟨trivial, false, seen, rfl, hlate, hseen⟩
      | true =>
        refine ⟨?_, true, seen, rfl, hlate, hseen⟩
        show (d.saved .resultJson).isSome = true
        rw [hdoc (hlate rfl)]
        rfl
    | metaJson | status | startedAt | pid | stderrTxt | finishedAt =>
      cases late <;> exact ⟨trivial, _, seen, rfl, hlate, hseen⟩
  | writeTmp f x | rename f | writeStderr bytes | dirExists | now | kill pid =>
    cases late <;> exact ⟨trivial, _, seen, rfl, hlate, hseen⟩

/-- **One operation in time keeps the invariant.** -/
theorem jobInv_op : Pool.OpKeeps jobWorld (jobRole result) InTime (JobInv result) := by
  rintro d q i o ch a d' ⟨p, c, hp, hc, hphases, hreaders⟩ hallows hG hw
  have hstays : Final result d → Final result d' := fun hf => final_stays (i := i) hphases hf hw
  match i with
  | 0 =>
    rw [hp] at hallows ⊢
    obtain ⟨p', hnext, hphases'⟩ := parent_op (i := 0) hphases hallows hG hw
    refine ⟨trivial, p', c, ?_, ?_, hphases', fun j hj => ?_⟩
    · rw [Function.update_self]
      exact hnext
    · rw [Function.update_of_ne (by decide)]
      exact hc
    · rw [Function.update_of_ne (by omega)]
      exact (hreaders j hj).mono hstays
  | 1 =>
    rw [hc] at hallows ⊢
    obtain ⟨c', hnext, hphases'⟩ := child_op (i := 1) hphases hallows hw
    refine ⟨trivial, p, c', ?_, ?_, hphases', fun j hj => ?_⟩
    · rw [Function.update_of_ne (by decide)]
      exact hp
    · rw [Function.update_self]
      exact hnext
    · rw [Function.update_of_ne (by omega)]
      exact (hreaders j hj).mono hstays
  | n + 2 =>
    have hknows := hreaders (n + 2) (by omega)
    obtain ⟨hassumes, hknows'⟩ := reader_learns (i := n + 2) hphases hknows hw
    have hsame : d' = d := by
      obtain ⟨late, seen, hq, -⟩ := hknows
      rw [hq] at hallows
      exact @reader_op result d d' (n + 2) o ch a late seen hallows hw
    subst hsame
    refine ⟨hassumes, p, c, ?_, ?_, hphases, fun j hj => ?_⟩
    · rw [Function.update_of_ne (by omega)]
      exact hp
    · rw [Function.update_of_ne (by omega)]
      exact hc
    · by_cases hjn : j = n + 2
      · rw [hjn, Function.update_self]
        exact hknows'
      · rw [Function.update_of_ne hjn]
        exact hreaders j hj

theorem jobInv_crash : Pool.CrashKeeps jobWorld (jobRole result) (JobInv result) := by
  intro d q i h
  refine ⟨q i, ?_⟩
  rw [Function.update_eq_self]
  exact h

theorem jobPool_kept (jobId task host workdir : String) (now : ℕ) (pid : ℤ) :
    (jobPool (createPlaceholder jobId task host workdir now) jobId pid result).Kept
      (jobRole result) (JobInv result) fun _ => Watch.Ended result := by
  refine ⟨Watch.start, ⟨.before, .start, rfl, rfl, .start, fun i hi => ?_⟩, fun i =>
    jobProcs_keeps jobId pid i⟩
  match i with
  | n + 2 => exact ⟨false, none, rfl, nofun, nofun⟩

theorem final_of_ended {s : JobPool} {q : ℕ → Watch} (hinv : JobInv result s.shared q)
    (hkeeps : ∀ i, (s.procs i).Keeps (jobRole result) (q i) (Watch.Ended result))
    (hend : (s.procs 0).returned?.isSome ∧ (s.procs 1).returned?.isSome ∨
      ∃ i info, s.procs i = .ret (some info) ∧ info.Finished) : Final result s.shared := by
  obtain ⟨p, c, hp, hc, hphases, hreaders⟩ := hinv
  rcases hend with ⟨h0, h1⟩ | ⟨i, info, hi, hfin⟩
  · have hk0 := hkeeps 0
    have hk1 := hkeeps 1
    cases hp0 : s.procs 0 with
    | ret x =>
      cases hp1 : s.procs 1 with
      | ret y =>
        rw [hp0, hp] at hk0
        rw [hp1, hc] at hk1
        obtain ⟨-, rfl⟩ := hk0 x rfl
        obtain ⟨-, rfl⟩ := hk1 y rfl
        exact (hphases.renamed rfl).resolve_right fun h => nomatch h.1
      | raise e | hang | call o k => rw [hp1] at h1; cases h1
    | raise e | hang | call o k => rw [hp0] at h0; cases h0
  · have hk := hkeeps i
    rw [hi] at hk
    match i with
    | 0 =>
      rw [hp] at hk
      exact nomatch (hk _ rfl).1
    | 1 =>
      rw [hc] at hk
      exact nomatch (hk _ rfl).1
    | n + 2 =>
      obtain ⟨late, seen, hq, hlate, hseen⟩ := hreaders (n + 2) (by omega)
      rw [hq] at hk
      cases late with
      | true => exact hlate rfl
      | false =>
        obtain ⟨text, htext, hstatus⟩ := hk info rfl hfin
        refine hseen text htext ?_
        rw [← hstatus]
        exact hfin

theorem late_kept {jobId : String} {s : JobPool} {q : ℕ → Watch}
    (hinv : JobInv result s.shared q)
    (hkeeps : ∀ i, (s.procs i).Keeps (jobRole result) (q i) (Watch.Ended result))
    (hfinal : Final result s.shared) {j : ℕ} (hj : Fresh jobId s j) :
    ∃ q', q' j = .reader true none ∧ JobInv result s.shared q' ∧
      ∀ i, (s.procs i).Keeps (jobRole result) (q' i) (Watch.Ended result) := by
  obtain ⟨p, c, hp, hc, hphases, hreaders⟩ := hinv
  have hne0 : (0 : ℕ) ≠ j := by have := hj.1; omega
  have hne1 : (1 : ℕ) ≠ j := by have := hj.1; omega
  refine ⟨Function.update q j (.reader true none), Function.update_self .., ⟨p, c, ?_, ?_, hphases,
    fun i hi => ?_⟩, fun i => ?_⟩
  · rw [Function.update_of_ne hne0]
    exact hp
  · rw [Function.update_of_ne hne1]
    exact hc
  · by_cases hij : i = j
    · rw [hij, Function.update_self]
      exact ⟨true, none, rfl, fun _ => hfinal, nofun⟩
    · rw [Function.update_of_ne hij]
      exact hreaders i hi
  · by_cases hij : i = j
    · rw [hij, Function.update_self, hj.2]
      exact fresh_keeps jobId
    · rw [Function.update_of_ne hij]
      exact hkeeps i

theorem next_late (seen : Option String) (o : JobOp) (a : JobAns o) :
    ∃ seen', (Watch.reader true seen).next o a = .reader true seen' := by
  cases o with
  | read f =>
    cases f with
    | status => exact ⟨a, rfl⟩
    | metaJson | startedAt | pid | resultJson | stderrTxt | finishedAt => exact ⟨seen, rfl⟩
  | writeTmp f x | rename f | writeStderr bytes | dirExists | «exists» f | now | kill pid =>
    exact ⟨seen, rfl⟩

theorem late_op (j : ℕ) : Pool.OpKeeps jobWorld (jobRole result) InTime fun d q =>
    JobInv result d q ∧ ∃ seen, q j = .reader true seen := by
  rintro d q i o ch a d' ⟨hinv, seen, hj⟩ hallows hG hw
  obtain ⟨hassumes, hinv'⟩ := jobInv_op hinv hallows hG hw
  refine ⟨hassumes, hinv', ?_⟩
  by_cases hij : j = i
  · subst hij
    obtain ⟨seen', hnext⟩ := next_late seen o a
    refine ⟨seen', ?_⟩
    rw [Function.update_self, hj]
    exact hnext
  · exact ⟨seen, by rw [Function.update_of_ne hij, hj]⟩

theorem late_crash (j : ℕ) : Pool.CrashKeeps jobWorld (jobRole result) fun d q =>
    JobInv result d q ∧ ∃ seen, q j = .reader true seen := by
  intro d q i h
  refine ⟨q i, ?_⟩
  rw [Function.update_eq_self]
  exact h

/-- **In every run in which `mark_running` is in time, a job that has ended stays so.** -/
theorem finished_stays_finished (jobId task host workdir : String) (now : ℕ) (pid : ℤ)
    (result : RunResult) (es es' : List (Event JobChoice))
    (hG : Pool.Admits jobWorld InTime
      (jobPool (createPlaceholder jobId task host workdir now) jobId pid result) (es ++ es')) :
    StaysFinished jobId result
      (Pool.run jobWorld
        (jobPool (createPlaceholder jobId task host workdir now) jobId pid result) es)
      (Pool.run jobWorld
        (jobPool (createPlaceholder jobId task host workdir now) jobId pid result) (es ++ es')) := by
  obtain ⟨hG₁, hG₂⟩ := Pool.admits_append.mp hG
  obtain ⟨q, hinv, hkeeps⟩ := Pool.run_keeps jobInv_op jobInv_crash es
    (jobPool_kept jobId task host workdir now pid) hG₁
  intro hend
  have hfinal := final_of_ended hinv hkeeps hend
  refine ⟨?_, fun j info hj hret => ?_⟩
  · obtain ⟨p, c, -, -, hphases, -⟩ := hinv
    refine hphases.present ?_
    rcases hphases.final (.inl hfinal) with hc | hc <;> rw [hc] <;> exact nofun
  · obtain ⟨q', hq', hinv', hkeeps'⟩ := late_kept hinv hkeeps hfinal hj
    obtain ⟨q'', ⟨-, seen, hlate⟩, hkeeps''⟩ := Pool.run_keeps (late_op j) (late_crash j) es'
      ⟨q', ⟨hinv', none, hq'⟩, hkeeps'⟩ hG₂
    have hk := hkeeps'' j
    rw [Pool.run_append] at hret
    rw [hret, hlate] at hk
    exact hk info rfl

end

/-! ## Two orders -/

/-- A job of a result without an error, from its start. -/
def doneJob : JobPool :=
  jobPool (createPlaceholder "j" "task" "" "/w" 0) "j" 7 { returncode := 0 }

/-- Process `i` makes `n` steps. -/
def steps (i n : ℕ) : List (Event JobChoice) := List.replicate n (.tick i {})

/-- The parent marks the job as running before the child has ended. -/
theorem finished_stays_finished_done :
    Pool.Admits jobWorld InTime doneJob (steps 0 8 ++ steps 1 8 ++ steps 2 13) ∧
      StaysFinished "j" { returncode := 0 } (Pool.run jobWorld doneJob (steps 0 8 ++ steps 1 8))
        (Pool.run jobWorld doneJob (steps 0 8 ++ steps 1 8 ++ steps 2 13)) := by
  have hG : Pool.Admits jobWorld InTime doneJob (steps 0 8 ++ steps 1 8 ++ steps 2 13) := by
    decide +kernel
  exact ⟨hG, finished_stays_finished "j" "task" "" "/w" 0 7 { returncode := 0 }
    (steps 0 8 ++ steps 1 8) (steps 2 13) hG⟩

/-- The child has ended before the parent marks the job as running. -/
theorem done_job_stale : ¬ ∀ (jobId task host workdir : String) (now : ℕ) (pid : ℤ)
    (result : RunResult) (es es' : List (Event JobChoice)),
    StaysFinished jobId result
      (Pool.run jobWorld
        (jobPool (createPlaceholder jobId task host workdir now) jobId pid result) es)
      (Pool.run jobWorld
        (jobPool (createPlaceholder jobId task host workdir now) jobId pid result)
        (es ++ es')) := by
  intro h
  obtain ⟨-, hreports⟩ := h "j" "task" "" "/w" 0 7 { returncode := 0 } (steps 1 8 ++ steps 0 8)
    (steps 2 13) (.inl (by decide +kernel))
  have hstatus :
      ((Pool.run jobWorld doneJob (steps 1 8 ++ steps 0 8 ++ steps 2 13)).procs 2).returned?.map
        (·.map JobInfo.status) = some (some "stale") := by decide +kernel
  cases hp : (Pool.run jobWorld doneJob (steps 1 8 ++ steps 0 8 ++ steps 2 13)).procs 2 with
  | ret answer =>
    rw [hp] at hstatus
    cases answer with
    | none => cases hstatus
    | some info =>
      have hstale : info.status = "stale" := Option.some.inj (Option.some.inj hstatus)
      have hdone := (hreports 2 info ⟨le_refl 2, rfl⟩ hp).1
      exact absurd (hstale.symm.trans hdone) (by decide +kernel)
  | raise e | hang | call o k =>
    rw [hp] at hstatus
    cases hstatus

end AiMeshChat.Jobs
