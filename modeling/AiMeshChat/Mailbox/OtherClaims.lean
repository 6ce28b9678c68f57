import AiMeshChat.Lib.Lockstep
import AiMeshChat.Mailbox.ClaimFiles

/-!
# Claims of different messages

`finalize`, `finalize_from_inbox`, `release` and `renew_claim` find the claim files of a
message by the pattern `.claim-<id>-*.json`. The pattern also matches a claim of another
message whose identifier and owner, joined by a dash, begin with this identifier and a dash.

Two disks that agree outside the files of the other message are kept so by a call that does
not match its claim, which therefore does the same on both and leaves the files alone. So the
calls on one message do not notice the other one exactly if the pattern does not match its
claim (`apart_iff`).
-/

namespace AiMeshChat.Mailbox

open Lib

/-! ## Calls on a claimed message -/

/-- The calls that look for the claim files of one message. -/
inductive ClaimCall
  | finalize
  | finalizeFromInbox
  | release
  | renewClaim

def ClaimCall.call (sid agent mid owner : String) : ClaimCall → Call Result
  | .finalize => (Request.finalize sid agent mid owner).call 0
  | .finalizeFromInbox => (Request.finalizeFromInbox sid agent mid owner).call 0
  | .release => (Request.release sid agent mid owner).call 0
  | .renewClaim => (Request.renewClaim sid agent mid owner).call 0

/-- The message `mid` in `processing`, and the claim of `owner` on it. -/
def messagePath (sid agent mid : String) : MPath := ⟨.box sid agent .processing, jsonName mid⟩
def claimPath (sid agent mid owner : String) : MPath :=
  ⟨.box sid agent .processing, claimName (claimKey mid owner)⟩

/-- The message is in `processing`, with a claim of the owner. -/
structure Claimed (s : Disk) (sid agent mid owner : String) : Prop where
  message : (s.files.get? (messagePath sid agent mid)).isSome = true
  claim : (s.files.get? (claimPath sid agent mid owner)).isSome = true

/-- The disk without the message and the claim. -/
def Disk.without (s : Disk) (sid agent mid owner : String) : Disk :=
  { s with files := (s.files.del (messagePath sid agent mid)).del (claimPath sid agent mid owner) }

/-- No call on the message `m` notices that `n` is there with a claim of `on`, or changes the
files of `n`, on any disk on which both are claimed. -/
def Apart (m n on : String) : Prop :=
  ∀ (s : Disk) (sid agent om owner : String) (call : ClaimCall) (i : ℕ) (env : Op → Choice),
    agentIdOk om = true → Claimed s sid agent m om → Claimed s sid agent n on →
    ((call.call sid agent m owner).play world i env s).map Prod.fst =
      ((call.call sid agent m owner).play world i env (s.without sid agent n on)).map Prod.fst ∧
    ∀ r s', (call.call sid agent m owner).play world i env s = some (r, s') →
      ∀ p ∈ [messagePath sid agent n, claimPath sid agent n on], s'.files.get? p = s.files.get? p

/-! ## What a call looks at -/

section View

variable (sid agent n on : String)

/-- The two files of the other message. -/
def Other (p : MPath) : Prop := p = messagePath sid agent n ∨ p = claimPath sid agent n on

/-- An operation that is not about the files of the other message. -/
def LooksElsewhere : Op → Prop
  | .fileExists p | .read p | .write p _ | .unlink p => ¬ Other sid agent n on p
  | .replace src dst _ => ¬ Other sid agent n on src ∧ ¬ Other sid agent n on dst
  | .mkdir _ | .scan _ | .clock | .lock _ | .unlock _ => True
  | _ => False

/-- The answers are the same, but for the names that the pattern does not match. -/
def SameAnswer (m : String) : (o : Op) → Ans o → Ans o → Prop
  | .scan _, names, names' =>
    (names.filter (globMatch (".claim-" ++ m ++ "-") ".json")).insertionSort (· ≤ ·) =
      (names'.filter (globMatch (".claim-" ++ m ++ "-") ".json")).insertionSort (· ≤ ·)
  | _, a, a' => a = a'

/-- The disks agree but for the files of the other message, which hold what they hold in `s₀`
and in `t₀`. -/
structure Beside (s₀ t₀ s t : Disk) : Prop where
  dirs : s.dirs = t.dirs
  locks : s.locks = t.locks
  nextIno : s.files.nextIno = t.files.nextIno
  elsewhere : ∀ p, ¬ Other sid agent n on p → s.files.get? p = t.files.get? p
  left : ∀ p, Other sid agent n on p → s.files.get? p = s₀.files.get? p
  right : ∀ p, Other sid agent n on p → t.files.get? p = t₀.files.get? p

variable {sid agent n on}

variable {s₀ t₀ s t : Disk} {p : MPath} {m : String}

theorem Beside.change (h : Beside sid agent n on s₀ t₀ s t) {fs fs' : Files Dir Data}
    (hnext : fs.nextIno = fs'.nextIno)
    (hsame : ∀ p, ¬ Other sid agent n on p → fs.get? p = fs'.get? p)
    (hleft : ∀ p, Other sid agent n on p → fs.get? p = s.files.get? p)
    (hright : ∀ p, Other sid agent n on p → fs'.get? p = t.files.get? p) :
    Beside sid agent n on s₀ t₀ { s with files := fs } { t with files := fs' } :=
  ⟨h.dirs, h.locks, hnext, hsame, fun p hp => (hleft p hp).trans (h.left p hp),
    fun p hp => (hright p hp).trans (h.right p hp)⟩

theorem Beside.write (h : Beside sid agent n on s₀ t₀ s t) (hp : ¬ Other sid agent n on p)
    (x : Data) (time : ℕ) : Beside sid agent n on s₀ t₀ (s.write p x time) (t.write p x time) := by
  have hne : ∀ q, Other sid agent n on q → q ≠ p := fun q hq heq => hp (heq ▸ hq)
  refine h.change ?_ (fun q hq => ?_) (fun q hq => Files.get?_write_ne _ _ _ (hne q hq))
    fun q hq => Files.get?_write_ne _ _ _ (hne q hq)
  · unfold Files.write
    rw [h.elsewhere p hp]
    cases t.files.get? p with
    | some f => exact h.nextIno
    | none => exact congrArg (· + 1) h.nextIno
  · unfold Files.write
    rw [h.elsewhere p hp, h.nextIno]
    cases t.files.get? p with
    | some f =>
      show (s.files.put p _).get? q = (t.files.put p _).get? q
      rw [Files.get?_put, Files.get?_put, h.elsewhere q hq]
    | none =>
      show (s.files.put p _).get? q = (t.files.put p _).get? q
      rw [Files.get?_put, Files.get?_put, h.elsewhere q hq]

theorem Beside.del (h : Beside sid agent n on s₀ t₀ s t)
    (hp : ¬ Other sid agent n on p) : Beside sid agent n on s₀ t₀
      { s with files := s.files.del p } { t with files := t.files.del p } := by
  have hne : ∀ q, Other sid agent n on q → q ≠ p := fun q hq heq => hp (heq ▸ hq)
  refine h.change h.nextIno (fun q hq => ?_) (fun q hq => Files.get?_del_ne _ (hne q hq))
    fun q hq => Files.get?_del_ne _ (hne q hq)
  rw [Files.get?_del, Files.get?_del, h.elsewhere q hq]

theorem Beside.move (h : Beside sid agent n on s₀ t₀ s t) {src dst : MPath}
    (hsrc : ¬ Other sid agent n on src) (hdst : ¬ Other sid agent n on dst) :
    Beside sid agent n on s₀ t₀
      { s with files := s.files.move src dst } { t with files := t.files.move src dst } := by
  have hne : ∀ p q, ¬ Other sid agent n on p → Other sid agent n on q → q ≠ p :=
    fun p q hp hq heq => hp (heq ▸ hq)
  refine h.change ?_ (fun q hq => ?_)
    (fun q hq => Files.get?_move_ne _ (hne _ q hsrc hq) (hne _ q hdst hq))
    fun q hq => Files.get?_move_ne _ (hne _ q hsrc hq) (hne _ q hdst hq)
  · unfold Files.move
    rw [h.elsewhere src hsrc]
    cases t.files.get? src with
    | none => exact h.nextIno
    | some f => exact h.nextIno
  · cases hf : t.files.get? src with
    | none => rw [Files.move_of_none hf, Files.move_of_none ((h.elsewhere src hsrc).trans hf),
        h.elsewhere q hq]
    | some f =>
      rw [Files.get?_move hf, Files.get?_move ((h.elsewhere src hsrc).trans hf), h.elsewhere q hq]

/-- The pattern of `m` matches neither file of the other message. -/
theorem not_globMatch_other (hn : msgIdOk n = true)
    (hclaim : startsWith (m ++ "-") (claimKey n on) = false)
    (hp : Other sid agent n on p) : globMatch (".claim-" ++ m ++ "-") ".json" p.name = false := by
  rw [← Bool.not_eq_true]
  intro hmatch
  rcases hp with rfl | rfl
  · have hdotted := dotted_of_claim (claim_of_globMatch hmatch)
    rw [messagePath, dotted_jsonName hn] at hdotted
    cases hdotted
  · have heq := eq_of_globMatch hmatch
    generalize between _ _ _ = key at heq
    have hkey : claimKey n on = m ++ "-" ++ key := by
      have hl := congrArg String.toList heq
      simp only [claimPath, claimName, String.toList_append, List.append_assoc,
        List.append_cancel_left_eq] at hl
      apply String.toList_inj.mp
      simp only [String.toList_append, List.append_assoc]
      simp only [← List.append_assoc] at hl ⊢
      exact List.append_cancel_right hl
    rw [hkey, startsWith_append] at hclaim
    cases hclaim

theorem Beside.names (hn : msgIdOk n = true)
    (hclaim : startsWith (m ++ "-") (claimKey n on) = false) (h : Beside sid agent n on s₀ t₀ s t)
    (d : Dir) (rank : String → String → Prop) [DecidableRel rank] :
    (((s.files.names d).insertionSort rank).filter
      (globMatch (".claim-" ++ m ++ "-") ".json")).insertionSort (· ≤ ·) =
    (((t.files.names d).insertionSort rank).filter
      (globMatch (".claim-" ++ m ++ "-") ".json")).insertionSort (· ≤ ·) := by
  have hnodup (u : Disk) : (((u.files.names d).insertionSort rank).filter
      (globMatch (".claim-" ++ m ++ "-") ".json")).Nodup :=
    ((List.perm_insertionSort rank _).nodup_iff.mpr (Files.names_nodup u.files d)).filter _
  have hperm := (List.perm_ext_iff_of_nodup (hnodup s) (hnodup t)).mpr fun name => by
    simp only [List.mem_filter, List.mem_insertionSort, Files.mem_names]
    refine and_congr_left fun hmatch => ?_
    have helse : ¬ Other sid agent n on ⟨d, name⟩ := by
      intro hother
      rw [not_globMatch_other hn hclaim hother] at hmatch
      cases hmatch
    rw [h.elsewhere _ helse]
  refine List.Perm.eq_of_pairwise ?_ (List.pairwise_insertionSort _ _)
    (List.pairwise_insertionSort _ _) ?_
  · intro a b _ _ hab hba
    exact String.le_antisymm hab hba
  · exact ((List.perm_insertionSort _ _).trans hperm).trans (List.perm_insertionSort _ _).symm

theorem Beside.step (hn : msgIdOk n = true) (hclaim : startsWith (m ++ "-") (claimKey n on) = false)
    (i : ℕ) (c : Choice) (o : Op) (s t : Disk) (ho : LooksElsewhere sid agent n on o)
    (h : Beside sid agent n on s₀ t₀ s t) :
    (True ∧ world.perform i o c s = none ∧ world.perform i o c t = none) ∨
    ∃ a s₁ a' t₁, world.perform i o c s = some (a, s₁) ∧ world.perform i o c t = some (a', t₁) ∧
      SameAnswer m o a a' ∧ Beside sid agent n on s₀ t₀ s₁ t₁ := by
  cases o with
  | fileExists p =>
    refine .inr ⟨_, _, _, _, rfl, rfl, ?_, h⟩
    show (s.files.get? p).isSome = (t.files.get? p).isSome
    rw [h.elsewhere p ho]
  | mkdir d =>
    refine .inr ⟨_, _, _, _, rfl, rfl, rfl, ?_⟩
    by_cases hdir : d ∈ t.dirs
    · rw [if_pos (h.dirs ▸ hdir), if_pos hdir]
      exact h
    · rw [if_neg (h.dirs ▸ hdir), if_neg hdir]
      exact ⟨congrArg (d :: ·) h.dirs, h.locks, h.nextIno, h.elsewhere, h.left, h.right⟩
  | read p =>
    simp only [world, Disk.perform]
    rw [h.elsewhere p ho]
    cases c.fault with
    | true => exact .inr ⟨_, _, _, _, rfl, rfl, rfl, h⟩
    | false =>
      cases t.files.get? p with
      | none => exact .inr ⟨_, _, _, _, rfl, rfl, rfl, h⟩
      | some f => exact .inr ⟨_, _, _, _, rfl, rfl, rfl, h⟩
  | write p x =>
    simp only [world, Disk.perform]
    rw [h.dirs]
    cases c.fault with
    | true => exact .inr ⟨_, _, _, _, rfl, rfl, rfl, h⟩
    | false =>
      by_cases hdir : p.dir ∈ t.dirs
      · simp only [Bool.false_eq_true, if_false, hdir, not_true]
        exact .inr ⟨_, _, _, _, rfl, rfl, rfl, h.write ho x c.time⟩
      · simp only [Bool.false_eq_true, if_false, hdir, not_false_eq_true, if_true]
        exact .inr ⟨_, _, _, _, rfl, rfl, rfl, h⟩
  | replace src dst l =>
    have hdirs : (dst.dir ∉ s.dirs) = (dst.dir ∉ t.dirs) := by rw [h.dirs]
    simp only [world, Disk.perform, hdirs, h.elsewhere src ho.1]
    cases c.fault with
    | true => exact .inr ⟨_, _, _, _, rfl, rfl, rfl, h⟩
    | false =>
      by_cases hno : (t.files.get? src).isNone = true ∨ dst.dir ∉ t.dirs
      · simp only [Bool.false_eq_true, if_false, if_pos hno]
        exact .inr ⟨_, _, _, _, rfl, rfl, rfl, h⟩
      · simp only [Bool.false_eq_true, if_false, if_neg hno]
        exact .inr ⟨_, _, _, _, rfl, rfl, rfl, h.move ho.1 ho.2⟩
  | unlink p =>
    simp only [world, Disk.perform]
    rw [h.elsewhere p ho]
    cases c.fault with
    | true => exact .inr ⟨_, _, _, _, rfl, rfl, rfl, h⟩
    | false =>
      cases t.files.get? p with
      | none => exact .inr ⟨_, _, _, _, rfl, rfl, rfl, h⟩
      | some f => exact .inr ⟨_, _, _, _, rfl, rfl, rfl, h.del ho⟩
  | scan d => exact .inr ⟨_, _, _, _, rfl, rfl, h.names hn hclaim d _, h⟩
  | clock => exact .inr ⟨_, _, _, _, rfl, rfl, rfl, h⟩
  | lock p =>
    have hlocks : (s.locks.lookup p).isSome = (t.locks.lookup p).isSome := by rw [h.locks]
    by_cases hheld : (t.locks.lookup p).isSome = true
    · exact .inl ⟨trivial, if_pos (hlocks.trans hheld), if_pos hheld⟩
    · refine .inr ⟨(), _, (), _, if_neg (by rwa [hlocks]), if_neg hheld, rfl, h.dirs, ?_, h.nextIno,
        h.elsewhere, h.left, h.right⟩
      exact congrArg ((p, i) :: ·) h.locks
  | unlock p =>
    refine .inr ⟨_, _, _, _, rfl, rfl, rfl, ?_⟩
    exact ⟨h.dirs, congrArg (List.filter _) h.locks, h.nextIno, h.elsewhere, h.left, h.right⟩
  | _ => exact ho.elim

end View

/-! ## The calls look elsewhere -/

section Calls

variable {sid agent m n on : String}

/-- The call looks at no file of the other message. -/
def Elsewhere (sid agent m n on : String) {α : Type} (p : Call α) : Prop :=
  Prog.Alike (LooksElsewhere sid agent n on) (SameAnswer m) p p

variable {p : MPath} {α : Type}

theorem other_processing (h : Other sid agent n on p) : p.dir = .box sid agent .processing := by
  rcases h with rfl | rfl
  · rfl
  · rfl

theorem not_other_box {b : Box} (h : b ≠ .processing) (name : String) :
    ¬ Other sid agent n on ⟨.box sid agent b, name⟩ := by
  intro hother
  have hdir := other_processing hother
  injection hdir with _ _ hb
  exact h hb

theorem not_other_message (hm : msgIdOk m = true) (hne : m ≠ n) :
    ¬ Other sid agent n on ⟨.box sid agent .processing, jsonName m⟩ := by
  rintro (h | h)
  · exact hne (jsonName_inj (congrArg Path.name h))
  · exact jsonName_ne_of_dotted hm (dotted_of_claim (startsWith_claimName _))
      (congrArg Path.name h).symm

theorem not_other_match (hn : msgIdOk n = true) (hclaim : startsWith (m ++ "-") (claimKey n on) = false)
    {name : String} (h : globMatch (".claim-" ++ m ++ "-") ".json" name = true) :
    ¬ Other sid agent n on ⟨.box sid agent .processing, name⟩ := by
  intro hother
  rw [not_globMatch_other hn hclaim hother] at h
  cases h

theorem not_other_tmpRenew (hn : msgIdOk n = true) (key : String) :
    ¬ Other sid agent n on ⟨.box sid agent .processing, tmpRenewName key⟩ := by
  rintro (h | h)
  · exact jsonName_ne_of_dotted hn (dotted_of_tmpRenew (startsWith_tmpRenewName key))
      (congrArg Path.name h)
  · exact claimName_ne_tmpRenewName _ _ (congrArg Path.name h).symm

theorem elsewhere_require (c : Bool) (e : PyErr) : Elsewhere sid agent m n on (require c e) := by
  unfold Elsewhere require
  split
  · exact Prog.alike_ret _
  · exact Prog.alike_raise _

theorem Elsewhere.bind {β : Type} {p : Call α} {f : α → Call β} (hp : Elsewhere sid agent m n on p)
    (hf : ∀ a, Elsewhere sid agent m n on (f a)) : Elsewhere sid agent m n on (p >>= f) :=
  Prog.Alike.bind hp hf

theorem elsewhere_agentSubdir_bind {sid' agent' : String} {b : Box} {f : Dir → Call α}
    (hf : Elsewhere sid agent m n on (f (.box sid' agent' b))) :
    Elsewhere sid agent m n on (agentSubdir sid' agent' b >>= f) := by
  unfold agentSubdir
  rw [Prog.bind_assoc]
  refine (elsewhere_require _ _).bind fun _ => ?_
  rw [Prog.bind_assoc]
  exact (elsewhere_require _ _).bind fun _ => hf

theorem elsewhere_op_bind {o : Op} {f : Ans o → Call α} (ho : LooksElsewhere sid agent n on o)
    (hscan : ∀ d, o ≠ .scan d) (hf : ∀ a, Elsewhere sid agent m n on (f a)) :
    Elsewhere sid agent m n on (Prog.op o >>= f) := by
  refine Prog.alike_same_bind ho (fun a a' h => ?_) hf
  cases o with
  | scan d => exact absurd rfl (hscan d)
  | _ => exact h

theorem elsewhere_orRaise (r : Except OsErr α) : Elsewhere sid agent m n on (orRaise r) := by
  cases r with
  | ok a => exact Prog.alike_ret a
  | error e => exact Prog.alike_raise _

theorem elsewhere_replace {src dst : MPath} (hsrc : ¬ Other sid agent n on src)
    (hdst : ¬ Other sid agent n on dst) : Elsewhere sid agent m n on (replace src dst) :=
  elsewhere_op_bind ⟨hsrc, hdst⟩ nofun fun r => elsewhere_orRaise r

theorem elsewhere_unlinkMissingOk (hp : ¬ Other sid agent n on p) :
    Elsewhere sid agent m n on (unlinkMissingOk p) := by
  refine elsewhere_op_bind hp nofun fun r => ?_
  split
  · exact Prog.alike_ret _
  · exact elsewhere_orRaise _

theorem elsewhere_loadJson (hp : ¬ Other sid agent n on p) :
    Elsewhere sid agent m n on (loadJson p) := by
  refine elsewhere_op_bind hp nofun fun r => (elsewhere_orRaise r).bind fun x => ?_
  cases x with
  | json j => exact Prog.alike_ret j
  | junk => exact Prog.alike_raise _

theorem elsewhere_loadClaim (hp : ¬ Other sid agent n on p) :
    Elsewhere sid agent m n on (loadClaim p) := by
  refine elsewhere_op_bind hp nofun fun r => ?_
  split
  · split
    · exact Prog.alike_ret _
    · exact Prog.alike_raise _
  · exact Prog.alike_ret _

theorem elsewhere_glob_bind {α : Type} {f : List String → Call α}
    (hf : ∀ names, (∀ name ∈ names, globMatch (".claim-" ++ m ++ "-") ".json" name = true) →
      Elsewhere sid agent m n on (f names)) :
    Elsewhere sid agent m n on
      (sortedGlob (.box sid agent .processing) (".claim-" ++ m ++ "-") ".json" >>= f) := by
  unfold sortedGlob
  rw [Prog.bind_assoc]
  refine Prog.alike_op_bind trivial fun names names' h => ?_
  show Prog.Alike _ _ (f ((names.filter _).insertionSort _)) (f ((names'.filter _).insertionSort _))
  rw [show (names'.filter _).insertionSort _ = _ from h.symm]
  refine hf _ fun name hname => ?_
  exact (List.mem_filter.mp ((List.mem_insertionSort _).mp hname)).2

variable (hm : msgIdOk m = true) (hn : msgIdOk n = true) (hne : m ≠ n)
  (hclaim : startsWith (m ++ "-") (claimKey n on) = false)
include hm hn hne hclaim

theorem elsewhere_finalize (owner : String) :
    Elsewhere sid agent m n on (finalize sid agent m owner) := by
  have htarget : ¬ Other sid agent n on ⟨.box sid agent .processing, jsonName m⟩ :=
    not_other_message hm hne
  refine (elsewhere_require _ _).bind fun _ => elsewhere_agentSubdir_bind
    (elsewhere_agentSubdir_bind (elsewhere_glob_bind fun names hnames => ?_))
  split
  · exact Prog.alike_raise _
  · next claimFile =>
    have hfile : ¬ Other sid agent n on ⟨.box sid agent .processing, claimFile⟩ :=
      not_other_match hn hclaim (hnames claimFile (List.mem_singleton.mpr rfl))
    refine elsewhere_op_bind htarget nofun fun present => ?_
    split
    · refine (elsewhere_loadJson hfile).bind fun claim => ?_
      split
      · exact Prog.alike_raise _
      · split
        · refine elsewhere_op_bind trivial nofun fun _ => ?_
          refine (elsewhere_replace htarget (not_other_box (b := .archive) nofun _)).bind fun _ => ?_
          exact (elsewhere_unlinkMissingOk hfile).bind fun _ => Prog.alike_ret _
        · exact Prog.alike_raise _
    · exact Prog.alike_raise _
  · exact Prog.alike_raise _

omit hm hne in
theorem elsewhere_anyForeign (owner : String) (names : List String)
    (hnames : ∀ name ∈ names, globMatch (".claim-" ++ m ++ "-") ".json" name = true) :
    Elsewhere sid agent m n on (anyForeign (.box sid agent .processing) owner names) := by
  induction names with
  | nil => exact Prog.alike_ret _
  | cons c rest ih =>
    have hfile : ¬ Other sid agent n on ⟨.box sid agent .processing, c⟩ :=
      not_other_match hn hclaim (hnames c List.mem_cons_self)
    unfold anyForeign
    rw [Prog.bind_assoc]
    refine elsewhere_op_bind hfile (fun _ h => by cases h) fun r => ?_
    refine Elsewhere.bind ?_ fun cowner =>
      (ih fun name h => hnames name (List.mem_cons_of_mem c h)).bind fun _ => Prog.alike_ret _
    split
    · split
      · exact Prog.alike_ret _
      · exact Prog.alike_raise _
    · exact Prog.alike_ret _

theorem elsewhere_finalizeFromInbox (owner : String) :
    Elsewhere sid agent m n on (finalizeFromInbox sid agent m owner) := by
  have htarget : ¬ Other sid agent n on ⟨.box sid agent .processing, jsonName m⟩ :=
    not_other_message hm hne
  have hinbox : ¬ Other sid agent n on ⟨.box sid agent .inbox, jsonName m⟩ :=
    not_other_box (b := .inbox) nofun _
  refine (elsewhere_require _ _).bind fun _ => elsewhere_agentSubdir_bind
    (elsewhere_agentSubdir_bind (elsewhere_agentSubdir_bind
      (elsewhere_op_bind hinbox nofun fun present => ?_)))
  split
  · refine elsewhere_op_bind hinbox nofun fun present => ?_
    split
    · refine elsewhere_op_bind trivial nofun fun _ => ?_
      exact (elsewhere_replace hinbox (not_other_box (b := .archive) nofun _)).bind fun _ => Prog.alike_ret _
    · exact Prog.alike_raise _
  · refine elsewhere_op_bind htarget nofun fun present => ?_
    split
    · refine elsewhere_glob_bind fun names hnames => ?_
      refine (elsewhere_anyForeign hn hclaim owner names hnames).bind fun foreign => ?_
      split
      · exact Prog.alike_raise _
      · refine elsewhere_op_bind trivial nofun fun _ => ?_
        exact (elsewhere_replace htarget (not_other_box (b := .archive) nofun _)).bind fun _ => Prog.alike_ret _
    · exact Prog.alike_raise _

theorem elsewhere_release (owner : String) :
    Elsewhere sid agent m n on (release sid agent m owner) := by
  have htarget : ¬ Other sid agent n on ⟨.box sid agent .processing, jsonName m⟩ :=
    not_other_message hm hne
  have hinbox : ¬ Other sid agent n on ⟨.box sid agent .inbox, jsonName m⟩ :=
    not_other_box (b := .inbox) nofun _
  refine (elsewhere_require _ _).bind fun _ => elsewhere_agentSubdir_bind
    (elsewhere_agentSubdir_bind (elsewhere_glob_bind fun names hnames => ?_))
  refine elsewhere_op_bind htarget nofun fun present => (elsewhere_require _ _).bind fun _ => ?_
  split
  · exact (elsewhere_replace htarget hinbox).bind fun _ => Prog.alike_ret _
  · next claimFile =>
    have hfile : ¬ Other sid agent n on ⟨.box sid agent .processing, claimFile⟩ :=
      not_other_match hn hclaim (hnames claimFile (List.mem_singleton.mpr rfl))
    have hcheck : Elsewhere sid agent m n on
        (checkRelease ⟨.box sid agent .processing, claimFile⟩ owner) := by
      refine elsewhere_op_bind hfile nofun fun present => ?_
      split
      · exact (elsewhere_loadJson hfile).bind fun claim =>
          (elsewhere_require _ _).bind fun _ => elsewhere_require _ _
      · exact Prog.alike_ret _
    refine hcheck.bind fun _ => (elsewhere_replace htarget hinbox).bind fun _ => ?_
    exact (elsewhere_unlinkMissingOk hfile).bind fun _ => Prog.alike_ret _
  · exact Prog.alike_raise _

omit hm hne hclaim in
theorem elsewhere_rewriteClaim {key claimFile : String} (claim : Json)
    (hfile : ¬ Other sid agent n on ⟨.box sid agent .processing, claimFile⟩) :
    Elsewhere sid agent m n on (rewriteClaim (.box sid agent .processing) key claimFile claim) := by
  have htmp : ¬ Other sid agent n on ⟨.box sid agent .processing, tmpRenewName key⟩ :=
    not_other_tmpRenew hn key
  refine elsewhere_op_bind htmp nofun fun r => ?_
  split
  · exact (elsewhere_unlinkMissingOk htmp).bind fun _ => Prog.alike_ret _
  · refine elsewhere_op_bind ⟨htmp, hfile⟩ nofun fun r => ?_
    split
    · exact (elsewhere_unlinkMissingOk htmp).bind fun _ => Prog.alike_ret _
    · exact Prog.alike_ret _

theorem elsewhere_renewLocked (owner : String) :
    Elsewhere sid agent m n on (renewLocked (.box sid agent .processing) m owner) := by
  have htarget : ¬ Other sid agent n on ⟨.box sid agent .processing, jsonName m⟩ :=
    not_other_message hm hne
  refine elsewhere_op_bind htarget nofun fun present => ?_
  split
  · refine elsewhere_glob_bind fun names hnames => ?_
    split
    · next claimFile =>
      have hfile : ¬ Other sid agent n on ⟨.box sid agent .processing, claimFile⟩ :=
        not_other_match hn hclaim (hnames claimFile (List.mem_singleton.mpr rfl))
      refine (elsewhere_loadClaim hfile).bind fun found => ?_
      split
      · exact Prog.alike_ret _
      · split
        · refine elsewhere_op_bind trivial nofun fun now => ?_
          refine (elsewhere_rewriteClaim hn _ hfile).bind fun done => ?_
          split
          · refine elsewhere_op_bind htarget nofun fun present => ?_
            split
            · exact Prog.alike_ret _
            · exact (elsewhere_unlinkMissingOk hfile).bind fun _ => Prog.alike_ret _
          · exact Prog.alike_ret _
        · exact Prog.alike_ret _
    · exact Prog.alike_ret _
  · exact Prog.alike_ret _

theorem elsewhere_renewClaim (owner : String) :
    Elsewhere sid agent m n on (renewClaim sid agent m owner) := by
  refine (elsewhere_require _ _).bind fun _ => elsewhere_agentSubdir_bind
    (elsewhere_op_bind (not_other_message hm hne) nofun fun present => ?_)
  split
  · refine elsewhere_glob_bind fun names hnames => ?_
    split
    · refine elsewhere_op_bind trivial nofun fun _ => ?_
      exact Prog.Alike.ensure (elsewhere_renewLocked hm hn hne hclaim owner)
        (Prog.alike_op trivial fun _ _ h => h)
    · exact Prog.alike_ret _
  · exact Prog.alike_ret _

theorem elsewhere_call (call : ClaimCall) (owner : String) :
    Elsewhere sid agent m n on (call.call sid agent m owner) := by
  cases call with
  | finalize => exact (elsewhere_finalize hm hn hne hclaim owner).bind fun _ => Prog.alike_ret _
  | finalizeFromInbox =>
    exact (elsewhere_finalizeFromInbox hm hn hne hclaim owner).bind fun _ => Prog.alike_ret _
  | release => exact (elsewhere_release hm hn hne hclaim owner).bind fun _ => Prog.alike_ret _
  | renewClaim => exact (elsewhere_renewClaim hm hn hne hclaim owner).bind fun _ => Prog.alike_ret _

/-- A call whose pattern does not match the other claim does not notice the other message. -/
theorem apart_of_not_matched : Apart m n on := by
  intro s sid agent om owner call i env _ _ _
  have hbeside : Beside sid agent n on s (s.without sid agent n on) s (s.without sid agent n on) := by
    refine ⟨rfl, rfl, rfl, fun p hp => ?_, fun _ _ => rfl, fun _ _ => rfl⟩
    simp only [Other, not_or] at hp
    exact ((Files.get?_del_ne _ hp.2).trans (Files.get?_del_ne _ hp.1)).symm
  have hplay := Prog.Alike.play_or (fun o s t ho h => Beside.step hn hclaim i (env o) o s t ho h)
    (elsewhere_call hm hn hne hclaim call owner) hbeside
  rcases hplay with ⟨-, h, h'⟩ | ⟨r, s', t', h, h', hend⟩
  · rw [h, h']
    exact ⟨rfl, nofun⟩
  · rw [h, h']
    refine ⟨rfl, fun r₁ s₁ heq p hp => ?_⟩
    cases heq
    refine hend.left p ?_
    simpa [Other] using hp

end Calls

/-! ## A claim that the pattern matches -/

section Matched

variable {m n on om : String}

/-- Both messages in `processing`, with their claims. -/
def bothClaimed (m om n on : String) : Disk where
  files := (((Files.empty.put (messagePath "s" "a" n) ⟨.junk, 0, 0⟩).put (claimPath "s" "a" n on)
    ⟨.json (claimMeta n on 0), 0, 1⟩).put (messagePath "s" "a" m) ⟨.junk, 0, 2⟩).put
    (claimPath "s" "a" m om) ⟨.json (claimMeta m om 0), 0, 3⟩
  dirs := [.box "s" "a" .inbox, .box "s" "a" .processing, .box "s" "a" .archive]
  locks := []
  inoLocks := []

/-- The claim files that a call on `m` finds. -/
def claimsFound (s : Disk) (m : String) : List String :=
  (((s.files.names (.box "s" "a" .processing)).insertionSort fun _ _ => (0 : ℕ) ≤ 0).filter
    (globMatch (".claim-" ++ m ++ "-") ".json")).insertionSort (· ≤ ·)

theorem mem_claimsFound {s : Disk} {name : String} : name ∈ claimsFound s m ↔
    (∃ f, s.files.get? ⟨.box "s" "a" .processing, name⟩ = some f) ∧
    globMatch (".claim-" ++ m ++ "-") ".json" name = true := by
  simp only [claimsFound, List.mem_insertionSort, List.mem_filter, Files.mem_names]

theorem claimsFound_nodup (s : Disk) (m : String) : (claimsFound s m).Nodup :=
  (List.perm_insertionSort _ _).nodup_iff.mpr
    (((List.perm_insertionSort _ _).nodup_iff.mpr (Files.names_nodup s.files _)).filter _)

theorem play_claimsFound {α : Type} (s : Disk) (m : String) (f : List String → Call α) :
    (sortedGlob (.box "s" "a" .processing) (".claim-" ++ m ++ "-") ".json" >>= f).play world 0
      (fun _ => {}) s = (f (claimsFound s m)).play world 0 (fun _ => {}) s := rfl

theorem globMatch_append (pre key suf : String) : globMatch pre suf (pre ++ key ++ suf) = true := by
  simp only [globMatch, Bool.and_eq_true, decide_eq_true_eq, String.length_append]
  refine ⟨⟨?_, ?_⟩, by omega⟩
  · rw [String.append_assoc]
    exact startsWith_append _ _
  · simp only [endsWith, List.isSuffixOf_iff_suffix, String.toList_append]
    exact List.suffix_append _ _

/-- The pattern of `m` matches the claims whose key begins with `m` and a dash. -/
theorem globMatch_claim {key : String} (h : startsWith (m ++ "-") key = true) :
    globMatch (".claim-" ++ m ++ "-") ".json" (claimName key) = true := by
  simp only [startsWith, List.isPrefixOf_iff_prefix] at h
  obtain ⟨rest, hrest⟩ := h
  have hkey : key = m ++ "-" ++ String.ofList rest := by
    apply String.toList_inj.mp
    rw [← hrest]
    simp [String.toList_append]
  have hname : claimName key = ".claim-" ++ m ++ "-" ++ String.ofList rest ++ ".json" := by
    rw [claimName, hkey]
    simp only [String.append_assoc]
  rw [hname]
  exact globMatch_append _ _ _

/-- A call on `m` with two claims in sight fails. -/
theorem finalize_two (hm : msgIdOk m = true) {s : Disk} {a b : String} (hne : a ≠ b)
    (ha : a ∈ claimsFound s m) (hb : b ∈ claimsFound s m) (owner : String) :
    ((ClaimCall.finalize.call "s" "a" m owner).play world 0 (fun _ => {}) s).map Prod.fst =
      some (.error (.value ("multiple claim files for " ++ m))) := by
  have hids : agentIdOk "s" = true ∧ agentIdOk "a" = true := by decide
  simp only [ClaimCall.call, Request.call, finalize, validateMsgId, require, hm, if_true, agentSubdir,
    validateAgentId, hids.1, hids.2, Prog.bind_assoc]
  show (Prog.play world 0 _ (sortedGlob _ _ _ >>= _) s).map Prod.fst = _
  rw [play_claimsFound]
  rcases hfound : claimsFound s m with _ | ⟨c, _ | ⟨c', rest⟩⟩
  · rw [hfound] at ha
    cases ha
  · rw [hfound] at ha hb
    exact absurd ((List.mem_singleton.mp ha).trans (List.mem_singleton.mp hb).symm) hne
  · rfl

/-- A call on `m` by its owner with its claim alone in sight succeeds. -/
theorem finalize_one (hm : msgIdOk m = true) {s : Disk} {f f' : MFile} {now : ℕ}
    (hfound : claimsFound s m = [claimName (claimKey m om)])
    (hmessage : s.files.get? (messagePath "s" "a" m) = some f)
    (hclaim : s.files.get? (claimPath "s" "a" m om) = some f')
    (hdata : f'.data = .json (claimMeta m om now)) (hdir : .box "s" "a" .archive ∈ s.dirs) :
    ∃ s', (finalize "s" "a" m om).play world 0 (fun _ => {}) s =
      some (.ok ("finalized → archive/" ++ jsonName m), s') := by
  have hids : agentIdOk "s" = true ∧ agentIdOk "a" = true := by decide
  have howner : (claimMeta m om now).get? "owner" = some (.str om) := rfl
  have hexists : (fileExists (messagePath "s" "a" m)).play world 0 (fun _ => {}) s =
      some (.ok true, s) := by
    simp [fileExists, Prog.op, Prog.play, world, Disk.perform, hmessage]
  have hload : (loadJson (claimPath "s" "a" m om)).play world 0 (fun _ => {}) s =
      some (.ok (claimMeta m om now), s) := by
    simp [loadJson, readBytes, orRaise, Prog.op, Prog.play, world, Disk.perform, hclaim, hdata]
  have hmkdir : (mkdir (.box "s" "a" .archive)).play world 0 (fun _ => {}) s = some (.ok (), s) := by
    simp [mkdir, Prog.op, Prog.play, world, Disk.perform, hdir]
  have hmove : ∃ s₁, (replace (messagePath "s" "a" m) ⟨.box "s" "a" .archive, jsonName m⟩).play world 0
      (fun _ => {}) s = some (.ok (), s₁) := by
    simp [replace, tryReplace, orRaise, Prog.op, Prog.play, world, Disk.perform, hmessage, hdir]
  obtain ⟨s₁, hmove⟩ := hmove
  have hunlink : ∃ s₂, (unlinkMissingOk (claimPath "s" "a" m om)).play world 0 (fun _ => {}) s₁ =
      some (.ok (), s₂) := by
    unfold unlinkMissingOk tryUnlink
    cases hthere : s₁.files.get? (claimPath "s" "a" m om) with
    | none => simp [Prog.op, Prog.play, world, Disk.perform, hthere]
    | some x => simp [orRaise, Prog.op, Prog.play, world, Disk.perform, hthere]
  obtain ⟨s₂, hunlink⟩ := hunlink
  refine ⟨s₂, ?_⟩
  simp only [finalize, validateMsgId, require, hm, if_true, agentSubdir, validateAgentId, hids.1,
    hids.2]
  show Prog.play world 0 _ (sortedGlob _ _ _ >>= _) s = _
  rw [play_claimsFound, hfound]
  show Prog.play world 0 _ (fileExists (messagePath "s" "a" m) >>= _) s = _
  rw [Prog.play_ok_bind hexists]
  show Prog.play world 0 _ (loadJson (claimPath "s" "a" m om) >>= _) s = _
  rw [Prog.play_ok_bind hload]
  show Prog.play world 0 _ (if (claimMeta m om now).get? "owner" = some (.str om) then _ else _) s = _
  rw [if_pos howner, Prog.play_ok_bind hmkdir]
  show Prog.play world 0 _ (replace (messagePath "s" "a" m) _ >>= _) s = _
  rw [Prog.play_ok_bind hmove]
  show Prog.play world 0 _ (unlinkMissingOk (claimPath "s" "a" m om) >>= _) s₁ = _
  rw [Prog.play_ok_bind hunlink]
  rfl

theorem messagePath_ne_claimPath (hm : msgIdOk m = true) (n on : String) :
    messagePath "s" "a" m ≠ claimPath "s" "a" n on := fun h =>
  jsonName_ne_of_dotted hm (dotted_of_claim (startsWith_claimName _)) (congrArg Path.name h).symm

/-- Without the other message the call finds the claim on `m` alone. -/
theorem claimsFound_without (hm : msgIdOk m = true) (hn : msgIdOk n = true)
    (hkey : claimKey m om ≠ claimKey n on) :
    claimsFound ((bothClaimed m om n on).without "s" "a" n on) m = [claimName (claimKey m om)] := by
  refine List.perm_singleton.mp ((List.perm_ext_iff_of_nodup (claimsFound_nodup _ _)
    (List.nodup_singleton _)).mpr fun name => ?_)
  rw [mem_claimsFound, List.mem_singleton]
  have hown : globMatch (".claim-" ++ m ++ "-") ".json" (claimName (claimKey m om)) = true :=
    globMatch_claim (startsWith_append (m ++ "-") om)
  constructor
  · rintro ⟨⟨f, hf⟩, hmatch⟩
    have hdotted := dotted_of_claim (claim_of_globMatch hmatch)
    simp only [Disk.without, bothClaimed, Files.get?_del, Files.get?_put, Files.get?_empty] at hf
    split_ifs at hf with hclaim hmessage hone htwo
    · exact congrArg Path.name hone
    · have hname : name = jsonName m := congrArg Path.name htwo
      rw [hname, dotted_jsonName hm] at hdotted
      cases hdotted
  · rintro rfl
    refine ⟨⟨⟨.json (claimMeta m om 0), 0, 3⟩, ?_⟩, hown⟩
    have hclaim : claimPath "s" "a" m om ≠ claimPath "s" "a" n on :=
      fun h => hkey (claimName_inj (congrArg Path.name h))
    refine (Files.get?_del_ne _ hclaim).trans ?_
    refine (Files.get?_del_ne _ (messagePath_ne_claimPath hn m om).symm).trans ?_
    exact Files.get?_put_self _ _ _

theorem not_apart_of_matched (hm : msgIdOk m = true) (hn : msgIdOk n = true) (hne : m ≠ n)
    (h : startsWith (m ++ "-") (claimKey n on) = true) : ¬ Apart m n on := by
  intro hapart
  -- an owner whose claim on `m` is not the claim on `n` itself
  have howner : ∃ om, agentIdOk om = true ∧ claimKey m om ≠ claimKey n on := by
    by_cases ho : claimKey m "o" = claimKey n on
    · refine ⟨"p", by decide, fun hp => ?_⟩
      have heq := congrArg String.toList (ho.trans hp.symm)
      simp [claimKey, String.toList_append] at heq
    · exact ⟨"o", by decide, ho⟩
  obtain ⟨om, hom, hkey⟩ := howner
  have hclaims : claimPath "s" "a" m om ≠ claimPath "s" "a" n on :=
    fun h => hkey (claimName_inj (congrArg Path.name h))
  have hmessages : messagePath "s" "a" m ≠ messagePath "s" "a" n :=
    fun h => hne (jsonName_inj (congrArg Path.name h))
  have hmm := messagePath_ne_claimPath hm m om
  have hmn := messagePath_ne_claimPath hm n on
  have hnm := messagePath_ne_claimPath hn m om
  have hnn := messagePath_ne_claimPath hn n on
  have hget (p : MPath) : (bothClaimed m om n on).files.get? p =
      if p = claimPath "s" "a" m om then some ⟨.json (claimMeta m om 0), 0, 3⟩
      else if p = messagePath "s" "a" m then some ⟨.junk, 0, 2⟩
      else if p = claimPath "s" "a" n on then some ⟨.json (claimMeta n on 0), 0, 1⟩
      else if p = messagePath "s" "a" n then some ⟨.junk, 0, 0⟩ else none := by
    simp only [bothClaimed, Files.get?_put, Files.get?_empty]
  have hfirst : Claimed (bothClaimed m om n on) "s" "a" m om :=
    ⟨by rw [hget, if_neg hmm, if_pos rfl]; rfl, by rw [hget, if_pos rfl]; rfl⟩
  have hsecond : Claimed (bothClaimed m om n on) "s" "a" n on := by
    refine ⟨?_, ?_⟩
    · rw [hget, if_neg hnm, if_neg hmessages.symm, if_neg hnn, if_pos rfl]
      rfl
    · rw [hget, if_neg hclaims.symm, if_neg hmn.symm, if_pos rfl]
      rfl
  have hsame := (hapart (bothClaimed m om n on) "s" "a" om om .finalize 0 (fun _ => {}) hom hfirst
    hsecond).1
  have hfound : claimName (claimKey m om) ∈ claimsFound (bothClaimed m om n on) m :=
    mem_claimsFound.mpr ⟨Option.isSome_iff_exists.mp hfirst.claim,
      globMatch_claim (startsWith_append (m ++ "-") om)⟩
  have hfound' : claimName (claimKey n on) ∈ claimsFound (bothClaimed m om n on) m :=
    mem_claimsFound.mpr ⟨Option.isSome_iff_exists.mp hsecond.claim, globMatch_claim h⟩
  have hboth := finalize_two hm (fun h => hkey (claimName_inj h)) hfound hfound' om
  have hwithout (p : MPath) (hp : p ≠ claimPath "s" "a" n on) (hp' : p ≠ messagePath "s" "a" n) :
      ((bothClaimed m om n on).without "s" "a" n on).files.get? p =
        (bothClaimed m om n on).files.get? p :=
    (Files.get?_del_ne _ hp).trans (Files.get?_del_ne _ hp')
  have hmessage := hwithout (messagePath "s" "a" m) hmn hmessages
  rw [hget, if_neg hmm, if_pos rfl] at hmessage
  have hclaim := hwithout (claimPath "s" "a" m om) hclaims hnm.symm
  rw [hget, if_pos rfl] at hclaim
  obtain ⟨s', halone⟩ := finalize_one hm (claimsFound_without hm hn hkey) hmessage hclaim rfl
    (by simp [Disk.without, bothClaimed])
  rw [hboth] at hsame
  have hcall : (ClaimCall.finalize.call "s" "a" m om).play world 0 (fun _ => {})
      ((bothClaimed m om n on).without "s" "a" n on) =
      some (.ok (.text ("finalized → archive/" ++ jsonName m)), s') := Prog.play_ok_bind halone
  rw [hcall] at hsame
  cases hsame

end Matched

/-- **When calls do not notice another claim.**  `finalize`, `finalize_from_inbox`, `release`
and `renew_claim` on one claimed message do the same whether or not another claimed message
is there, and leave its files alone, exactly if the identifier and the owner of the other one,
joined by a dash, do not begin with the identifier and a dash. -/
theorem apart_iff (m n on : String) (hm : msgIdOk m = true) (hn : msgIdOk n = true) (hne : m ≠ n) :
    Apart m n on ↔ startsWith (m ++ "-") (claimKey n on) = false := by
  constructor
  · intro hapart
    rw [← Bool.not_eq_true]
    exact fun h => not_apart_of_matched hm hn hne h hapart
  · exact apart_of_not_matched hm hn hne

theorem apart_a_b : Apart "a" "b" "o" :=
  (apart_iff "a" "b" "o" (by decide) (by decide) (by decide)).mpr (by decide)

/-- The claim on `a-b` is found for `a`. -/
theorem not_apart : ¬ ∀ m n on : String, msgIdOk m = true → msgIdOk n = true → agentIdOk on = true →
    m ≠ n → Apart m n on := by
  intro h
  exact not_apart_of_matched (by decide) (by decide) (by decide) (by decide)
    (h "a" "a-b" "o" (by decide) (by decide) (by decide) (by decide))

end AiMeshChat.Mailbox
