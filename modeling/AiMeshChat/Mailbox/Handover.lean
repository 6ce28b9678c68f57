import AiMeshChat.Mailbox.Stats

/-!
# Messages stay in their mailbox

Readers, sweepers and the callers of `finalize`, `release` and `renew_claim` share a mailbox,
and each of them may die anywhere. Whatever they do, a message only goes from one folder to
another under its own name: what is removed or written anew is hidden.

So no message file is ever lost (`messages_kept`), and the calls that consume messages leave
none behind that was not there before, byte by byte (`messages_unaltered`).
-/

namespace AiMeshChat.Mailbox

open Lib

/-! ## The operations -/

/-- Whatever the operation changes in a mailbox is hidden. -/
def Op.Aside (o : Op) : Prop :=
  ∀ p ∈ o.targets, ∀ sid agent b, p.dir = .box sid agent b → dotted p.name = true

/-- The operations of the calls that consume messages: a message goes to another folder. -/
inductive ConsumeOp : Op → Prop
  | aside {o : Op} : o.Aside → ConsumeOp o
  | hand (sid agent : String) (b b' : Box) (name : String) (l : Option Lease) :
      ConsumeOp (.replace ⟨.box sid agent b, name⟩ ⟨.box sid agent b', name⟩ l)

/-- The operations of all calls: `send` turns a hidden file into a message. -/
inductive MailOp : Op → Prop
  | consume {o : Op} : ConsumeOp o → MailOp o
  | publish (sid agent mid : String) :
      MailOp (.replace ⟨.box sid agent .inbox, tmpName mid⟩
        ⟨.box sid agent .inbox, jsonName mid⟩ none)

theorem consume_look (o : Op) (h : o.looks = true) : ConsumeOp o := by
  refine .aside fun p hp => ?_
  have hno : o.targets = [] := by cases o <;> first | rfl | cases h
  rw [hno] at hp
  cases hp

theorem consume_hidden {o : Op} {p : MPath} (ho : o.targets = [p]) (h : dotted p.name = true) :
    ConsumeOp o := by
  refine .aside fun q hq _ _ _ _ => ?_
  rw [ho] at hq
  rw [List.mem_singleton.mp hq]
  exact h

theorem consume_lock (p : MPath) : ConsumeOp (.lock p) := .aside fun _ h => by cases h

theorem consume_unlock (p : MPath) : ConsumeOp (.unlock p) := .aside fun _ h => by cases h

section Calls

variable {sid agent : String} {name : String}

theorem consume_finishOp {o : Op} (h : FinishOp sid agent o) : ConsumeOp o := by
  cases h with
  | look h => exact consume_look _ h
  | dropClaim h => exact consume_hidden rfl (dotted_of_claim h)
  | archive h => exact .hand _ _ _ _ _ _
  | back h => exact .hand _ _ _ _ _ _

theorem consume_reapOp {o : Op} (hname : dotted name = true)
    (h : ReapOp sid agent ⟨.box sid agent .processing, name⟩ o) : ConsumeOp o := by
  cases h with
  | look h => exact consume_look _ h
  | lock p => exact consume_lock p
  | unlock p => exact consume_unlock p
  | dropClaim => exact consume_hidden rfl hname
  | back msgId l => exact .hand _ _ _ _ _ _

/-- The role of a call that performs only such operations. -/
abbrev consumeRole : Role Op Ans := ⟨Unit, fun _ => ConsumeOp, fun _ _ _ => True, fun _ _ _ => ()⟩

theorem reader_consumes (a : ReadArgs) : Reader consumeRole () (fun _ => True) a := by
  have hignores {o : Op} (h : ConsumeOp o) : consumeRole.Ignores () o := ⟨h, fun _ => rfl⟩
  exact {
    look := fun o h => hignores (consume_look o h)
    unlink := fun name h => hignores (consume_hidden rfl h)
    draft := fun name n now _ =>
      hignores (consume_hidden rfl (dotted_of_tmpClaim (startsWith_tmpClaimName _ n)))
    create := fun name now _ =>
      hignores (consume_hidden rfl (dotted_of_claim (startsWith_claimName _)))
    link := fun name n _ => hignores (consume_hidden rfl (dotted_of_claim (startsWith_claimName _)))
    quarantine := fun name => hignores (.hand _ _ _ _ _ _)
    reap := fun key => (reapExpiredClaim_reapOp _ _ _).keeps fun o ho =>
      hignores (consume_reapOp (dotted_of_claim (startsWith_claimName key)) ho)
    good := fun _ _ _ _ => trivial
    claim := fun name _ => ⟨.hand _ _ _ _ _ _, fun _ => rfl⟩
    claimed := fun name tmp _ h => hignores (consume_hidden rfl h) }

theorem renewLocked_consumes (msgId owner : String) :
    (renewLocked (.box sid agent .processing) msgId owner).Only ConsumeOp := by
  have htmp := dotted_of_tmpRenew (startsWith_tmpRenewName (claimKey msgId owner))
  refine (look_only consume_look rfl).bind fun b => ?_
  split
  · refine (sortedGlob_only consume_look _ _ _).bind_rets (sortedGlob_rets _ _ _)
      fun names hnames => ?_
    split
    · next claimFile =>
      have hc := dotted_of_claim (claim_of_globMatch (hnames claimFile (by simp)))
      refine (loadClaim_only consume_look _).bind fun cl => ?_
      split
      · simp
      · split
        · refine (look_only consume_look rfl).bind fun now => Prog.Only.bind
            (rewriteClaim_only (consume_hidden rfl htmp) (consume_hidden rfl htmp)
              (.aside fun p hp _ _ _ _ => ?_)) fun done => ?_
          · rcases List.mem_pair.mp hp with rfl | rfl
            · exact htmp
            · exact hc
          · split
            · refine (look_only consume_look rfl).bind fun b => ?_
              split
              · simp
              · exact (unlinkMissingOk_only (consume_hidden rfl hc)).bind fun _ => by simp
            · simp
        · simp
    · simp
  · simp

theorem renewClaim_consumes (msgId owner : String) :
    (renewClaim sid agent msgId owner).Only ConsumeOp := by
  refine (validateMsgId_only _).bind fun _ =>
    agentSubdir_bind_only ((look_only consume_look rfl).bind fun b => ?_)
  split
  · refine (sortedGlob_only consume_look _ _ _).bind fun names => ?_
    split
    · exact withClaimLock_only consume_lock consume_unlock (renewLocked_consumes msgId owner)
    · simp
  · simp

theorem recoverClaims_consumes (cutoff gate : ℤ) {names : List String}
    (h : ∀ name ∈ names, dotted name = true) :
    (recoverClaims (.box sid agent .inbox) (.box sid agent .processing) cutoff gate names).Only
      ConsumeOp := by
  induction names with
  | nil => simp [recoverClaims]
  | cons name rest ih =>
    have hname := h name List.mem_cons_self
    have hone : (recoverClaim (.box sid agent .inbox) (.box sid agent .processing) cutoff gate
        ⟨.box sid agent .processing, name⟩).Only ConsumeOp := by
      refine (loadClaim_only consume_look _).bind fun cl => ?_
      split
      · simp
      · split
        · simp
        · exact withClaimLock_only consume_lock consume_unlock (recoverLocked_only consume_look
            (consume_hidden rfl hname) (fun l => .hand _ _ _ _ _ _) _ _ _)
    refine (hone.tryCatch fun e => ?_).bind fun moved =>
      (ih fun n hn => h n (List.mem_cons_of_mem _ hn)).bind fun n => by simp
    split <;> simp

theorem recoverStale_consumes : (recoverStale sid agent).Only ConsumeOp := by
  refine agentSubdir_bind_only
    (agentSubdir_bind_only ((look_only consume_look rfl).bind fun b => ?_))
  split
  · refine (look_only consume_look rfl).bind fun _ => (look_only consume_look rfl).bind fun _ =>
      (sortedGlob_only consume_look _ _ _).bind_rets (sortedGlob_rets _ _ _)
        fun claims hclaims => ?_
    refine (recoverClaims_consumes _ _ fun name hname =>
      dotted_of_claim (startsWith_of_globMatch (hclaims name hname))).bind fun n => ?_
    refine (sortedGlob_only consume_look _ _ _).bind_rets (sortedGlob_rets _ _ _)
      fun tmps htmps => ?_
    exact (sweepTmpClaims_only consume_look (fun name hname => consume_hidden rfl
      (dotted_of_tmpClaim (startsWith_of_globMatch (htmps name hname)))) _).bind fun _ => by simp
  · simp

theorem send_mailOp (fuel : ℕ) (a : SendArgs) : (send fuel a).Only MailOp := by
  refine (send_sendOp fuel a).mono fun o ho => ?_
  cases ho with
  | look h => exact .consume (consume_look _ h)
  | tmp h => exact .consume (consume_hidden rfl (dotted_of_tmp h))
  | tmpNew h => exact .consume (consume_hidden rfl (dotted_of_tmp h))
  | publish agent mid => exact .publish _ _ _
  | openCursor | session a b | history a b =>
    refine .consume (.aside fun p hp _ _ _ hd => ?_)
    simp only [Op.targets, List.mem_cons, List.not_mem_nil, or_false] at hp
    rcases hp with rfl | rfl <;> cases hd

/-- **Every call but `send`** consumes. -/
theorem call_consumes (fuel : ℕ) {r : Request} (hr : ∀ a, r ≠ .send a) :
    (r.call fuel).Only ConsumeOp := by
  have hwrap {α : Type} {p : Call α} (f : α → Result) (hp : p.Only ConsumeOp) :
      (p >>= fun a => pure (f a)).Only ConsumeOp := hp.bind fun _ => by simp
  cases r with
  | send a => exact absurd rfl (hr a)
  | read a =>
    exact hwrap .message ((read_keeps (reader_consumes a) fuel).only (fun _ _ _ => trivial)
      fun _ _ h => h)
  | finalize sid agent m o =>
    exact hwrap .text ((finalize_finishOp sid agent m o).mono fun _ => consume_finishOp)
  | finalizeFromInbox sid agent m o =>
    exact hwrap .text (finalizeFromInbox_only consume_look
      (fun b hm => .hand _ _ _ _ _ _) o)
  | release sid agent m o =>
    exact hwrap .text ((release_finishOp sid agent m o).mono fun _ => consume_finishOp)
  | renewClaim sid agent m o => exact hwrap .flag (renewClaim_consumes m o)
  | recoverStale sid agent => exact hwrap .text recoverStale_consumes

theorem call_mailOp (fuel : ℕ) (r : Request) : (r.call fuel).Only MailOp := by
  by_cases hr : ∃ a, r = .send a
  · obtain ⟨a, rfl⟩ := hr
    exact (send_mailOp fuel a).bind fun _ => by simp
  · exact (call_consumes fuel fun a h => hr ⟨a, h⟩).mono fun _ => .consume

end Calls

/-! ## What they leave -/

/-- The message lies in a folder of the mailbox. -/
def Lies (s : Disk) (sid agent name : String) : Prop :=
  ∃ b, (s.files.get? ⟨.box sid agent b, name⟩).isSome = true

section Steps

variable {sid agent name : String} {i : ℕ} {o : Op} {c : Choice} {s s' : Disk} {a : Ans o}

/-- A rename keeps a message whose file it does not move out of the mailbox. -/
theorem Lies.replace {src dst : MPath} {l : Option Lease} {a : Except OsErr Unit}
    (h : Lies s sid agent name) (hw : s.perform i (.replace src dst l) c = some (a, s'))
    (hsrc : ∀ b, src = ⟨.box sid agent b, name⟩ → ∃ b', dst = ⟨.box sid agent b', name⟩) :
    Lies s' sid agent name := by
  obtain ⟨b, hb⟩ := h
  rcases Disk.perform_replace hw with ⟨e, -, rfl⟩ | ⟨-, ⟨f, hf⟩, rfl⟩
  · exact ⟨b, hb⟩
  · by_cases hb' : src = ⟨.box sid agent b, name⟩
    · obtain ⟨b', rfl⟩ := hsrc b hb'
      exact ⟨b', by rw [Files.get?_move hf, if_pos rfl]; rfl⟩
    · refine ⟨b, ?_⟩
      rw [Files.get?_move hf]
      split_ifs with h₁ h₂
      · rfl
      · exact absurd h₂.symm hb'
      · exact hb

theorem Op.Aside.get? (h : o.Aside) (hw : s.perform i o c = some (a, s'))
    (hname : dotted name = false) (b : Box) :
    s'.files.get? ⟨.box sid agent b, name⟩ = s.files.get? ⟨.box sid agent b, name⟩ := by
  refine Disk.perform_get? hw fun ht => ?_
  have hd := h _ ht sid agent b rfl
  rw [hname] at hd
  cases hd

/-- **One operation** loses no message. -/
theorem Lies.perform (h : Lies s sid agent name) (hname : dotted name = false) (ho : MailOp o)
    (hw : s.perform i o c = some (a, s')) : Lies s' sid agent name := by
  cases ho with
  | consume ho =>
    cases ho with
    | aside ho =>
      obtain ⟨b, hb⟩ := h
      exact ⟨b, by rwa [ho.get? hw hname]⟩
    | hand sid₁ agent₁ b₁ b₂ name₁ l =>
      refine h.replace hw fun b hb => ⟨b₂, ?_⟩
      cases hb
      rfl
  | publish sid₁ agent₁ mid =>
    refine h.replace hw fun b hb => ?_
    cases hb
    rw [dotted_of_tmp (startsWith_tmpName mid)] at hname
    cases hname

/-- **One operation** of a consuming call leaves no message that was not there. -/
theorem ConsumeOp.source (ho : ConsumeOp o) (hname : dotted name = false)
    (hw : s.perform i o c = some (a, s')) {b : Box} {f : MFile}
    (hf : s'.files.get? ⟨.box sid agent b, name⟩ = some f) :
    ∃ b', s.files.get? ⟨.box sid agent b', name⟩ = some f := by
  cases ho with
  | aside ho => exact ⟨b, by rwa [← ho.get? hw hname]⟩
  | hand sid₁ agent₁ b₁ b₂ name₁ l =>
    rcases Disk.perform_replace hw with ⟨e, -, rfl⟩ | ⟨-, ⟨g, hg⟩, rfl⟩
    · exact ⟨b, hf⟩
    · rw [Files.get?_move hg] at hf
      split_ifs at hf with h₁
      · cases hf
        cases h₁
        exact ⟨b₁, hg⟩
      · exact ⟨b, hf⟩

end Steps

/-! ## Runs -/

theorem pool_only {φ : Op → Prop} {fuel : ℕ} (s : Disk) {reqs : ℕ → Option Request}
    (h : ∀ i r, reqs i = some r → (r.call fuel).Only φ) (i : ℕ) :
    ((pool fuel s reqs).procs i).Only φ := by
  simp only [pool]
  cases hr : reqs i with
  | none => trivial
  | some r => exact h i r hr

/-- **No message is lost.**  Any number of calls of any kind, in any order, with a disk that fails
and callers that die: a message that lies in a mailbox at some time lies there ever after. -/
theorem messages_kept (fuel : ℕ) (s : Disk) (reqs : ℕ → Option Request)
    (es es' : List (Event Choice)) {sid agent name : String} (hname : dotted name = false)
    (h : Lies ((pool fuel s reqs).run world es).shared sid agent name) :
    Lies ((pool fuel s reqs).run world (es ++ es')).shared sid agent name := by
  have hstart : ∀ i, ((pool fuel s reqs).procs i).Only MailOp :=
    pool_only s fun _ r _ => call_mailOp fuel r
  have hprocs := (Pool.run_only (W := world) (J := fun _ => True) (fun _ _ _ _ _ _ _ _ _ => trivial)
    (fun _ _ _ => trivial) es hstart trivial).1
  rw [Pool.run_append]
  refine (Pool.run_only (φ := MailOp) (J := fun t => Lies t sid agent name) ?_ ?_ es' hprocs h).2
  · exact fun _ _ _ _ _ _ ht ho hw => ht.perform hname ho hw
  · exact fun _ _ ht => ht

/-- The notice that was sent is in the mailbox still when it has been read. -/
theorem notice_kept : Lies ((pool 2 (newSession "s" "a" ["b"] 0) sendThenRead).run world
    (steps 0 60 ++ steps 1 60)).shared "s" "b" "m.json" :=
  messages_kept 2 (newSession "s" "a" ["b"] 0) sendThenRead (steps 0 60) (steps 1 60) (by decide)
    ⟨.inbox, by decide +kernel⟩

/-- **No message is forged or altered.**  Whatever lies in a mailbox after any number of calls that
consume messages lay in that mailbox before under the same name, with the same content. -/
theorem messages_unaltered (fuel : ℕ) (s : Disk) (reqs : ℕ → Option Request)
    (hreqs : ∀ i a, reqs i ≠ some (.send a)) (es : List (Event Choice)) {sid agent name : String}
    (hname : dotted name = false) (b : Box) (f : MFile)
    (hf : ((pool fuel s reqs).run world es).shared.files.get? ⟨.box sid agent b, name⟩ = some f) :
    ∃ b', s.files.get? ⟨.box sid agent b', name⟩ = some f := by
  refine (Pool.run_only (W := world) (φ := ConsumeOp) (J := fun t => ∀ b f,
    t.files.get? ⟨.box sid agent b, name⟩ = some f →
      ∃ b', s.files.get? ⟨.box sid agent b', name⟩ = some f) ?_ ?_ es
    (pool_only s fun i r hr => call_consumes fuel fun a h => hreqs i a (h ▸ hr)) ?_).2 b f hf
  · intro t i o c a t' ht ho hw b f hf
    obtain ⟨b', hb'⟩ := ho.source hname hw hf
    exact ht b' f hb'
  · exact fun _ _ ht => ht
  · exact fun b f hf => ⟨b, hf⟩

/-- The disk when the notice has been sent. -/
def sentNotice : Disk :=
  ((pool 2 (newSession "s" "a" ["b"] 0) sendThenRead).run world (steps 0 60)).shared

/-- Its recipient reads it. -/
def readNotice (i : ℕ) : Option Request :=
  if i = 0 then some (.read { sessionId := "s", agentId := "b", owner := "w" }) else none

theorem notice_unaltered : ∃ f, ((pool 2 sentNotice readNotice).run world
      (steps 0 60)).shared.files.get? ⟨.box "s" "b" .processing, "m.json"⟩ = some f ∧
    ∃ b', sentNotice.files.get? ⟨.box "s" "b" b', "m.json"⟩ = some f := by
  have hread : (((pool 2 sentNotice readNotice).run world (steps 0 60)).shared.files.get?
      ⟨.box "s" "b" .processing, "m.json"⟩).isSome = true := by decide +kernel
  obtain ⟨f, hf⟩ := Option.isSome_iff_exists.mp hread
  refine ⟨f, hf, messages_unaltered 2 sentNotice readNotice (fun i a h => ?_) (steps 0 60)
    (by decide) .processing f hf⟩
  unfold readNotice at h
  split at h <;> cases h

end AiMeshChat.Mailbox
