import AiMeshChat.Mailbox.Claims

/-!
# What a call of the store can touch

For each function of the store, the operations it may call, whatever the answers
are. Most of them only look (`Op.looks`); the others are listed by the paths
they write. The results about interleavings use these lists and never unfold a
function of the sending half again.
-/

namespace AiMeshChat.Mailbox

open Lib

/-- Operations that change no file and no lock of a claim. -/
def Op.looks : Op → Bool
  | .fileExists _ | .isDir _ | .mkdir _ | .read _ | .scan _ | .stat _ | .clock | .random
  | .randomText | .flock _ | .funlock _ => true
  | _ => false

/-! ## Functions that only look -/

section Looks

variable {φ : Op → Prop}

theorem require_only (c : Bool) (e : PyErr) : (require c e).Only φ := by
  unfold require; split <;> simp

theorem orRaise_only {α : Type} (r : Except OsErr α) : (orRaise r).Only φ := by
  cases r <;> simp [orRaise]

theorem validateAgentId_only (a : String) : (validateAgentId a).Only φ := require_only _ _

theorem validateMsgId_only (m : String) : (validateMsgId m).Only φ := require_only _ _

theorem requireValid_only (what : String) (r : Except Refusal Unit) :
    (requireValid what r).Only φ := by
  unfold requireValid; split <;> simp

theorem agentSubdir_only (sid a : String) (b : Box) : (agentSubdir sid a b).Only φ :=
  (validateAgentId_only a).bind fun _ => (validateAgentId_only sid).bind fun _ => by simp

theorem agentSubdir_bind {α : Type} (sid a : String) (b : Box) (f : Dir → Call α) :
    agentSubdir sid a b >>= f =
      validateAgentId a >>= fun _ => validateAgentId sid >>= fun _ => f (.box sid a b) := by
  rw [agentSubdir, Prog.bind_assoc]
  congr 1
  funext _
  rw [Prog.bind_assoc]
  rfl

/-- What follows `agent_subdir` runs with the directory it names. -/
theorem agentSubdir_bind_only {α : Type} {sid a : String} {b : Box} {f : Dir → Call α}
    (h : (f (.box sid a b)).Only φ) : (agentSubdir sid a b >>= f).Only φ := by
  rw [agentSubdir_bind]
  exact (validateAgentId_only a).bind fun _ => (validateAgentId_only sid).bind fun _ => h

theorem attachmentRef_only (ad : Json) : (attachmentRef ad).Only φ := by
  unfold attachmentRef
  split
  · simp
  · split
    · simp
    · split <;> simp

theorem attachmentRefs_only (as : List Json) : (attachmentRefs as).Only φ := by
  induction as with
  | nil => simp [attachmentRefs]
  | cons ad rest ih =>
    exact (attachmentRef_only ad).bind fun r => ih.bind fun rs => by simp

variable (hφ : ∀ o : Op, o.looks = true → φ o)
include hφ

theorem look_only {o : Op} (ho : o.looks = true) : (Prog.op o : Call (Ans o)).Only φ := by
  simpa using hφ o ho

theorem readSession_only (sid : String) : (readSession sid).Only φ := by
  refine (validateAgentId_only sid).bind fun _ => (look_only hφ rfl).bind fun b => ?_
  split
  · refine (look_only hφ rfl).bind fun r => ?_
    split <;> simp
  · simp

theorem checkInboxes_only (sid : String) (rs : List String) : (checkInboxes sid rs).Only φ := by
  induction rs with
  | nil => simp [checkInboxes]
  | cons r rest ih =>
    exact (agentSubdir_only sid r .inbox).bind fun d =>
      (look_only hφ rfl).bind fun b => (require_only _ _).bind fun _ => ih

theorem checkSend_only (a : SendArgs) : (checkSend a).Only φ :=
  (validateAgentId_only _).bind fun _ => (look_only hφ rfl).bind fun _ =>
    (require_only _ _).bind fun _ => (readSession_only hφ _).bind fun _ =>
    (require_only _ _).bind fun _ => (require_only _ _).bind fun _ =>
    (require_only _ _).bind fun _ => (attachmentRefs_only _).bind fun _ =>
    (require_only _ _).bind fun _ => (checkInboxes_only hφ _ _).bind fun _ =>
    (require_only _ _).bind fun _ => (require_only _ _).bind fun _ => by simp

theorem loadOrEmpty_only (p : MPath) : (loadOrEmpty p).Only φ := by
  refine (look_only hφ rfl).bind fun r => ?_
  split <;> simp

theorem findInInboxes_only (sid mid : String) (rs : List String) :
    ∀ found, (findInInboxes sid mid rs found).Only φ := by
  induction rs with
  | nil => intro found; simp [findInInboxes]
  | cons r rest ih =>
    intro found
    refine (agentSubdir_only sid r .inbox).bind fun d => (look_only hφ rfl).bind fun b => ?_
    split
    · exact (loadOrEmpty_only hφ _).bind fun j => ih _
    · exact ih _

theorem findExisting_only (sid mid : String) (rs : List String) :
    (findExisting sid mid rs).Only φ := by
  refine (findInInboxes_only hφ sid mid rs none).bind fun e => ?_
  split
  · simp
  · refine (look_only hφ rfl).bind fun b => ?_
    split
    · exact (loadOrEmpty_only hφ _).bind fun j => by simp
    · simp

theorem inAnyInbox_only (sid mid : String) (rs : List String) :
    (inAnyInbox sid mid rs).Only φ := by
  induction rs with
  | nil => simp [inAnyInbox]
  | cons r rest ih =>
    refine (agentSubdir_only sid r .inbox).bind fun d => (look_only hφ rfl).bind fun b => ?_
    split
    · simp
    · exact ih

theorem genMsgId_only (sender : String) : (genMsgId sender).Only φ :=
  (look_only hφ rfl).bind fun _ => (look_only hφ rfl).bind fun _ => by simp

theorem freshMsgId_only (a : SendArgs) (rs : List String) :
    ∀ fuel, (freshMsgId a rs fuel).Only φ := by
  intro fuel
  induction fuel with
  | zero => simp [freshMsgId]
  | succ fuel ih =>
    refine (genMsgId_only hφ _).bind fun mid => (inAnyInbox_only hφ _ _ _).bind fun b => ?_
    split
    · exact ih
    · refine (look_only hφ rfl).bind fun b => ?_
      split
      · exact ih
      · simp

theorem statAll_only (d : Dir) (names : List String) : (statAll d names).Only φ := by
  induction names with
  | nil => simp [statAll]
  | cons name rest ih =>
    refine (look_only hφ rfl).bind fun st => ih.bind fun found => ?_
    split <;> simp

theorem listMessages_only (d : Dir) : (listMessages d).Only φ := by
  refine (look_only hφ rfl).bind fun b => ?_
  split
  · exact (look_only hφ rfl).bind fun names => (statAll_only hφ d _).bind fun found => by simp
  · simp

theorem sortedGlob_only (d : Dir) (pre suf : String) : (sortedGlob d pre suf).Only φ :=
  (look_only hφ rfl).bind fun names => by simp

theorem loadClaim_only (p : MPath) : (loadClaim p).Only φ := by
  refine (look_only hφ rfl).bind fun r => ?_
  split
  · split <;> simp
  · simp

theorem loadJson_only (p : MPath) : (loadJson p).Only φ := by
  refine (look_only hφ rfl).bind fun r => (orRaise_only r).bind fun x => ?_
  split <;> simp

theorem fromRoster_only (sid : String) (msg : Json) : (fromRoster sid msg).Only φ := by
  refine (readSession_only hφ sid).bind fun info => ?_
  split
  · simp
  · split
    · simp
    · split
      · simp
      · split <;> simp

end Looks

/-! ## The footprint of `send` -/

/-- The operations of `append_history`. -/
inductive HistoryOp (sid : String) : Op → Prop
  | look {o : Op} : o.looks = true → HistoryOp sid o
  | draft (mid : String) (x : Data) : HistoryOp sid (.writeNew ⟨.history sid, tmpName mid⟩ x)
  | record (a b : String) : HistoryOp sid (.replace ⟨.history sid, a⟩ ⟨.history sid, b⟩ none)

/-- The operations of `send` in the session `sid`: it looks, it writes temporary
files, and it renames inside an inbox, the session directory or the history. -/
inductive SendOp (sid : String) : Op → Prop
  | look {o : Op} : o.looks = true → SendOp sid o
  | tmp {p : MPath} {x : Data} : startsWith ".tmp-" p.name = true → SendOp sid (.write p x)
  | tmpNew {p : MPath} {x : Data} : startsWith ".tmp-" p.name = true → SendOp sid (.writeNew p x)
  | publish (agent mid : String) :
      SendOp sid (.replace ⟨.box sid agent .inbox, tmpName mid⟩
        ⟨.box sid agent .inbox, jsonName mid⟩ none)
  | openCursor : SendOp sid (.openFd ⟨.session sid, STREAM_CURSOR_FILE⟩)
  | session (a b : String) : SendOp sid (.replace ⟨.session sid, a⟩ ⟨.session sid, b⟩ none)
  | history (a b : String) : SendOp sid (.replace ⟨.history sid, a⟩ ⟨.history sid, b⟩ none)

/-- The operations by which `send` stores the message `mid`: its envelopes, the cursor and
its record. -/
inductive StoreOp (sid mid : String) : Op → Prop
  | look {o : Op} : o.looks = true → StoreOp sid mid o
  | envelope (agent : String) (x : Data) :
      StoreOp sid mid (.write ⟨.box sid agent .inbox, tmpName mid⟩ x)
  | publish (agent : String) :
      StoreOp sid mid (.replace ⟨.box sid agent .inbox, tmpName mid⟩
        ⟨.box sid agent .inbox, jsonName mid⟩ none)
  | openCursor : StoreOp sid mid (.openFd ⟨.session sid, STREAM_CURSOR_FILE⟩)
  | cursorDraft {j : Json} : j.isDict = true →
      StoreOp sid mid (.write ⟨.session sid, ".tmp-stream-cursor"⟩ (.json j))
  | cursor : StoreOp sid mid (.replace ⟨.session sid, ".tmp-stream-cursor"⟩
      ⟨.session sid, STREAM_CURSOR_FILE⟩ none)
  | draft (x : Data) : StoreOp sid mid (.writeNew ⟨.history sid, tmpName mid⟩ x)
  | record : StoreOp sid mid (.replace ⟨.history sid, tmpName mid⟩
      ⟨.history sid, jsonName mid⟩ none)

theorem startsWith_append (p s : String) : startsWith p (p ++ s) = true := by
  simp [startsWith, String.toList_append]

theorem startsWith_tmpName (mid : String) : startsWith ".tmp-" (tmpName mid) = true := by
  rw [tmpName, String.append_assoc]; exact startsWith_append _ _

theorem sendOp_of_storeOp {sid mid : String} {o : Op} (h : StoreOp sid mid o) : SendOp sid o := by
  cases h with
  | look h => exact .look h
  | envelope agent x => exact .tmp (startsWith_tmpName mid)
  | publish agent => exact .publish agent mid
  | openCursor => exact .openCursor
  | cursorDraft h => exact .tmp (startsWith_append ".tmp-" "stream-cursor")
  | cursor => exact .session _ _
  | draft x => exact .tmpNew (startsWith_tmpName mid)
  | record => exact .history _ _

theorem write_only {φ : Op → Prop} {p : MPath} {x : Data} (h : φ (.write p x)) :
    (write p x).Only φ :=
  Prog.Only.bind (by simpa [tryWrite] using h) fun r => orRaise_only r

theorem replace_only {φ : Op → Prop} {p q : MPath} {l : Option Lease} (h : φ (.replace p q l)) :
    (replace p q l).Only φ :=
  Prog.Only.bind (by simpa [tryReplace] using h) fun r => orRaise_only r

theorem writeNewOr_only {φ : Op → Prop} {p : MPath} {x : Data} {e : PyErr} (h : φ (.writeNew p x)) :
    (writeNewOr p x e).Only φ := by
  refine Prog.Only.bind (by simpa [tryWriteNew] using h) fun r => ?_
  split
  · simp
  · exact orRaise_only _

/-- `append_history` looks, writes a draft and renames it. -/
theorem appendHistory_only {φ : Op → Prop} (hφ : ∀ o : Op, o.looks = true → φ o) {sid : String}
    {msg : Json} (hdraft : φ (.writeNew ⟨.history sid, tmpName (textOf msg "msg_id")⟩ (.json msg)))
    (hrecord : φ (.replace ⟨.history sid, tmpName (textOf msg "msg_id")⟩
      ⟨.history sid, jsonName (textOf msg "msg_id")⟩ none)) : (appendHistory sid msg).Only φ :=
  (validateAgentId_only _).bind fun _ => (look_only hφ rfl).bind fun _ =>
    (require_only _ _).bind fun _ => (require_only _ _).bind fun _ =>
    (requireValid_only _ _).bind fun _ => (validateMsgId_only _).bind fun _ =>
    (look_only hφ rfl).bind fun _ => (look_only hφ rfl).bind fun _ =>
    (require_only _ _).bind fun _ => (writeNewOr_only hdraft).bind fun _ =>
    (replace_only hrecord).bind fun _ => by simp

theorem appendHistory_historyOp (sid : String) (msg : Json) :
    (appendHistory sid msg).Only (HistoryOp sid) :=
  appendHistory_only (fun _ h => .look h) (.draft _ _) (.record _ _)

theorem appendHistory_storeOp (sid : String) {mid : String} {msg : Json}
    (hmid : textOf msg "msg_id" = mid) : (appendHistory sid msg).Only (StoreOp sid mid) := by
  subst hmid
  exact appendHistory_only (fun _ h => .look h) (.draft _) .record

theorem appendHistory_sendOp (sid : String) (msg : Json) :
    (appendHistory sid msg).Only (SendOp sid) :=
  (appendHistory_storeOp sid rfl).mono fun _ h => sendOp_of_storeOp h

theorem advanceCursor_storeOp (sid mid : String) : (advanceCursor sid).Only (StoreOp sid mid) := by
  have hφ : ∀ o : Op, o.looks = true → StoreOp sid mid o := fun o h => .look h
  refine (validateAgentId_only _).bind fun _ => (look_only hφ rfl).bind fun _ =>
    (look_only hφ rfl).bind fun _ => Prog.Only.bind ?_ fun fd => (orRaise_only fd).bind fun n =>
    (look_only hφ rfl).bind fun _ => Prog.Only.bind ?_ fun _ => by simp
  · simpa [openFd] using StoreOp.openCursor
  · refine Prog.Only.ensure (Prog.Only.bind ?_ fun prev => ?_) (look_only hφ rfl)
    · refine (look_only hφ rfl).bind fun b => ?_
      split
      · refine (look_only hφ rfl).bind fun r => ?_
        split
        · split <;> simp
        · simp
      · simp
    · exact (write_only (.cursorDraft rfl)).bind fun _ =>
        (replace_only .cursor).bind fun _ => by simp

theorem advanceCursor_sendOp (sid : String) : (advanceCursor sid).Only (SendOp sid) :=
  (advanceCursor_storeOp sid "").mono fun _ h => sendOp_of_storeOp h

theorem backfill_storeOp (sid mid : String) (existing : Json) (rs : List String) :
    (backfill sid mid existing rs).Only (StoreOp sid mid) := by
  have hφ : ∀ o : Op, o.looks = true → StoreOp sid mid o := fun o h => .look h
  induction rs with
  | nil => simp [backfill]
  | cons r rest ih =>
    refine agentSubdir_bind_only ((look_only hφ rfl).bind fun b => ?_)
    split
    · exact ih
    · exact (write_only (.envelope r _)).bind fun _ =>
        (replace_only (.publish r)).bind fun _ => ih.bind fun n => by simp

theorem backfill_sendOp (sid mid : String) (existing : Json) (rs : List String) :
    (backfill sid mid existing rs).Only (SendOp sid) :=
  (backfill_storeOp sid mid existing rs).mono fun _ h => sendOp_of_storeOp h

theorem publish_storeOp (sid mid : String) (payload : Json) (rs : List String) :
    (publish sid mid payload rs).Only (StoreOp sid mid) := by
  induction rs with
  | nil => simp [publish]
  | cons r rest ih =>
    exact agentSubdir_bind_only ((write_only (.envelope r _)).bind fun _ =>
      (replace_only (.publish r)).bind fun _ => ih)

theorem publish_sendOp (sid mid : String) (payload : Json) (rs : List String) :
    (publish sid mid payload rs).Only (SendOp sid) :=
  (publish_storeOp sid mid payload rs).mono fun _ h => sendOp_of_storeOp h

theorem replay_sendOp (a : SendArgs) (mid : String) (rs : List String) (refs : List AttachmentRef)
    (existing : Json) : (replay a mid rs refs existing).Only (SendOp a.sessionId) := by
  have hφ : ∀ o : Op, o.looks = true → SendOp a.sessionId o := fun o h => .look h
  refine (require_only _ _).bind fun _ => (require_only _ _).bind fun _ =>
    (backfill_sendOp _ _ _ _).bind fun n => Prog.Only.bind ?_ fun _ => by simp
  refine (look_only hφ rfl).bind fun b => ?_
  split
  · simp
  · exact (appendHistory_sendOp _ _).bind fun _ => by simp

theorem sendNew_sendOp (a : SendArgs) (mid : String) (rs : List String)
    (refs : List AttachmentRef) : (sendNew a mid rs refs).Only (SendOp a.sessionId) := by
  have hφ : ∀ o : Op, o.looks = true → SendOp a.sessionId o := fun o h => .look h
  refine (look_only hφ rfl).bind fun now => ?_
  -- `refine` would evaluate the check of the message
  apply Prog.Only.bind (requireValid_only _ _)
  intro _
  exact (publish_sendOp _ _ _ _).bind fun _ => (advanceCursor_sendOp _).bind fun c =>
    (publish_sendOp _ _ _ _).bind fun _ => (appendHistory_sendOp _ _).bind fun _ => by simp

/-- **The footprint of `send`.** -/
theorem send_sendOp (fuel : ℕ) (a : SendArgs) : (send fuel a).Only (SendOp a.sessionId) := by
  have hφ : ∀ o : Op, o.looks = true → SendOp a.sessionId o := fun o h => .look h
  refine (checkSend_only hφ a).bind fun x => ?_
  dsimp only
  split
  · refine (validateMsgId_only _).bind fun _ => (findExisting_only hφ _ _ _).bind fun e => ?_
    split
    · exact replay_sendOp _ _ _ _ _
    · exact sendNew_sendOp _ _ _ _
  · exact (freshMsgId_only hφ a _ fuel).bind fun mid => sendNew_sendOp _ _ _ _

end AiMeshChat.Mailbox
