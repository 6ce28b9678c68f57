import AiMeshChat.Mailbox.ClaimFiles
import AiMeshChat.Mailbox.Merging

/-!
# What a call knows about rosters and messages

The role of a call of the store, `session_init` among them. It has two parts: where the
call is in the code under the lock `.session.lock` (`Phase`), and which senders it has
seen in which roster (`known`). A message that is read is valid and its sender is in the
roster, so reading it adds its sender; an operation on a message is allowed only if the
call knows enough to tell that the message stays valid (`Allowed`). In particular no
message may be moved to `_corrupt`.

Each call keeps this role (`Act.call_keeps`).
-/

namespace AiMeshChat.Mailbox.Readable

open Lib Sessions

/-! ## Messages that can be read -/

section

variable (S : SendArgs → Prop)

/-- The message `mid` of a send in `S`, bare or with its cursor. -/
def Sent (sid mid : String) (j : Json) : Prop :=
  ∃ a t, S a ∧ a.sessionId = sid ∧ (∀ m, a.msgId = some m → m = mid) ∧
    ∃ msg, msg = (messageOf a mid t ((a.attachments.getD []).map refOf)).toDict ∧
      (j = msg ∨ ∃ cursor, j = msg.set "_cursor" (.str cursor))

/-- A message that `read` accepts from the file `mid` in the inbox of `agent`. -/
structure Fit (sid agent mid : String) (j : Json) : Prop where
  sessionOk : agentIdOk sid = true
  agentOk : agentIdOk agent = true
  valid : validateMessage j (some sid) (some agent) (some (jsonName mid)) = .ok ()
  sent : Sent S sid mid j

/-- A record that `append_history` has accepted. -/
structure Recorded (sid mid : String) (j : Json) : Prop where
  valid : validateMessage j (some sid) none none = .ok ()
  msgId : textOf j "msg_id" = mid
  sent : Sent S sid mid j

/-- The sender of a message. -/
def sender (j : Json) : String := textOf j "from"

/-- The name of a claim or of the draft of one. -/
def claimLike (name : String) : Bool :=
  startsWith ".claim-" name || startsWith ".tmp-claim-" name

/-- What the file at a path may hold, if `ρ` are the rosters. No listed file of an inbox
is hidden, so no claim can be on a message with a hidden name. -/
structure Sound (ρ : String → String → Prop) (p : MPath) (x : Data) : Prop where
  message : ∀ sid agent mid b, msgIdOk mid = true → b = .inbox ∨ b = .processing →
    p = ⟨.box sid agent b, jsonName mid⟩ →
      ∃ j, x = .json j ∧ Fit S sid agent mid j ∧ ρ sid (sender j)
  draft : ∀ sid agent mid, msgIdOk mid = true → p = ⟨.box sid agent .inbox, tmpName mid⟩ →
    ∃ j, x = .json j ∧ Fit S sid agent mid j ∧ ρ sid (sender j)
  record : ∀ sid mid, msgIdOk mid = true →
    p = ⟨.history sid, jsonName mid⟩ ∨ p = ⟨.history sid, tmpName mid⟩ →
      ∃ j, x = .json j ∧ Recorded S sid mid j
  plain : ∀ sid agent name, isMessageName name = true → p = ⟨.box sid agent .inbox, name⟩ →
    dotted name = false
  claim : ∀ sid agent name, claimLike name = true → p = ⟨.box sid agent .processing, name⟩ →
    ∃ key j, x = .json j ∧ IsClaim key j

end

variable {S : SendArgs → Prop}

theorem Sound.mono {ρ ρ' : String → String → Prop} {p : MPath} {x : Data} (h : Sound S ρ p x)
    (hρ : ∀ sid y, ρ sid y → ρ' sid y) : Sound S ρ' p x where
  message sid agent mid b hm hb hp := by
    obtain ⟨j, hj, hfit, hs⟩ := h.message sid agent mid b hm hb hp
    exact ⟨j, hj, hfit, hρ _ _ hs⟩
  draft sid agent mid hm hp := by
    obtain ⟨j, hj, hfit, hs⟩ := h.draft sid agent mid hm hp
    exact ⟨j, hj, hfit, hρ _ _ hs⟩
  record := h.record
  plain := h.plain
  claim := h.claim

/-- The reader expects more than the writer: itself as the recipient and the name of
the file. -/
theorem validateMessage_expecting {j : Json} {sid agent name : String} :
    validateMessage j (some sid) (some agent) (some name) = .ok () ↔
      validateMessage j (some sid) none none = .ok () ∧
        (textOf j "to" = agent ∨ textOf j "to" = BROADCAST_TO) ∧
        textOf j "msg_id" ++ ".json" = name := by
  simp only [validateMessage, expectedCheck, bind_eq_ok, need_eq_ok, Option.all_some,
    Option.all_none, Bool.or_eq_true, decide_eq_true_eq]
  constructor
  · rintro ⟨k, hk, _, hkind, _, ⟨_, hs, _, ht, _, hn, hm⟩, hrest⟩
    exact ⟨⟨k, hk, (), hkind, (), ⟨(), hs, (), trivial, (), trivial, hm⟩, hrest⟩, ht, hn⟩
  · rintro ⟨⟨k, hk, _, hkind, _, ⟨_, hs, _, _, _, _, hm⟩, hrest⟩, ht, hn⟩
    exact ⟨k, hk, (), hkind, (), ⟨(), hs, (), ht, (), hn, hm⟩, hrest⟩

theorem Fit.recorded {sid agent mid : String} {j : Json} (h : Fit S sid agent mid j) :
    Recorded S sid mid j := by
  obtain ⟨hv, -, hname⟩ := validateMessage_expecting.mp h.valid
  exact ⟨hv, jsonName_inj hname, h.sent⟩

theorem Recorded.fit {sid agent mid : String} {j : Json} (h : Recorded S sid mid j)
    (hsid : agentIdOk sid = true) (hagent : agentIdOk agent = true)
    (hto : textOf j "to" = agent ∨ textOf j "to" = BROADCAST_TO) : Fit S sid agent mid j :=
  ⟨hsid, hagent, validateMessage_expecting.mpr ⟨h.valid, hto, by rw [h.msgId]; rfl⟩, h.sent⟩

/-- The name of the file of a message with a well-formed identifier. -/
def wellNamed (name : String) : Bool := msgIdOk (stem name) && jsonName (stem name) = name

theorem stem_jsonName {mid : String} (h : msgIdOk mid = true) : stem (jsonName mid) = mid := by
  have hend : endsWith ".json" (jsonName mid) = true := by
    simp [endsWith, jsonName, String.toList_append]
  exact jsonName_inj (jsonName_stem hend (dotted_jsonName h))

theorem wellNamed_jsonName {mid : String} (h : msgIdOk mid = true) :
    wellNamed (jsonName mid) = true := by
  rw [wellNamed, stem_jsonName h, h, decide_eq_true rfl]
  rfl

theorem eq_jsonName_of_wellNamed {name : String} (h : wellNamed name = true) :
    msgIdOk (stem name) = true ∧ jsonName (stem name) = name := by
  simpa [wellNamed] using h

/-! ## The role -/

/-- Where a call is in the code under the lock of a session. -/
inductive Phase
  | idle
  | opened (sid : String) (fd : ℕ)
  | holding (sid : String) (fd : ℕ)
  | seen (sid : String) (fd : ℕ) (doc : Option Json)
  | drafted (sid : String) (fd : ℕ) (doc : Option Json) (new : Json)

/-- What a call knows: its place under the lock, and senders in rosters. -/
structure Watch where
  phase : Phase
  known : List (String × String)

/-- The document that the bytes of `session.json` are. -/
def docOf : Except OsErr Data → Option Json
  | .ok (.json j) => if j = .null then none else some j
  | _ => none

/-- The senders that the answer to a read shows to be in a roster. -/
def seenIn (p : MPath) (a : Except OsErr Data) : List (String × String) :=
  match p, a with
  | ⟨.box sid _ .inbox, name⟩, .ok (.json j) => if wellNamed name then [(sid, sender j)] else []
  | ⟨.session sid, name⟩, a =>
    if name = "session.json" then ((docOf a).map rosterOf).getD [] |>.map (sid, ·) else []
  | _, _ => []

/-- The document has been read, if the call is under the lock of the session. -/
def Phase.look (p : MPath) (doc : Option Json) : Phase → Phase
  | holding sid fd => if p = sessionFile sid then seen sid fd doc else holding sid fd
  | ph => ph

/-- The lock file of a session has been opened. -/
def Phase.opens (p : MPath) (fd : ℕ) : Phase → Phase
  | idle =>
    match p with
    | ⟨.session sid, name⟩ => if name = ".session.lock" then opened sid fd else idle
    | _ => idle
  | ph => ph

def Phase.locks : Phase → Phase
  | opened sid fd => holding sid fd
  | ph => ph

def Phase.writes (p : MPath) (x : Data) : Phase → Phase
  | seen sid fd doc =>
    match x with
    | .json j => if p = draftFile sid then drafted sid fd doc j else seen sid fd doc
    | .junk => seen sid fd doc
  | ph => ph

def Phase.moves : Phase → Phase
  | drafted sid fd _ _ => holding sid fd
  | ph => ph

def Watch.next (q : Watch) : (o : Op) → Ans o → Watch
  | .read p, a => ⟨q.phase.look p (docOf a), seenIn p a ++ q.known⟩
  | .fileExists p, b => if b then q else ⟨q.phase.look p none, q.known⟩
  | .openFd p, .ok fd => ⟨q.phase.opens p fd, q.known⟩
  | .flock _, _ => ⟨q.phase.locks, q.known⟩
  | .funlock _, _ => ⟨.idle, q.known⟩
  | .write p x, .ok () => ⟨q.phase.writes p x, q.known⟩
  | .replace _ _ _, .ok () => ⟨q.phase.moves, q.known⟩
  | _, _ => q

/-- The members of the session are texts. -/
structure TextMembers (doc : Json) : Prop where
  manager : ∃ m, doc.get? "manager" = some (.str m)
  agents : ∃ l : List String, doc.get? "agents" = some (.arr (l.map .str))

theorem TextMembers.rosterSet {doc : Json} (h : TextMembers doc) :
    rosterSet doc = some (rosterOf doc) := by
  obtain ⟨⟨m, hm⟩, l, hl⟩ := h
  have hall : (l.map Json.str).any unhashable = false := by
    rw [List.any_eq_false]
    intro x hx
    obtain ⟨y, -, rfl⟩ := List.mem_map.mp hx
    exact Bool.false_ne_true
  rw [Mailbox.rosterSet, rosterOf, Json.getStr, hm, hl]
  simp only [Option.getD_some, unhashable, hall, Bool.false_eq_true, if_false, Json.str?]
  rfl

/-- The members of the session are texts, and none of them is a hidden name. -/
structure Plain (doc : Json) : Prop where
  text : TextMembers doc
  visible : ∀ y ∈ rosterOf doc, dotted y = false

/-- A document that may take the place of another. -/
structure Grows (doc : Option Json) (new : Json) : Prop where
  dict : new.isDict = true
  truthy : new.truthy = true
  plain : Plain new
  roster : ∀ old, doc = some old → ∀ x ∈ rosterOf old, x ∈ rosterOf new

/-- Operations that change no file and no lock of an inode. -/
def glances : Op → Bool
  | .fileExists _ | .isDir _ | .mkdir _ | .read _ | .scan _ | .stat _ | .clock | .random
  | .randomText | .lock _ | .unlock _ => true
  | _ => false

/-- The operations that a call may perform. -/
inductive Allowed (S : SendArgs → Prop) (q : Watch) : Op → Prop
  | glance {o : Op} (h : glances o = true) : Allowed S q o
  | flock (fd : ℕ) (h : q.phase = .idle ∨ ∃ sid, q.phase = .opened sid fd) : Allowed S q (.flock fd)
  | funlock (fd : ℕ) : Allowed S q (.funlock fd)
  | cursorFd (sid : String) (h : q.phase = .idle) :
      Allowed S q (.openFd ⟨.session sid, STREAM_CURSOR_FILE⟩)
  | cursorDraft (sid : String) (x : Data) (h : q.phase = .idle) :
      Allowed S q (.write ⟨.session sid, ".tmp-stream-cursor"⟩ x)
  | cursorMove (sid : String) (h : q.phase = .idle) :
      Allowed S q (.replace ⟨.session sid, ".tmp-stream-cursor"⟩
        ⟨.session sid, STREAM_CURSOR_FILE⟩ none)
  | sessionFd (sid : String) (h : q.phase = .idle) : Allowed S q (.openFd (lockFile sid))
  | sessionDraft {sid : String} {fd : ℕ} {doc : Option Json} {new : Json}
      (h : q.phase = .seen sid fd doc) (hnew : Grows doc new) :
      Allowed S q (.write (draftFile sid) (.json new))
  | sessionMove {sid : String} {fd : ℕ} {doc : Option Json} {new : Json}
      (h : q.phase = .drafted sid fd doc new) :
      Allowed S q (.replace (draftFile sid) (sessionFile sid) none)
  | envelope {sid agent mid : String} {j : Json} (hq : q.phase = .idle)
      (h : msgIdOk mid = true → Fit S sid agent mid j ∧ (sid, sender j) ∈ q.known) :
      Allowed S q (.write ⟨.box sid agent .inbox, tmpName mid⟩ (.json j))
  | publish (sid agent : String) {mid : String} (hq : q.phase = .idle)
      (h : dotted (jsonName mid) = false) :
      Allowed S q (.replace ⟨.box sid agent .inbox, tmpName mid⟩
        ⟨.box sid agent .inbox, jsonName mid⟩ none)
  | recordDraft {sid mid : String} {j : Json} (h : Recorded S sid mid j) :
      Allowed S q (.writeNew ⟨.history sid, tmpName mid⟩ (.json j))
  | record (sid : String) {mid : String} (hq : q.phase = .idle)
      (h : dotted (jsonName mid) = false) :
      Allowed S q (.replace ⟨.history sid, tmpName mid⟩ ⟨.history sid, jsonName mid⟩ none)
  | claimNew (sid agent : String) {name key : String} {j : Json} (h : claimLike name = true)
      (hj : IsClaim key j) : Allowed S q (.writeNew ⟨.box sid agent .processing, name⟩ (.json j))
  | claimLink (sid agent : String) {tmp name : String} (htmp : claimLike tmp = true)
      (h : claimLike name = true) :
      Allowed S q (.link ⟨.box sid agent .processing, tmp⟩ ⟨.box sid agent .processing, name⟩)
  | drop (sid agent name : String) : Allowed S q (.unlink ⟨.box sid agent .processing, name⟩)
  | claim (sid agent : String) {name : String} (hq : q.phase = .idle) (h : dotted name = false) :
      Allowed S q (.replace ⟨.box sid agent .inbox, name⟩ ⟨.box sid agent .processing, name⟩ none)
  | back (sid agent : String) {mid : String} (l : Option Lease) (hq : q.phase = .idle)
      (h : dotted (jsonName mid) = false) :
      Allowed S q (.replace ⟨.box sid agent .processing, jsonName mid⟩
        ⟨.box sid agent .inbox, jsonName mid⟩ l)
  | archive (sid agent mid : String) (hq : q.phase = .idle) :
      Allowed S q (.replace ⟨.box sid agent .processing, jsonName mid⟩
        ⟨.box sid agent .archive, jsonName mid⟩ none)
  | quarantine (sid agent : String) {name : String} (h : wellNamed name = false)
      (hq : q.phase = .idle) :
      Allowed S q (.replace ⟨.box sid agent .inbox, name⟩ ⟨.box sid agent .corrupt, name⟩ none)

/-- What the others promise about a file that was read. -/
structure Reading (S : SendArgs → Prop) (q : Watch) (p : MPath) (a : Except OsErr Data) : Prop where
  sound : ∀ x, a = .ok x → Sound S (fun _ _ => True) p x
  found : ∀ sid y, p = sessionFile sid → (sid, y) ∈ q.known →
    ∃ doc, docOf a = some doc ∧ doc.isDict = true ∧ doc.truthy = true ∧ y ∈ rosterOf doc
  plain : ∀ sid doc, p = sessionFile sid → docOf a = some doc → Plain doc

/-- What the others promise about the answers. -/
def Watch.assumes (S : SendArgs → Prop) (q : Watch) : (o : Op) → Ans o → Prop
  | .read p, a => Reading S q p a
  | .fileExists p, b => ∀ sid y, p = sessionFile sid → (sid, y) ∈ q.known → b = true
  | _, _ => True

/-- The role of a call. -/
def role (S : SendArgs → Prop) : Role Op Ans := ⟨Watch, Allowed S, Watch.assumes S, Watch.next⟩

end AiMeshChat.Mailbox.Readable
