import AiMeshChat.Kernel.State
import AiMeshChat.Lib.History
import AiMeshChat.Mailbox.FreshSend
import AiMeshChat.Mailbox.Reader

/-!
# Mail that a kernel takes into the history

`SwarmKernel.ingest`: each message of a batch is validated, its sender and its recipient are
compared with the session, and it is appended to the canonical history, which refuses an
identifier that it has already.

Two things get past these guards. A kind that is a list or a dict has no hash, so the
validation itself raises, and the call with it. And a sender or a recipient that is empty is
not compared with anything. `ingest_faithful_iff` says that there is nothing else: the
records that a run of calls makes are mail of the roster to the manager, and each is reported
once, by the call that made it.
-/

namespace AiMeshChat.Ingest

open Lib Mailbox Mailbox.Replay Mailbox.Recovery Mailbox.FreshSend
open Kernel (Mem Session requireSession)

/-! ## The calls -/

/-- An exception of the kernel; `PermissionError` is an `OSError`. -/
def errorOf : Kernel.PyErr → PyErr
  | .value why => .value why
  | .permission _ => .os .other
  | .os => .os .other

/-- `append_history`, with a `ValueError` caught: the identifier, if a record was made. -/
def appendOrSkip (sid : String) (msg : Json) : Call (Option String) :=
  Prog.tryCatch (do
    let _ ← appendHistory sid msg
    return some (textOf msg "msg_id")) fun
    | .value _ => return none
    | .json => return none
    | e => throw e

/-- One message of a batch. -/
def ingestOne (session : Session) (sid : String) (msg : Json) : Call (Option String) :=
  if !msg.isDict then return none
  else match validateMessage msg (some sid) none none with
    | .error (.typeError why) => throw (.type why)
    | .error (.reject _) => return none
    | .ok () =>
      let sender := textOf msg "from"
      let recipient := textOf msg "to"
      if sender ≠ "" ∧ sender ∉ session.roster then return none
      else if recipient ≠ "" ∧ recipient ≠ session.managerId then return none
      else appendOrSkip sid msg

def ingestAll (session : Session) (sid : String) : List Json → Call (List String)
  | [] => return []
  | msg :: rest => do
    let mid ← ingestOne session sid msg
    let mids ← ingestAll session sid rest
    return mid.toList ++ mids

/-- `ingest`: the identifiers of the messages that were persisted. -/
def ingest (k : Mem) (sid : String) (messages : List Json) : Call (List String) :=
  match requireSession k sid with
  | .error e => throw (errorOf e)
  | .ok session => ingestAll session sid messages

/-! ## What becomes of a message -/

/-- The object has all required fields and a kind without a hash. -/
def Unhashable (msg : Json) : Prop :=
  msg.isDict = true ∧ (∀ key ∈ REQUIRED_FIELDS, (msg.get? key).isSome = true) ∧
    ((∃ vs, msg.get? "kind" = some (.arr vs)) ∨ ∃ fs, msg.get? "kind" = some (.obj fs))

/-- The message is valid, and a sender and a recipient that are not empty are those of the
session. -/
def Admitted (session : Session) (sid : String) (msg : Json) : Prop :=
  msg.isDict = true ∧ validateMessage msg (some sid) none none = .ok () ∧
    (textOf msg "from" = "" ∨ textOf msg "from" ∈ session.roster) ∧
    (textOf msg "to" = "" ∨ textOf msg "to" = session.managerId)

/-- There is a session for the record, and neither a record nor a draft in its place. -/
structure Room (s : Disk) (sid mid : String) : Prop where
  name : agentIdOk sid = true
  dir : Dir.session sid ∈ s.dirs
  ident : msgIdOk mid = true
  fresh : Unrecorded s sid mid

/-- The message would be recorded if its turn came now. -/
def Recordable (s : Disk) (session : Session) (sid : String) (msg : Json) : Prop :=
  Admitted session sid msg ∧ Room s sid (textOf msg "msg_id")

/-- The message is the first of the batch with its identifier, of those that meet `p`. -/
def FirstOf (p : Json → Prop) (msgs : List Json) (msg : Json) : Prop :=
  ∃ before rest, msgs = before ++ msg :: rest ∧ p msg ∧
    ∀ m ∈ before, p m → textOf m "msg_id" ≠ textOf msg "msg_id"

/-- The record of a message. -/
def recordOf (sid : String) (msg : Json) : MPath := ⟨.history sid, jsonName (textOf msg "msg_id")⟩

/-- From `s` to `t` the messages `new` were recorded, and no other file changed. -/
structure Records (sid : String) (s t : Disk) (new : Json → Prop) : Prop where
  dirs : ∀ sid', Dir.session sid' ∈ t.dirs ↔ Dir.session sid' ∈ s.dirs
  record : ∀ m, new m → ∃ f : MFile, f.data = .json m ∧ t.files.get? (recordOf sid m) = some f
  rest : ∀ p, (∀ m, new m → p ≠ recordOf sid m) → t.files.get? p = s.files.get? p

/-! ### The validation -/

/-- `validate_message` raises exactly for a kind without a hash. -/
theorem validateMessage_typeError {msg : Json} {session agent filename : Option String} :
    (∃ why, validateMessage msg session agent filename = .error (.typeError why)) ↔
      Unhashable msg := by
  constructor
  · rintro ⟨why, h⟩
    by_cases hdict : msg.isDict = true
    · by_cases hmissing : REQUIRED_FIELDS.filter (fun key => (msg.get? key).isNone) = []
      · refine ⟨hdict, fun key hkey => ?_, ?_⟩
        · by_contra hno
          have hin : key ∈ REQUIRED_FIELDS.filter (fun key => (msg.get? key).isNone) := by
            refine List.mem_filter.mpr ⟨hkey, ?_⟩
            simpa using hno
          rw [hmissing] at hin
          cases hin
        · by_contra hkind
          have huntyped : Untyped (kindOf msg) := by
            intro why' hwhy
            unfold kindOf at hwhy
            split at hwhy
            · split at hwhy <;> cases hwhy
            · next vs hvs => exact hkind (.inl ⟨vs, hvs⟩)
            · next fs hfs => exact hkind (.inr ⟨fs, hfs⟩)
            · cases hwhy
            · cases hwhy
          exact untyped_validateMessage huntyped _ _ _ why h
      · rw [validateMessage, schemaCheck, hdict] at h
        simp only [need, hmissing, decide_false] at h
        cases h
    · rw [validateMessage, schemaCheck, eq_false_of_ne_true hdict] at h
      cases h
  · rintro ⟨hdict, hfields, hkind⟩
    have hmissing : REQUIRED_FIELDS.filter (fun key => (msg.get? key).isNone) = [] := by
      refine List.filter_eq_nil_iff.mpr fun key hkey => ?_
      have := hfields key hkey
      simpa [Option.isNone_iff_eq_none, Option.isSome_iff_ne_none] using this
    rw [validateMessage, schemaCheck, hdict, hmissing]
    rcases hkind with ⟨vs, hvs⟩ | ⟨fs, hfs⟩
    · exact ⟨_, by rw [kindOf, hvs]; rfl⟩
    · exact ⟨_, by rw [kindOf, hfs]; rfl⟩

theorem parties_of_valid {msg : Json} {session agent filename : Option String}
    (h : validateMessage msg session agent filename = .ok ()) :
    msg.get? "from" = some (.str (textOf msg "from")) ∧
      msg.get? "to" = some (.str (textOf msg "to")) := by
  obtain ⟨_, hschema, _⟩ := bind_eq_ok.mp h
  obtain ⟨_, _, hschema⟩ := bind_eq_ok.mp hschema
  obtain ⟨_, _, hschema⟩ := bind_eq_ok.mp hschema
  obtain ⟨_, _, hschema⟩ := bind_eq_ok.mp hschema
  obtain ⟨_, htexts, _⟩ := bind_eq_ok.mp hschema
  have htext (key : String) (hkey : key ∈ ["subject", "body", "session_id", "from", "to",
      "msg_id", "created_at"]) : msg.get? key = some (.str (textOf msg key)) := by
    obtain ⟨text, htext⟩ := Option.isSome_iff_exists.mp (need_eq_ok.mp (forM_eq_ok htexts key hkey))
    obtain ⟨j, hj, hstr⟩ := Option.bind_eq_some_iff.mp htext
    cases j <;> simp only [Json.str?, reduceCtorEq] at hstr
    rw [textOf, hj]
    rfl
  exact ⟨htext "from" (by decide), htext "to" (by decide)⟩

/-! ### What was recorded -/

section Records

variable {sid : String} {s t u : Disk} {new new' : Json → Prop}

theorem Records.refl (sid : String) (s : Disk) : Records sid s s fun _ => False :=
  ⟨fun _ => Iff.rfl, fun _ h => h.elim, fun _ _ => rfl⟩

theorem Records.congr (h : Records sid s t new) (hiff : ∀ m, new m ↔ new' m) :
    Records sid s t new' := by
  have heq : new = new' := funext fun m => propext (hiff m)
  exact heq ▸ h

theorem Records.trans (h : Records sid s t new) (h' : Records sid t u new')
    (hne : ∀ m m', new m → new' m' → recordOf sid m ≠ recordOf sid m') :
    Records sid s u fun m => new m ∨ new' m := by
  refine ⟨fun sid' => (h'.dirs sid').trans (h.dirs sid'), fun m hm => ?_, fun p hp => ?_⟩
  · rcases hm with hm | hm
    · obtain ⟨f, hdata, hf⟩ := h.record m hm
      refine ⟨f, hdata, ?_⟩
      rw [h'.rest _ fun m' hm' => hne m m' hm hm']
      exact hf
    · exact h'.record m hm
  · rw [h'.rest p fun m hm => hp m (.inr hm)]
    exact h.rest p fun m hm => hp m (.inl hm)

theorem Records.room (h : Records sid s t new)
    (hnew : ∀ m, new m → msgIdOk (textOf m "msg_id") = true) {mid : String} :
    Room t sid mid ↔ Room s sid mid ∧ ∀ m, new m → textOf m "msg_id" ≠ mid := by
  have hdraft : t.files.get? ⟨.history sid, tmpName mid⟩ = s.files.get? ⟨.history sid, tmpName mid⟩ :=
    h.rest _ fun m hm he => tmpName_ne_jsonName_of_ok (hnew m hm) (congrArg Path.name he)
  constructor
  · intro hroom
    have hfree : ∀ m, new m → textOf m "msg_id" ≠ mid := by
      intro m hm he
      obtain ⟨f, -, hf⟩ := h.record m hm
      have hnone := hroom.fresh.record
      rw [← he] at hnone
      rw [recordOf, hnone] at hf
      cases hf
    refine ⟨⟨hroom.name, (h.dirs sid).mp hroom.dir, hroom.ident, ?_, ?_⟩, hfree⟩
    · rw [← h.rest _ fun m hm he => hfree m hm (jsonName_inj (congrArg Path.name he)).symm]
      exact hroom.fresh.record
    · rw [← hdraft]
      exact hroom.fresh.draft
  · rintro ⟨hroom, hfree⟩
    refine ⟨hroom.name, (h.dirs sid).mpr hroom.dir, hroom.ident, ?_, ?_⟩
    · rw [h.rest _ fun m hm he => hfree m hm (jsonName_inj (congrArg Path.name he)).symm]
      exact hroom.fresh.record
    · rw [hdraft]
      exact hroom.fresh.draft

end Records

/-! ## One message -/

section One

variable {i : ℕ} {s : Disk} {session : Session} {sid : String} {msg : Json}

theorem require_fails {α : Type} {c : Bool} {e : PyErr} {f : Unit → Call α}
    {Q : Except PyErr α → Disk → Prop} (hc : c ≠ true) (h : Q (.error e) s) :
    (require c e >>= f).Total world i NoFault Anywhere s Q := by
  rw [require, if_neg hc]
  exact Prog.total_raise trivial h

theorem appendHistory_total (hdict : msg.isDict = true)
    (hvalid : validateMessage msg (some sid) none none = .ok ()) :
    (appendHistory sid msg).Total world i NoFault Anywhere s fun r t =>
      (Room s sid (textOf msg "msg_id") ∧ (∃ text, r = .ok text) ∧ Records sid s t (· = msg)) ∨
      (¬ Room s sid (textOf msg "msg_id") ∧ (∃ why, r = .error (.value why)) ∧
        Records sid s t fun _ => False) := by
  by_cases hname : agentIdOk sid = true
  swap
  · exact require_fails hname (.inr ⟨fun h => hname h.name, ⟨_, rfl⟩, .refl sid s⟩)
  refine require_total hname ?_
  by_cases hdir : Dir.session sid ∈ s.dirs
  swap
  · refine Prog.total_op_bind trivial fun c _ => ⟨_, s, rfl, require_fails ?_ ?_⟩
    · simpa using hdir
    · exact .inr ⟨fun h => hdir h.dir, ⟨_, rfl⟩, .refl sid s⟩
  refine isDir_total trivial hdir (require_total rfl (require_total hdict ?_))
  rw [hvalid]
  by_cases hident : msgIdOk (textOf msg "msg_id") = true
  swap
  · exact require_fails hident (.inr ⟨fun h => hident h.ident, ⟨_, rfl⟩, .refl sid s⟩)
  refine require_total hident (mkdir_total trivial fun dirs hdirs => fileExists_total trivial ?_)
  have hd : Dir.history sid ∈ dirs := (hdirs _).mpr (.inl rfl)
  have hsessions : ∀ sid', Dir.session sid' ∈ dirs ↔ Dir.session sid' ∈ s.dirs := by
    intro sid'
    refine (hdirs _).trans ⟨fun h => ?_, .inr⟩
    rcases h with h | h
    · cases h
    · exact h
  have hnothing : Records sid s { s with dirs := dirs } fun _ => False :=
    ⟨hsessions, fun _ h => h.elim, fun _ _ => rfl⟩
  by_cases hrecord : s.files.get? ⟨.history sid, jsonName (textOf msg "msg_id")⟩ = none
  swap
  · refine require_fails ?_ (.inr ⟨fun h => hrecord h.fresh.record, ⟨_, rfl⟩, hnothing⟩)
    simpa [Option.isSome_iff_ne_none] using hrecord
  refine require_total (by simp [hrecord]) (Prog.total_op_bind trivial fun c hc => ?_)
  have hc : c.fault = false := hc
  by_cases hdraft : s.files.get? ⟨.history sid, tmpName (textOf msg "msg_id")⟩ = none
  swap
  · refine ⟨.error .exists, { s with dirs := dirs }, ?_, Prog.total_raise trivial ?_⟩
    · have hsome := Option.isSome_iff_ne_none.mpr hdraft
      simp [world, Disk.perform, hc, hd, hsome]
    · exact .inr ⟨fun h => hdraft h.fresh.draft, ⟨_, rfl⟩, hnothing⟩
  refine ⟨.ok (), ({ s with dirs := dirs } : Disk).write
    ⟨.history sid, tmpName (textOf msg "msg_id")⟩ (.json msg) c.time, ?_, ?_⟩
  · simp [world, Disk.perform, hc, hd, hdraft]
  · obtain ⟨f, hdata, hf, hmove⟩ := get?_write_move s.files
      ⟨.history sid, tmpName (textOf msg "msg_id")⟩ ⟨.history sid, jsonName (textOf msg "msg_id")⟩
      (.json msg) c.time
    refine replace_total trivial (Option.isSome_iff_exists.mpr ⟨f, hf⟩) hd (Prog.total_ret trivial ?_)
    refine .inl ⟨⟨hname, hdir, hident, hrecord, hdraft⟩, ⟨_, rfl⟩, hsessions, ?_, fun p hp => ?_⟩
    · rintro m rfl
      exact ⟨f, hdata, (hmove _).trans (if_pos rfl)⟩
    · refine (hmove p).trans ((if_neg (hp msg rfl)).trans ?_)
      -- the draft was not there, and it is gone
      split_ifs with he
      · rw [he]
        exact hdraft.symm
      · rfl

/-- What `ingest` does with one message, unless its kind has no hash. -/
theorem ingestOne_total (hhash : ¬ Unhashable msg) :
    (ingestOne session sid msg).Total world i NoFault Anywhere s fun r t =>
      (Recordable s session sid msg ∧ r = .ok (some (textOf msg "msg_id")) ∧
        Records sid s t (· = msg)) ∨
      (¬ Recordable s session sid msg ∧ r = .ok none ∧ Records sid s t fun _ => False) := by
  have hskip (hno : ¬ Admitted session sid msg) :
      (return none : Call (Option String)).Total world i NoFault Anywhere s fun r t =>
        (Recordable s session sid msg ∧ r = .ok (some (textOf msg "msg_id")) ∧
          Records sid s t (· = msg)) ∨
        (¬ Recordable s session sid msg ∧ r = .ok none ∧ Records sid s t fun _ => False) :=
    Prog.total_ret trivial (.inr ⟨fun h => hno h.1, rfl, .refl sid s⟩)
  unfold ingestOne
  by_cases hdict : msg.isDict = true
  swap
  · rw [eq_false_of_ne_true hdict]
    exact hskip fun h => hdict h.1
  rw [hdict, if_neg (by decide)]
  rcases hvalid : validateMessage msg (some sid) none none with (why | why) | ⟨⟨⟩⟩
  · exact hskip fun h => nomatch hvalid.symm.trans h.2.1
  · exact absurd (validateMessage_typeError.mp ⟨why, hvalid⟩) hhash
  dsimp only
  split_ifs with hsender hrecipient
  · exact hskip fun h => h.2.2.1.elim hsender.1 hsender.2
  · exact hskip fun h => h.2.2.2.elim hrecipient.1 hrecipient.2
  have hadmitted : Admitted session sid msg :=
    ⟨hdict, hvalid, by_contra fun h => hsender (not_or.mp h),
      by_contra fun h => hrecipient (not_or.mp h)⟩
  refine Prog.Total.tryCatch (M := fun r t =>
    (Room s sid (textOf msg "msg_id") ∧ r = .ok (some (textOf msg "msg_id")) ∧
      Records sid s t (· = msg)) ∨
    (¬ Room s sid (textOf msg "msg_id") ∧ (∃ why, r = .error (.value why)) ∧
      Records sid s t fun _ => False)) ?_ ?_ ?_
  · refine (appendHistory_total hdict hvalid).bind (fun text t _ h => ?_) fun e t _ h => ?_
    · rcases h with ⟨hroom, -, hrec⟩ | ⟨-, ⟨why, hwhy⟩, -⟩
      · exact Prog.total_ret trivial (.inl ⟨hroom, rfl, hrec⟩)
      · cases hwhy
    · rcases h with ⟨-, ⟨text, htext⟩, -⟩ | ⟨hroom, ⟨why, hwhy⟩, hrec⟩
      · cases htext
      · cases hwhy
        exact .inr ⟨hroom, ⟨why, rfl⟩, hrec⟩
  · rintro mid t - (⟨hroom, hmid, hrec⟩ | ⟨-, ⟨why, hwhy⟩, -⟩)
    · exact .inl ⟨⟨hadmitted, hroom⟩, hmid, hrec⟩
    · cases hwhy
  · rintro e t - (⟨-, hmid, -⟩ | ⟨hroom, ⟨why, hwhy⟩, hrec⟩)
    · cases hmid
    · cases hwhy
      exact Prog.total_ret trivial (.inr ⟨fun h => hroom h.2, rfl, hrec⟩)

theorem ingestOne_raises (hhash : Unhashable msg) :
    ∃ why, ingestOne session sid msg = .raise (.type why) := by
  obtain ⟨why, hwhy⟩ := validateMessage_typeError.mpr hhash
  exact ⟨why, by rw [ingestOne, hhash.1, hwhy]; rfl⟩

end One

/-! ## A batch -/

section Batch

variable {i : ℕ} {s : Disk} {session : Session} {sid : String} {msg : Json} {msgs : List Json}

theorem firstOf_cons {p p' : Json → Prop} {m : Json}
    (hp' : ∀ y, p' y ↔ p y ∧ (p m → textOf m "msg_id" ≠ textOf y "msg_id")) {x : Json} :
    FirstOf p (m :: msgs) x ↔ (p m ∧ x = m) ∨ FirstOf p' msgs x := by
  constructor
  · rintro ⟨before, rest, hmsgs, hx, hbefore⟩
    cases before with
    | nil =>
      obtain ⟨rfl, rfl⟩ := List.cons.inj hmsgs
      exact .inl ⟨hx, rfl⟩
    | cons y before =>
      obtain ⟨rfl, rfl⟩ := List.cons.inj hmsgs
      refine .inr ⟨before, rest, rfl, (hp' x).mpr ⟨hx, hbefore m List.mem_cons_self⟩, ?_⟩
      intro y hy hpy
      exact hbefore y (List.mem_cons_of_mem m hy) ((hp' y).mp hpy).1
  · rintro (⟨hm, rfl⟩ | ⟨before, rest, rfl, hx, hbefore⟩)
    · exact ⟨[], msgs, rfl, hm, fun y hy => absurd hy List.not_mem_nil⟩
    · refine ⟨m :: before, rest, rfl, ((hp' x).mp hx).1, ?_⟩
      intro y hy hpy he
      rcases List.mem_cons.mp hy with rfl | hy
      · exact ((hp' x).mp hx).2 hpy he
      · refine hbefore y hy ((hp' y).mpr ⟨hpy, fun hm hsame => ?_⟩) he
        exact ((hp' x).mp hx).2 hm (hsame.trans he)

theorem recordable_after {t : Disk} {new : Json → Prop} {m : Json}
    (h : Records sid s t new) (hnew : ∀ x, new x ↔ Recordable s session sid m ∧ x = m) (y : Json) :
    Recordable t session sid y ↔ Recordable s session sid y ∧
      (Recordable s session sid m → textOf m "msg_id" ≠ textOf y "msg_id") := by
  have hroom : Room t sid (textOf y "msg_id") ↔ Room s sid (textOf y "msg_id") ∧
      ∀ x, new x → textOf x "msg_id" ≠ textOf y "msg_id" :=
    h.room fun x hx => ((hnew x).mp hx).2 ▸ ((hnew x).mp hx).1.2.ident
  unfold Recordable at hnew ⊢
  rw [hroom, and_assoc]
  refine and_congr_right fun _ => and_congr_right fun _ => ?_
  constructor
  · intro h hm
    exact h m ((hnew m).mpr ⟨hm, rfl⟩)
  · intro h x hx
    obtain ⟨hm, rfl⟩ := (hnew x).mp hx
    exact h hm

theorem ingestAll_total (hhash : ∀ m ∈ msgs, ¬ Unhashable m) :
    (ingestAll session sid msgs).Total world i NoFault Anywhere s fun r t =>
      ∃ mids, r = .ok mids ∧ mids.Nodup ∧
        (∀ mid, mid ∈ mids ↔ ∃ m, FirstOf (Recordable s session sid) msgs m ∧
          textOf m "msg_id" = mid) ∧
        Records sid s t (FirstOf (Recordable s session sid) msgs) := by
  induction msgs generalizing s with
  | nil =>
    have hnone (m : Json) : ¬ FirstOf (Recordable s session sid) [] m := by
      rintro ⟨before, rest, h, -⟩
      cases before <;> cases h
    refine Prog.total_ret trivial ⟨[], rfl, List.nodup_nil, fun mid => ?_, ?_⟩
    · refine ⟨fun h => absurd h List.not_mem_nil, ?_⟩
      rintro ⟨m, hm, -⟩
      exact absurd hm (hnone m)
    · exact (Records.refl sid s).congr fun m => ⟨False.elim, hnone m⟩
  | cons m msgs ih =>
    have hm : ¬ Unhashable m := hhash m List.mem_cons_self
    refine (ingestOne_total hm).bind (fun mid t _ ht => ?_) fun e t _ ht => ?_
    swap
    · rcases ht with ⟨-, he, -⟩ | ⟨-, he, -⟩ <;> cases he
    -- the message was recorded if it could be, and nothing else was
    obtain ⟨hmid, new, hnew, hrec⟩ : (mid = some (textOf m "msg_id") ∧ Recordable s session sid m ∨
        mid = none ∧ ¬ Recordable s session sid m) ∧
        ∃ new : Json → Prop, (∀ x, new x ↔ Recordable s session sid m ∧ x = m) ∧
          Records sid s t new := by
      rcases ht with ⟨hm, hmid, hrec⟩ | ⟨hm, hmid, hrec⟩ <;> cases hmid
      · exact ⟨.inl ⟨rfl, hm⟩, _, fun x => ⟨fun h => ⟨hm, h⟩, And.right⟩, hrec⟩
      · exact ⟨.inr ⟨rfl, hm⟩, _, fun x => ⟨False.elim, fun h => hm h.1⟩, hrec⟩
    have hafter := recordable_after hrec hnew
    have hfirst {x : Json} : FirstOf (Recordable s session sid) (m :: msgs) x ↔
        (Recordable s session sid m ∧ x = m) ∨ FirstOf (Recordable t session sid) msgs x :=
      firstOf_cons hafter
    have hother {x : Json} (hx : FirstOf (Recordable t session sid) msgs x)
        (hm : Recordable s session sid m) : textOf m "msg_id" ≠ textOf x "msg_id" := by
      obtain ⟨_, _, _, hx, _⟩ := hx
      exact ((hafter x).mp hx).2 hm
    refine (ih fun y hy => hhash y (List.mem_cons_of_mem m hy)).bind (fun mids u _ hu => ?_)
      fun e u _ hu => ?_
    swap
    · obtain ⟨mids, he, -⟩ := hu
      cases he
    obtain ⟨_, ⟨⟩, hnodup, hmids, hrest⟩ := hu
    refine Prog.total_ret trivial ⟨mid.toList ++ mids, rfl, ?_, fun x => ?_, ?_⟩
    · rcases hmid with ⟨rfl, hm⟩ | ⟨rfl, -⟩
      · refine List.nodup_cons.mpr ⟨fun hin => ?_, hnodup⟩
        obtain ⟨y, hy, he⟩ := (hmids _).mp hin
        exact hother hy hm he.symm
      · exact hnodup
    · rw [List.mem_append, hmids]
      constructor
      · rintro (hx | ⟨y, hy, rfl⟩)
        · rcases hmid with ⟨rfl, hm⟩ | ⟨rfl, -⟩
          · exact ⟨m, hfirst.mpr (.inl ⟨hm, rfl⟩), (List.mem_singleton.mp hx).symm⟩
          · cases hx
        · exact ⟨y, hfirst.mpr (.inr hy), rfl⟩
      · rintro ⟨y, hy, rfl⟩
        rcases hfirst.mp hy with ⟨hm, rfl⟩ | hy
        · rcases hmid with ⟨rfl, -⟩ | ⟨-, hno⟩
          · exact .inl List.mem_cons_self
          · exact absurd hm hno
        · exact .inr ⟨y, hy, rfl⟩
    · refine (hrec.trans hrest fun x y hx hy he => ?_).congr fun x => ?_
      · obtain ⟨hm, rfl⟩ := (hnew x).mp hx
        exact hother hy hm (jsonName_inj (congrArg Path.name he))
      · rw [hnew, hfirst]

theorem ingestAll_raises (hhash : ∃ m ∈ msgs, Unhashable m) :
    (ingestAll session sid msgs).Total world i NoFault Anywhere s fun r _ => ∃ e, r = .error e := by
  induction msgs generalizing s with
  | nil =>
    obtain ⟨m, hm, -⟩ := hhash
    cases hm
  | cons m msgs ih =>
    by_cases hm : Unhashable m
    · obtain ⟨why, hwhy⟩ : ∃ why, ingestOne session sid m = .raise (.type why) := ingestOne_raises hm
      rw [ingestAll, hwhy]
      exact Prog.total_raise trivial ⟨_, rfl⟩
    · obtain ⟨y, hy, hbad⟩ := hhash
      have hrest : ∃ m ∈ msgs, Unhashable m := by
        rcases List.mem_cons.mp hy with rfl | hy
        · exact absurd hbad hm
        · exact ⟨y, hy, hbad⟩
      refine (ingestOne_total hm).bind (fun mid t _ _ => ?_) fun e _ _ _ => ⟨e, rfl⟩
      refine (ih hrest).bind (fun mids u _ hu => ?_) fun e _ _ _ => ⟨e, rfl⟩
      obtain ⟨e, he⟩ := hu
      cases he

end Batch

/-! ## Runs of calls -/

/-- A call of `ingest` and what came of it. -/
structure Turn where
  sessionId : String
  messages : List Json
  result : Except PyErr (List String)

/-- The identifiers that the call reports, each with the session of its history. -/
def Turn.reported (a : Turn) : List (String × String) :=
  match a.result with
  | .ok mids => mids.map fun mid => (a.sessionId, mid)
  | .error _ => []

/-- The call, on a disk that works. -/
def Turn.Runs (k : Mem) (s : Mailbox.Disk) (a : Turn) (t : Mailbox.Disk) : Prop :=
  (ingest k a.sessionId a.messages).Runs world 0 NoFault s a.result t

/-- The record is mail of somebody in the roster to the manager. -/
def Genuine (session : Session) (f : MFile) : Prop :=
  ∃ msg, f.data = .json msg ∧ (∃ a ∈ session.roster, msg.get? "from" = some (.str a)) ∧
    msg.get? "to" = some (.str session.managerId)

/-- The call returns; what it adds to a history is mail to the manager of the session; it
changes no record; and it reports the records that it has made. -/
structure Turn.Faithful (k : Mem) (s : Mailbox.Disk) (a : Turn) (t : Mailbox.Disk) : Prop where
  returned : ∃ mids, a.result = .ok mids
  genuine : ∀ sid name f, t.files.get? ⟨.history sid, name⟩ = some f →
    s.files.get? ⟨.history sid, name⟩ = none →
    ∃ session, requireSession k sid = .ok session ∧ Genuine session f
  kept : ∀ sid name f, s.files.get? ⟨.history sid, name⟩ = some f →
    t.files.get? ⟨.history sid, name⟩ = some f
  once : a.reported.Nodup
  reported : ∀ sid mid, (sid, mid) ∈ a.reported ↔
    s.files.get? ⟨.history sid, jsonName mid⟩ = none ∧
      (t.files.get? ⟨.history sid, jsonName mid⟩).isSome = true

/-- The session is known, every kind has a hash, and a message that is recorded without a
sender or without a recipient has none because there is none in the session. -/
structure Turn.Clean (k : Mem) (s : Mailbox.Disk) (a : Turn) : Prop where
  known : ∃ session, requireSession k a.sessionId = .ok session
  hashable : ∀ m ∈ a.messages, ¬ Unhashable m
  named : ∀ session, requireSession k a.sessionId = .ok session → ∀ m,
    FirstOf (Recordable s session a.sessionId) a.messages m →
      (textOf m "from" = "" → "" ∈ session.roster) ∧
        (textOf m "to" = "" → session.managerId = "")

section Runs

variable {k : Mem} {s t : Mailbox.Disk} {a : Turn}

theorem mem_reported {mids : List String} (h : a.result = .ok mids) {sid mid : String} :
    (sid, mid) ∈ a.reported ↔ sid = a.sessionId ∧ mid ∈ mids := by
  rw [Turn.reported, h]
  constructor
  · intro hin
    obtain ⟨x, hx, he⟩ := List.mem_map.mp hin
    cases he
    exact ⟨rfl, hx⟩
  · rintro ⟨rfl, hx⟩
    exact List.mem_map_of_mem hx

theorem ingest_runs (k : Mem) (s : Mailbox.Disk) (sid : String) (messages : List Json) :
    ∃ r t, (ingest k sid messages).Runs world 0 NoFault s r t := by
  have hchoice : NoFault {} := rfl
  unfold ingest
  rcases hs : requireSession k sid with e | session
  · exact ⟨_, _, .raise⟩
  · by_cases hhash : ∃ m ∈ messages, Unhashable m
    · exact (ingestAll_raises hhash).runs hchoice
    · push Not at hhash
      exact (ingestAll_total hhash).runs hchoice

theorem ingest_ends {session : Session} (hs : requireSession k a.sessionId = .ok session)
    (hhash : ∀ m ∈ a.messages, ¬ Unhashable m) (h : a.Runs k s t) :
    ∃ mids, a.result = .ok mids ∧ mids.Nodup ∧
      (∀ mid, mid ∈ mids ↔ ∃ m, FirstOf (Recordable s session a.sessionId) a.messages m ∧
        textOf m "msg_id" = mid) ∧
      Records a.sessionId s t (FirstOf (Recordable s session a.sessionId) a.messages) := by
  have hrun : (ingestAll session a.sessionId a.messages).Runs world 0 NoFault s a.result t := by
    unfold Turn.Runs ingest at h
    rwa [hs] at h
  exact (ingestAll_total hhash).ends _ _ hrun

theorem Turn.Clean.faithful (hclean : a.Clean k s) (h : a.Runs k s t) : a.Faithful k s t := by
  obtain ⟨session, hs⟩ := hclean.known
  obtain ⟨mids, hmids, hnodup, hiff, hrec⟩ := ingest_ends hs hclean.hashable h
  have hfresh {m : Json} (hm : FirstOf (Recordable s session a.sessionId) a.messages m) :
      Recordable s session a.sessionId m := by
    obtain ⟨_, _, _, hm, _⟩ := hm
    exact hm
  -- a record that was there is in no message's place
  have hkept : ∀ sid name f, s.files.get? ⟨.history sid, name⟩ = some f →
      t.files.get? ⟨.history sid, name⟩ = some f := by
    intro sid name f hf
    rw [hrec.rest _ fun m hm he => ?_]
    · exact hf
    · have hnone := (hfresh hm).2.fresh.record
      rw [he, recordOf, hnone] at hf
      cases hf
  refine ⟨⟨mids, hmids⟩, fun sid name f hf hnone => ?_, hkept, ?_, fun sid mid => ?_⟩
  · have hnew : ∃ m, FirstOf (Recordable s session a.sessionId) a.messages m ∧
        (⟨.history sid, name⟩ : MPath) = recordOf a.sessionId m := by
      by_contra hno
      rw [hrec.rest _ fun m hm he => hno ⟨m, hm, he⟩, hnone] at hf
      cases hf
    obtain ⟨m, hm, he⟩ := hnew
    obtain ⟨f', hdata, hf'⟩ := hrec.record m hm
    rw [he, hf'] at hf
    cases hf
    obtain rfl : sid = a.sessionId := by cases he; rfl
    obtain ⟨⟨-, hvalid, hsender, hrecipient⟩, -⟩ := hfresh hm
    obtain ⟨hfrom, hto⟩ := parties_of_valid hvalid
    obtain ⟨hnofrom, hnoto⟩ := hclean.named session hs m hm
    refine ⟨session, hs, m, hdata, ⟨_, ?_, hfrom⟩, ?_⟩
    · rcases hsender with h | h
      · rw [h]
        exact hnofrom h
      · exact h
    · rcases hrecipient with h | h
      · rw [hto, h, hnoto h]
      · rw [hto, h]
  · rw [Turn.reported, hmids]
    exact hnodup.map fun x y hxy => congrArg Prod.snd hxy
  · rw [mem_reported hmids]
    constructor
    · rintro ⟨rfl, hin⟩
      obtain ⟨m, hm, rfl⟩ := (hiff mid).mp hin
      obtain ⟨f, -, hf⟩ := hrec.record m hm
      exact ⟨(hfresh hm).2.fresh.record, Option.isSome_iff_exists.mpr ⟨f, hf⟩⟩
    · rintro ⟨hnone, hsome⟩
      by_contra hno
      rw [hrec.rest _ fun m hm he => ?_, hnone] at hsome
      · cases hsome
      · obtain ⟨hdir, hname⟩ := Lib.Path.mk.inj he
        cases hdir
        exact hno ⟨rfl, (hiff mid).mpr ⟨m, hm, (jsonName_inj hname).symm⟩⟩

theorem Turn.Faithful.clean (hfaithful : a.Faithful k s t) (h : a.Runs k s t) : a.Clean k s := by
  obtain ⟨mids, hmids⟩ := hfaithful.returned
  have hknown : ∃ session, requireSession k a.sessionId = .ok session := by
    rcases hs : requireSession k a.sessionId with e | session
    · unfold Turn.Runs ingest at h
      rw [hs] at h
      cases hmids.symm.trans (Prog.runs_raise.mp h).1
    · exact ⟨session, rfl⟩
  have hhash : ∀ m ∈ a.messages, ¬ Unhashable m := by
    intro m hm hbad
    obtain ⟨session, hs⟩ := hknown
    unfold Turn.Runs ingest at h
    rw [hs] at h
    obtain ⟨e, he⟩ := (ingestAll_raises ⟨m, hm, hbad⟩).ends _ _ h
    cases hmids.symm.trans he
  refine ⟨hknown, hhash, fun session hs m hm => ?_⟩
  obtain ⟨_, _, _, _, hrec⟩ := ingest_ends hs hhash h
  obtain ⟨f, hdata, hf⟩ := hrec.record m hm
  obtain ⟨_, _, _, ⟨⟨-, hvalid, -⟩, hroom⟩, _⟩ := hm
  obtain ⟨session', hs', m', hdata', ⟨sender, hsender, hfrom⟩, hto⟩ :=
    hfaithful.genuine _ _ f hf hroom.fresh.record
  cases hs.symm.trans hs'
  cases hdata.symm.trans hdata'
  obtain ⟨hfrom', hto'⟩ := parties_of_valid hvalid
  constructor
  · intro h
    rw [h, hfrom] at hfrom'
    cases hfrom'
    exact hsender
  · intro h
    rw [h, hto] at hto'
    exact Json.str.inj (Option.some.inj hto')

theorem absent_of_reported {run : List (Turn × Mailbox.Disk)} :
    ∀ {s : Mailbox.Disk}, History.Trail (Turn.Faithful k) s run → ∀ sid mid,
      (sid, mid) ∈ run.flatMap (·.1.reported) →
        s.files.get? ⟨.history sid, jsonName mid⟩ = none := by
  induction run with
  | nil => exact fun _ _ _ h => absurd h List.not_mem_nil
  | cons x run ih =>
    obtain ⟨a, t⟩ := x
    rintro s ⟨ha, hrun⟩ sid mid hin
    rcases List.mem_append.mp hin with hin | hin
    · exact ((ha.reported sid mid).mp hin).1
    · have hlater := ih hrun sid mid hin
      by_contra hno
      obtain ⟨f, hf⟩ := Option.ne_none_iff_exists'.mp hno
      rw [ha.kept sid _ f hf] at hlater
      cases hlater

theorem nodup_reported {run : List (Turn × Mailbox.Disk)} :
    ∀ {s : Mailbox.Disk}, History.Trail (Turn.Faithful k) s run →
      (run.flatMap (·.1.reported)).Nodup := by
  induction run with
  | nil => exact fun _ => List.nodup_nil
  | cons x run ih =>
    obtain ⟨a, t⟩ := x
    rintro s ⟨ha, hrun⟩
    refine List.nodup_append.mpr ⟨ha.once, ih hrun, ?_⟩
    rintro ⟨sid, mid⟩ hin _ hlater rfl
    have hsome := ((ha.reported sid mid).mp hin).2
    rw [absent_of_reported hrun sid mid hlater] at hsome
    cases hsome

/-- **What `ingest` admits.**  Every call comes to its end. A run of calls is faithful, and
reports no identifier twice, if and only if each of its calls is clean. -/
theorem ingest_faithful_iff (k : Mem) (s : Mailbox.Disk) :
    (∀ disk sid messages, ∃ r t, (ingest k sid messages).Runs world 0 NoFault disk r t) ∧
    ∀ run : List (Turn × Mailbox.Disk), History.Trail (Turn.Runs k) s run →
      ((History.Trail (Turn.Faithful k) s run ∧ (run.flatMap (·.1.reported)).Nodup) ↔
        History.Along (Turn.Clean k) s run) := by
  refine ⟨ingest_runs k, fun run hrun => ?_⟩
  have hclean : History.Along (Turn.Clean k) s run ↔ History.Trail (Turn.Faithful k) s run :=
    hrun.along_iff_trail fun s a t h => ⟨fun hc => hc.faithful h, fun hf => hf.clean h⟩
  rw [hclean]
  exact ⟨And.left, fun h => ⟨h, nodup_reported h⟩⟩

end Runs

/-! ### Three messages -/

/-- A kernel with one session, as it is loaded. -/
def room : Mem where
  sessions sid := if sid = "s1" then
      some (Kernel.loadSession "s1" { manager := some "m", agents := ["w"] } none) else none

def roomDisk : Mailbox.Disk := newSession "s1" "m" ["w"] 0

/-- A message to the manager. -/
def mail (sender : String) (kind : Json) : Json :=
  .obj [("session_id", .str "s1"), ("from", .str sender), ("to", .str "m"), ("subject", .str "s"),
    ("body", .str "b"), ("kind", kind), ("msg_id", .str "n1"), ("created_at", .str "2026-01-01")]

/-- The message is ingested, and `test` holds of what came of it. -/
def servedSuchThat (msg : Json) (test : Except PyErr (List String) → Mailbox.Disk → Bool) : Bool :=
  (Prog.exec world 0 {} 40 (ingest room "s1" [msg]) roomDisk).any fun x => test x.1 x.2

theorem trail_of_served {msg : Json} {test : Except PyErr (List String) → Mailbox.Disk → Bool}
    (h : servedSuchThat msg test = true) :
    ∃ r t, History.Trail (Turn.Runs room) roomDisk [(⟨"s1", [msg], r⟩, t)] ∧ test r t = true := by
  have hchoice : NoFault {} := rfl
  unfold servedSuchThat at h
  cases hexec : Prog.exec world 0 {} 40 (ingest room "s1" [msg]) roomDisk with
  | none => rw [hexec] at h; cases h
  | some x =>
    rw [hexec] at h
    have hrun : (ingest room "s1" [msg]).Runs world 0 NoFault roomDisk x.1 x.2 :=
      Prog.runs_of_exec hchoice hexec
    exact ⟨x.1, x.2, ⟨hrun, trivial⟩, h⟩

/-- Mail from the roster is recorded and reported. -/
theorem mail_persisted : ∃ t, History.Trail (Turn.Faithful room) roomDisk
    [(⟨"s1", [mail "w" (.str "NOTICE")], .ok ["n1"]⟩, t)] := by
  have hserved : servedSuchThat (mail "w" (.str "NOTICE")) (fun r _ =>
      match r with | .ok mids => mids = ["n1"] | .error _ => false) = true := by decide +kernel
  obtain ⟨r, t, hrun, hr⟩ := trail_of_served hserved
  rcases r with e | mids
  · cases hr
  · obtain rfl : mids = ["n1"] := of_decide_eq_true hr
    refine ⟨t, (((ingest_faithful_iff room roomDisk).2 _ hrun).mpr ⟨⟨⟨_, rfl⟩, ?_, ?_⟩, trivial⟩).1⟩
    · intro m hm
      obtain rfl := List.mem_singleton.mp hm
      rintro ⟨-, -, ⟨vs, h⟩ | ⟨fs, h⟩⟩ <;> cases h
    · rintro session - m ⟨before, rest, hmsgs, -⟩
      have hmsgs : [mail "w" (.str "NOTICE")] = before ++ m :: rest := hmsgs
      have hm : m ∈ [mail "w" (.str "NOTICE")] := by
        rw [hmsgs]
        exact List.mem_append_right _ List.mem_cons_self
      obtain rfl := List.mem_singleton.mp hm
      exact ⟨fun h => absurd h (by decide), fun h => absurd h (by decide)⟩

/-- A kind that is a list raises, and a message without a sender is recorded. -/
theorem unfaithful_mail :
    (¬ ∀ (k : Mem) (s : Mailbox.Disk) (run : List (Turn × Mailbox.Disk)),
      (∀ x ∈ run, ∃ session, requireSession k x.1.sessionId = .ok session) →
      History.Trail (Turn.Runs k) s run → ∀ x ∈ run, ∃ mids, x.1.result = .ok mids) ∧
    ¬ ∀ (k : Mem) (s : Mailbox.Disk) (run : List (Turn × Mailbox.Disk)),
      (∀ x ∈ run, ∃ session, requireSession k x.1.sessionId = .ok session) →
      (∀ x ∈ run, ∃ mids, x.1.result = .ok mids) →
      History.Trail (Turn.Runs k) s run → History.Trail (Turn.Faithful k) s run := by
  constructor
  · intro h
    have hserved : servedSuchThat (mail "w" (.arr [])) (fun r _ =>
        match r with | .ok _ => false | .error _ => true) = true := by decide +kernel
    obtain ⟨r, t, hrun, hr⟩ := trail_of_served hserved
    obtain ⟨mids, hmids⟩ := h room roomDisk _ (fun x hx => by
      obtain rfl := List.mem_singleton.mp hx
      exact ⟨_, rfl⟩) hrun _ List.mem_cons_self
    rw [show r = .ok mids from hmids] at hr
    cases hr
  · intro h
    have hserved : servedSuchThat (mail "" (.str "NOTICE")) (fun r t =>
        (match r with | .ok _ => true | .error _ => false) &&
        decide ((t.files.get? ⟨.history "s1", "n1.json"⟩).map File.data =
          some (.json (mail "" (.str "NOTICE"))))) = true := by decide +kernel
    obtain ⟨r, t, hrun, hr⟩ := trail_of_served hserved
    rw [Bool.and_eq_true, decide_eq_true_eq] at hr
    obtain ⟨hok, hrec⟩ := hr
    obtain ⟨f, hf, hdata⟩ := Option.map_eq_some_iff.mp hrec
    rcases r with e | mids
    · cases hok
    have hfaithful := (h room roomDisk _ (fun x hx => by
      obtain rfl := List.mem_singleton.mp hx
      exact ⟨_, rfl⟩) (fun x hx => by
      obtain rfl := List.mem_singleton.mp hx
      exact ⟨mids, rfl⟩) hrun).1
    obtain ⟨session, hs, msg, hdata', ⟨a, ha, hfrom⟩, -⟩ :=
      hfaithful.genuine "s1" "n1.json" f hf (by decide +kernel)
    cases hs
    cases hdata.symm.trans hdata'
    cases hfrom
    revert ha
    decide +kernel

end AiMeshChat.Ingest
