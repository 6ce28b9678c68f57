import AiMeshChat.Gateway.Artifacts
import AiMeshChat.Lib.PosixPath

/-!
# Where the ledger writes

A `RequestLedger` joins the directory of a session, an agent, `events` and a request. The name of
the session is checked by `session_dir`, that of the request by `_events_dir`, and that of the
agent by nobody: `artifact_verify` hands it over as it came in the parameters, if there is one.

So the files of a call are in their place as long as the agent, taken for a path, leads to the
session directory or below it (`ledger_confined_iff`). Paths are meant without symbolic links.
-/

namespace AiMeshChat.Gateway

open Lib Lib.Posix Ledger

/-! ## The calls -/

/-- What a call finds on disk: the directories in a directory, sorted, what is a directory, the
content of a file, and that of the artifact at a path; and which paths are refused to it when it
makes a directory or opens a file to write. -/
structure LedgerHost where
  children : List Name → List EntryName
  isDir : List Name → Bool
  content : List Name → Option (List UInt8)
  artifact : String → Option (List UInt8)
  refuses : List Name → Bool

inductive WriteErr
  | os
  | raised (e : VerifyErr)

/-- `session_dir`, for a name that it takes. -/
def sessionPath (root : List Name) (sessionId : String) : List Name := join root sessionId.toList

/-- `_events_dir`, for a request that it takes. -/
def eventsPath (sessionDir : List Name) (agent : List Char) (rid : String) : List Name :=
  join (join (join sessionDir agent) "events".toList) rid.toList

def lockPath (eventsDir : List Name) : List Name := join eventsDir ".lock".toList

def eventsFile (eventsDir : List Name) : List Name := join eventsDir "events.jsonl".toList

/-- `record_event`: the files that it opens to write, and what it returns. A path with a zero
character is refused by `mkdir`. -/
def LedgerHost.record (m : LedgerHost) (d : ℕ) (sessionDir : List Name) (agent : List Char)
    (rid run event : String) (info : Json) (ts : FloatText) :
    List (List Name) × Except WriteErr (Bool × Logs) :=
  match Ledger.eventsDir rid with
  | .error e => ([], .error (.raised (.ledger e)))
  | .ok () =>
    let dir := eventsPath sessionDir agent rid
    if '\x00' ∈ agent ∨ m.refuses dir ∨ m.refuses (lockPath dir) then ([], .error .os)
    else
      let logs : Logs := ⟨fun rid => m.content (eventsFile (eventsPath sessionDir agent rid))⟩
      match recordEvent d logs rid run event info ts with
      | .error e => ([lockPath dir], .error (.raised (.ledger e)))
      | .ok r =>
        if m.refuses (eventsFile dir) then ([lockPath dir], .error .os)
        else ([lockPath dir, eventsFile dir], .ok r)

/-- `record_artifact_verdict`, with the verdict that `artifact_verify` makes of it. -/
def LedgerHost.recordVerdict (m : LedgerHost) (d : ℕ) (sessionDir : List Name) (agent : List Char)
    (rid run : String) (verified : Bool) (ts : FloatText) :
    List (List Name) × Except WriteErr Verdict :=
  let state := verdictEvent verified
  let (written, r) := m.record d sessionDir agent rid run state.1 state.2 ts
  (written, match r with
    | .error e => .error e
    | .ok (true, _) => .ok ⟨verified, state.1, false⟩
    | .ok (false, logs) =>
      match getTerminal d logs rid run with
      | .error e => .error (.raised (.ledger e))
      | .ok existing => .ok ⟨verified, existing.getD state.1, true⟩)

/-- The agent of `artifact_verify`: the one that is named, or else the first directory of the
session with events of the request. -/
def LedgerHost.agentFor (m : LedgerHost) (sessionDir : List Name) (p : VerifyParams) :
    Option (List Char) :=
  if p.agentId ≠ "" then some p.agentId.toList
  else if !m.isDir sessionDir then none
  else ((m.children sessionDir).find? fun child =>
    m.isDir (eventsPath sessionDir child.1 p.requestId)).map (·.1)

/-- `artifact_verify`, with the files that it opens to write. -/
def LedgerHost.verify (m : LedgerHost) (d : ℕ) (root : List Name) (p : VerifyParams)
    (ts : FloatText) : List (List Name) × Except WriteErr Verdict :=
  let gateway (e : GatewayErr) : List (List Name) × Except WriteErr Verdict :=
    ([], .error (.raised (.gateway e)))
  if p.sessionId = "" ∨ p.requestId = "" ∨ p.runId = "" ∨ p.path = "" ∨ p.sha256 = "" then
    gateway (.gateway .protocol "artifact.verify: missing required params" (.obj []))
  else if !Mailbox.agentIdOk p.sessionId then
    gateway (.other ("invalid agent id: " ++ reprStr p.sessionId))
  else
    let sd := sessionPath root p.sessionId
    match m.agentFor sd p with
    | none => gateway (.gateway .notFound ("no agent found with events for request " ++
        reprStr p.requestId ++ " in session " ++ reprStr p.sessionId) (.obj []))
    | some agent =>
      match verifyArtifact p.path (m.artifact p.path) p.sha256 p.size with
      | .ok _ => m.recordVerdict d sd agent p.requestId p.runId true ts
      | .error text =>
        if Mailbox.contains "not a file" text then gateway (.other text)
        else m.recordVerdict d sd agent p.requestId p.runId false ts

/-! ### The verdict -/

/-- The directory of a session as `artifactVerify` sees it. -/
def LedgerHost.sessionDir (m : LedgerHost) (sd : List Name) : SessionDir where
  children := if m.isDir sd then (m.children sd).map fun child => String.ofList child.1 else []
  hasEvents agent rid := m.isDir (eventsPath sd agent.toList rid)
  ledger agent := ⟨fun rid => m.content (eventsFile (eventsPath sd agent.toList rid))⟩

theorem resolveAgent_sessionDir (m : LedgerHost) (sd : List Name) (p : VerifyParams) :
    resolveAgent (m.sessionDir sd) p = (m.agentFor sd p).map String.ofList := by
  unfold resolveAgent LedgerHost.agentFor
  by_cases hnamed : p.agentId ≠ ""
  · rw [if_pos hnamed, if_pos hnamed, Option.map_some, String.ofList_toList]
  · rw [if_neg hnamed, if_neg hnamed]
    cases hdir : m.isDir sd with
    | false => simp [LedgerHost.sessionDir, hdir]
    | true =>
      have hname : (fun child : EntryName =>
          m.isDir (eventsPath sd (String.ofList child.1).toList p.requestId)) =
          fun child => m.isDir (eventsPath sd child.1 p.requestId) := by
        funext child
        rw [String.toList_ofList]
      simp only [LedgerHost.sessionDir, hdir, if_true, List.find?_map, Bool.not_true,
        Bool.false_eq_true, if_false, Option.map_map, Function.comp_def, hname]

variable {m : LedgerHost} {s sid rid : String} {d : ℕ} {f root : List Name} {ts : FloatText}
  {c : LedgerCall}

/-- What `record_artifact_verdict` returns, where nothing is refused. -/
theorem recordVerdict_verdict (hopen : ∀ f, m.refuses f = false) (d : ℕ) (sd : List Name)
    {agent : List Char} (hnul : '\x00' ∉ agent) (rid run : String) (verified : Bool)
    (ts : FloatText) : (m.recordVerdict d sd agent rid run verified ts).2 =
      ((recordArtifactVerdict d ((m.sessionDir sd).ledger (String.ofList agent)) rid run
        verified ts).mapError (.raised ∘ .ledger)).map
          fun r => ⟨verified, r.1.1, !r.1.2⟩ := by
  simp only [LedgerHost.recordVerdict, LedgerHost.record, recordArtifactVerdict, hnul, hopen,
    LedgerHost.sessionDir, String.toList_ofList, Bool.false_eq_true, or_self, if_false]
  cases hrid : Ledger.eventsDir rid with
  | error e => simp [recordEvent, decideEvent, hrid, bind, Except.bind, Except.mapError, Except.map]
  | ok u =>
    simp only [bind, Except.bind]
    cases hrec : recordEvent d ⟨fun rid => m.content (eventsFile (eventsPath sd agent rid))⟩ rid run
        (verdictEvent verified).1 (verdictEvent verified).2 ts with
    | error e => rfl
    | ok r =>
      obtain ⟨accepted, logs⟩ := r
      cases accepted with
      | true => rfl
      | false =>
        simp only [Bool.false_eq_true, if_false]
        cases getTerminal d logs rid run with
        | error e => rfl
        | ok existing => rfl

/-- Where nothing is refused, the verdict is that of `artifactVerify` on the directory. -/
theorem verify_verdict (hopen : ∀ f, m.refuses f = false) (d : ℕ) (root : List Name)
    (p : VerifyParams) (ts : FloatText)
    (hnul : ∀ agent ∈ m.agentFor (sessionPath root p.sessionId) p, '\x00' ∉ agent) :
    (m.verify d root p ts).2 =
      ((artifactVerify d m.artifact (m.sessionDir (sessionPath root p.sessionId)) p ts).mapError
        .raised).map (·.1) := by
  simp only [LedgerHost.verify, artifactVerify, resolveAgent_sessionDir]
  split_ifs with hpresent hsid
  · rfl
  · rfl
  · cases hagent : m.agentFor (sessionPath root p.sessionId) p with
    | none => rfl
    | some agent =>
      have hrec := recordVerdict_verdict hopen d (sessionPath root p.sessionId)
        (hnul agent hagent) p.requestId p.runId
      simp only [Option.map_some]
      cases verifyArtifact p.path (m.artifact p.path) p.sha256 p.size with
      | ok u =>
        simp only [hrec]
        cases recordArtifactVerdict d ((m.sessionDir (sessionPath root p.sessionId)).ledger
          (String.ofList agent)) p.requestId p.runId true ts with
        | error e => rfl
        | ok r => rfl
      | error text =>
        by_cases hfile : Mailbox.contains "not a file" text
        · simp only [hfile, if_true]
          rfl
        · simp only [hfile, Bool.false_eq_true, if_false, hrec]
          cases recordArtifactVerdict d ((m.sessionDir (sessionPath root p.sessionId)).ledger
            (String.ofList agent)) p.requestId p.runId false ts with
          | error e => rfl
          | ok r => rfl
/-! ### All calls -/

/-- A call that drives a ledger: `artifact_verify`, or a caller of its own that has the directory
from `session_dir`. -/
inductive LedgerCall
  | verify (p : VerifyParams)
  | record (sessionId agentId requestId runId event : String) (info : Json)

def LedgerCall.sessionId : LedgerCall → String
  | .verify p => p.sessionId
  | .record sid _ _ _ _ _ => sid

def LedgerCall.requestId : LedgerCall → String
  | .verify p => p.requestId
  | .record _ _ rid _ _ _ => rid

def LedgerCall.agentId : LedgerCall → String
  | .verify p => p.agentId
  | .record _ agent _ _ _ _ => agent

/-- The agent of the ledger. -/
def LedgerCall.agent (m : LedgerHost) (root : List Name) : LedgerCall → Option (List Char)
  | .verify p => m.agentFor (sessionPath root p.sessionId) p
  | .record _ agent _ _ _ _ => some agent.toList

/-- The files that the call opens to write. -/
def LedgerCall.written (m : LedgerHost) (d : ℕ) (root : List Name) (ts : FloatText) :
    LedgerCall → List (List Name)
  | .verify p => (m.verify d root p ts).1
  | .record sid agent rid run event info =>
    if Mailbox.agentIdOk sid then
      (m.record d (sessionPath root sid) agent.toList rid run event info ts).1
    else []

/-! ## Confined -/

/-- Every file that is written is below the events directory of the request, and that is below the
session directory. -/
def Confined (m : LedgerHost) (d : ℕ) (root : List Name) (ts : FloatText) (c : LedgerCall) : Prop :=
  ∀ f ∈ c.written m d root ts, ∃ agent ∈ c.agent m root,
    StrictlyUnder (eventsPath (sessionPath root c.sessionId) agent c.requestId) f ∧
    StrictlyUnder (sessionPath root c.sessionId)
      (eventsPath (sessionPath root c.sessionId) agent c.requestId)

/-- The agent leads to the session directory or below, or from a session that is itself called
`events` to the mailbox root. -/
def LeadsInside (root : List Name) (sessionId : String) (agent : List Char) : Prop :=
  Under (sessionPath root sessionId) (join (sessionPath root sessionId) agent) ∨
    sessionId = "events" ∧
      resolve (join (sessionPath root sessionId) agent) = resolve root

/-- What `artifact_verify` asks of its parameters: they are there, and the artifact is a file. -/
def LedgerCall.Ready (m : LedgerHost) : LedgerCall → Prop
  | .verify p => (p.runId ≠ "" ∧ p.path ≠ "" ∧ p.sha256 ≠ "") ∧
      ∀ text, verifyArtifact p.path (m.artifact p.path) p.sha256 p.size = .error text →
        Mailbox.contains "not a file" text = false
  | .record .. => True

/-- Nothing stops the call before the ledger opens its lock. -/
structure Opens (m : LedgerHost) (root : List Name) (c : LedgerCall) : Prop where
  ready : c.Ready m
  session : Mailbox.agentIdOk c.sessionId = true
  request : Ledger.eventsDir c.requestId = .ok ()
  noNul : '\x00' ∉ c.agentId.toList
  dirMade :
    m.refuses (eventsPath (sessionPath root c.sessionId) c.agentId.toList c.requestId) = false
  lockOpened : m.refuses
    (lockPath (eventsPath (sessionPath root c.sessionId) c.agentId.toList c.requestId)) = false

/-! ### Names that are checked -/

theorem idChar_of_dollar {p : List Char → Bool} (hp : ∀ cs, p cs = true → cs.all isIdChar = true)
    (h : dollar p s = true) : ∀ c ∈ s.toList, isIdChar c = true ∨ c = '\n' := by
  intro c hc
  rw [dollar, Bool.or_eq_true, Bool.and_eq_true, decide_eq_true_eq] at h
  rcases h with h | ⟨hlast, h⟩
  · exact .inl (List.all_eq_true.mp (hp _ h) c hc)
  · -- the pattern lets a final newline through
    obtain ⟨init, hinit⟩ := List.getLast?_eq_some_iff.mp hlast
    rw [hinit, List.dropLast_concat] at h
    rw [hinit, List.mem_append, List.mem_singleton] at hc
    exact hc.imp_left fun hmem => List.all_eq_true.mp (hp _ h) c hmem

theorem no_slash_of_dollar {p : List Char → Bool} (hp : ∀ cs, p cs = true → cs.all isIdChar = true)
    (h : dollar p s = true) : '/' ∉ s.toList := by
  intro hmem
  have hid := idChar_of_dollar hp h _ hmem
  revert hid
  decide

/-- The text is a name, and no dots. -/
def IsEntry (s : String) : Prop := Leads s.toList ∧ s.toList ≠ dotdot ∧ '/' ∉ s.toList

theorem IsEntry.ne_empty (h : IsEntry s) : s ≠ "" := by
  intro heq
  rw [heq] at h
  exact h.1.1 rfl

theorem isEntry_of_ne (hslash : '/' ∉ s.toList) (h0 : s ≠ "") (h1 : s ≠ ".")
    (h2 : s ≠ "..") : IsEntry s := by
  have hne {t : String} (h : s ≠ t) : s.toList ≠ t.toList := fun heq => h (String.toList_inj.mp heq)
  exact ⟨⟨hne h0, hne h1⟩, hne h2, hslash⟩

theorem isEntry_session (h : Mailbox.agentIdOk sid = true) : IsEntry sid := by
  have hp (cs : List Char) (hcs : idText 31 cs = true) : cs.all isIdChar = true := by
    cases cs with
    | nil => rfl
    | cons c cs =>
      rw [idText, Bool.and_eq_true, Bool.and_eq_true] at hcs
      rw [List.all_cons, isIdChar, hcs.1.1, hcs.1.2]
      rfl
  refine isEntry_of_ne (no_slash_of_dollar hp h) ?_ ?_ ?_
  all_goals
    intro heq
    rw [heq] at h
    revert h
    decide

theorem isEntry_request (h : Ledger.eventsDir rid = .ok ()) : IsEntry rid := by
  unfold Ledger.eventsDir at h
  split at h
  · cases h
  · next hnot =>
    simp only [Bool.or_eq_true, decide_eq_true_eq, Bool.not_eq_true', not_or,
      Bool.not_eq_false] at hnot
    obtain ⟨⟨h1, h2⟩, hsafe⟩ := hnot
    refine isEntry_of_ne (no_slash_of_dollar (fun cs hcs => ?_) hsafe) ?_ h1 h2
    · rw [Bool.and_eq_true, Bool.and_eq_true] at hcs
      exact hcs.1.2
    · intro heq
      rw [heq] at hsafe
      revert hsafe
      decide

theorem join_entry (base : List Name) (h : IsEntry s) :
    join base s.toList = base ++ [s.toList] := join_name base h.2.2 h.1

/-! ### The place of the files -/

theorem eventsPath_eq (sd : List Name) (agent : List Char) (h : IsEntry rid) :
    eventsPath sd agent rid =
      join sd agent ++ [['e', 'v', 'e', 'n', 't', 's']] ++ [rid.toList] := by
  rw [eventsPath, join_entry _ h, join_name _ (by decide) (by decide)]
  rfl

theorem resolve_eventsPath (sd : List Name) (agent : List Char) (h : IsEntry rid) :
    resolve (eventsPath sd agent rid) =
      resolve (join sd agent) ++ [['e', 'v', 'e', 'n', 't', 's']] ++ [rid.toList] := by
  rw [eventsPath_eq sd agent h, resolve_concat _ h.2.1, resolve_concat _ (by decide)]

theorem resolve_sessionPath (root : List Name) (h : IsEntry sid) :
    resolve (sessionPath root sid) = resolve root ++ [sid.toList] := by
  rw [sessionPath, join_entry root h, resolve_concat root h.2.1]

theorem strictlyUnder_session_iff (root : List Name) (agent : List Char) (hsid : IsEntry sid)
    (hrid : IsEntry rid) :
    StrictlyUnder (sessionPath root sid) (eventsPath (sessionPath root sid) agent rid) ↔
      LeadsInside root sid agent := by
  have hevents : sid = "events" ↔ sid.toList = ['e', 'v', 'e', 'n', 't', 's'] := by
    rw [← String.toList_inj]
    rfl
  rw [StrictlyUnder, LeadsInside, Under, Under, resolve_eventsPath _ _ hrid,
    resolve_sessionPath root hsid, List.prefix_concat_iff, List.prefix_concat_iff, hevents]
  constructor
  · rintro ⟨heq | heq | hpre, hne⟩
    · exact absurd heq.symm hne
    · obtain ⟨hroot, hname⟩ := List.append_inj' heq rfl
      exact .inr ⟨List.singleton_inj.mp hname, hroot.symm⟩
    · exact .inl hpre
  · rintro (hpre | ⟨hname, hroot⟩)
    · refine ⟨.inr (.inr hpre), ?_⟩
      intro heq
      have hle := hpre.length_le
      rw [← heq] at hle
      simp only [List.length_append, List.length_singleton] at hle
      omega
    · rw [hname, hroot]
      exact ⟨.inr (.inl rfl), by simp⟩

theorem stays_of_entry (root : List Name) (sid : String) (child : EntryName) :
    LeadsInside root sid child.1 := by
  refine .inl ?_
  rw [join_name _ child.2.2.2 child.2.1]
  exact under_append _ (by simpa using child.2.2.1.symm)

/-! ### The files -/

theorem mem_record {sd : List Name} {agent : List Char} {run event : String} {info : Json}
    (h : f ∈ (m.record d sd agent rid run event info ts).1) :
    Ledger.eventsDir rid = .ok () ∧ '\x00' ∉ agent ∧ m.refuses (eventsPath sd agent rid) = false ∧
      m.refuses (lockPath (eventsPath sd agent rid)) = false ∧
      (f = lockPath (eventsPath sd agent rid) ∨ f = eventsFile (eventsPath sd agent rid)) := by
  simp only [LedgerHost.record] at h
  split at h
  · cases h
  · next hrid =>
    split at h
    · cases h
    · next hnot =>
      simp only [not_or, Bool.not_eq_true] at hnot
      refine ⟨hrid, hnot.1, hnot.2.1, hnot.2.2, ?_⟩
      split at h
      · exact .inl (List.mem_singleton.mp h)
      · split at h
        · exact .inl (List.mem_singleton.mp h)
        · exact List.mem_pair.mp h

theorem lock_mem_record {sd : List Name} {agent : List Char} {run event : String} {info : Json}
    (hrid : Ledger.eventsDir rid = .ok ()) (hnul : '\x00' ∉ agent)
    (hdir : m.refuses (eventsPath sd agent rid) = false)
    (hlock : m.refuses (lockPath (eventsPath sd agent rid)) = false) :
    lockPath (eventsPath sd agent rid) ∈ (m.record d sd agent rid run event info ts).1 := by
  have hnot : ¬ ('\x00' ∈ agent ∨ m.refuses (eventsPath sd agent rid) = true ∨
      m.refuses (lockPath (eventsPath sd agent rid)) = true) := by
    simp [hnul, hdir, hlock]
  simp only [LedgerHost.record, hrid, if_neg hnot]
  split
  · exact List.mem_singleton_self _
  · split
    · exact List.mem_singleton_self _
    · exact List.mem_cons_self

/-- `artifact_verify` writes the files of one verdict, and those only. -/
theorem verify_written {p : VerifyParams} (h : f ∈ (m.verify d root p ts).1) :
    (LedgerCall.verify p).Ready m ∧ Mailbox.agentIdOk p.sessionId = true ∧
      ∃ agent ∈ m.agentFor (sessionPath root p.sessionId) p, ∃ verified,
        f ∈ (m.recordVerdict d (sessionPath root p.sessionId) agent p.requestId p.runId
          verified ts).1 := by
  simp only [LedgerHost.verify] at h
  split at h
  · cases h
  · next hpresent =>
    simp only [not_or] at hpresent
    split at h
    · cases h
    · next hsid =>
      rw [Bool.not_eq_true', Bool.not_eq_false] at hsid
      split at h
      · cases h
      · next agent hagent =>
        split at h
        · next hok =>
          refine ⟨⟨hpresent.2.2, ?_⟩, hsid, agent, hagent, true, h⟩
          intro text htext
          cases hok.symm.trans htext
        · next text herr =>
          split at h
          · cases h
          · next hfile =>
            refine ⟨⟨hpresent.2.2, ?_⟩, hsid, agent, hagent, false, h⟩
            intro text' htext
            cases herr.symm.trans htext
            exact Bool.eq_false_of_not_eq_true hfile

theorem written_spec (h : f ∈ c.written m d root ts) :
    c.Ready m ∧ Mailbox.agentIdOk c.sessionId = true ∧
      ∃ agent ∈ c.agent m root, ∃ run event info,
        f ∈ (m.record d (sessionPath root c.sessionId) agent c.requestId run event info ts).1 := by
  cases c with
  | verify p =>
    obtain ⟨hready, hsid, agent, hagent, verified, hf⟩ := verify_written h
    exact ⟨hready, hsid, agent, hagent, _, _, _, hf⟩
  | record sid agent rid run event info =>
    simp only [LedgerCall.written] at h
    split at h
    · next hsid => exact ⟨trivial, hsid, agent.toList, rfl, run, event, info, h⟩
    · cases h

theorem lock_written (d : ℕ) (ts : FloatText) (h : Opens m root c)
    (hagent : c.agent m root = some c.agentId.toList) :
    lockPath (eventsPath (sessionPath root c.sessionId) c.agentId.toList c.requestId) ∈
      c.written m d root ts := by
  cases c with
  | record sid agent rid run event info =>
    have hsid : Mailbox.agentIdOk sid = true := h.session
    rw [LedgerCall.written, if_pos hsid]
    exact lock_mem_record h.request h.noNul h.dirMade h.lockOpened
  | verify p =>
    have hlock (event : String) (info : Json) :
        lockPath (eventsPath (sessionPath root p.sessionId) p.agentId.toList p.requestId) ∈
          (m.record d (sessionPath root p.sessionId) p.agentId.toList p.requestId p.runId event
            info ts).1 := lock_mem_record h.request h.noNul h.dirMade h.lockOpened
    obtain ⟨⟨hrun, hpath, hsha⟩, hfile⟩ := h.ready
    have hsid : p.sessionId ≠ "" := (isEntry_session h.session).ne_empty
    have hrid : p.requestId ≠ "" := (isEntry_request h.request).ne_empty
    have hsession : Mailbox.agentIdOk p.sessionId = true := h.session
    have hfor : m.agentFor (sessionPath root p.sessionId) p = some p.agentId.toList := hagent
    simp only [LedgerCall.written, LedgerHost.verify, hsid, hrid, hrun, hpath, hsha, or_self,
      if_false, hsession, Bool.not_true, Bool.false_eq_true, hfor]
    split
    · exact hlock _ _
    · next text herr =>
      rw [hfile text herr, if_neg Bool.false_ne_true]
      exact hlock _ _

theorem agent_cases {agent : List Char} (h : agent ∈ c.agent m root) :
    agent = c.agentId.toList ∨ ∃ child : EntryName, agent = child.1 := by
  cases c with
  | record => exact .inl (Option.some.inj h).symm
  | verify p =>
    simp only [LedgerCall.agent, LedgerHost.agentFor] at h
    split at h
    · exact .inl (Option.some.inj h).symm
    · split at h
      · cases h
      · obtain ⟨child, -, hchild⟩ := Option.map_eq_some_iff.mp h
        exact .inr ⟨child, hchild.symm⟩

theorem agent_named (m : LedgerHost) (root : List Name) (h : c.agentId ≠ "") :
    c.agent m root = some c.agentId.toList := by
  cases c with
  | record => rfl
  | verify p => exact if_pos h

/-- The writes of a call are confined if and only if the agent that it names stays in the session
directory, or something stops the call before the first of them. -/
theorem ledger_confined_iff (m : LedgerHost) (d : ℕ) (root : List Name) (ts : FloatText)
    (c : LedgerCall) :
    Confined m d root ts c ↔ (Opens m root c → LeadsInside root c.sessionId c.agentId.toList) := by
  constructor
  · intro hconf hopens
    by_cases hnamed : c.agentId = ""
    · have hhere : join (sessionPath root c.sessionId) "".toList = sessionPath root c.sessionId :=
        List.append_nil _
      rw [hnamed, LeadsInside, hhere]
      exact .inl (List.prefix_refl _)
    · have hagent := agent_named m root hnamed
      obtain ⟨agent, hmem, -, hsession⟩ := hconf _ (lock_written d ts hopens hagent)
      rw [hagent, Option.mem_some_iff] at hmem
      rw [← hmem] at hsession
      exact (strictlyUnder_session_iff root _ (isEntry_session hopens.session)
        (isEntry_request hopens.request)).mp hsession
  · intro hstays f hf
    obtain ⟨hready, hsid, agent, hagent, run, event, info, hmem⟩ := written_spec hf
    obtain ⟨hrid, hnul, hdir, hlock, hplace⟩ := mem_record hmem
    refine ⟨agent, hagent, ?_, ?_⟩
    · rcases hplace with rfl | rfl
      · rw [lockPath, join_name _ (by decide) (by decide)]
        exact strictlyUnder_concat _ (by decide)
      · rw [eventsFile, join_name _ (by decide) (by decide)]
        exact strictlyUnder_concat _ (by decide)
    · rw [strictlyUnder_session_iff root agent (isEntry_session hsid) (isEntry_request hrid)]
      rcases agent_cases hagent with rfl | ⟨child, rfl⟩
      · exact hstays ⟨hready, hsid, hrid, hnul, hdir, hlock⟩
      · exact stays_of_entry root c.sessionId child

/-- A host that refuses nothing, with an empty file for every artifact. -/
def openHost : LedgerHost :=
  ⟨fun _ => [], fun _ => true, fun _ => none, fun _ => some [], fun _ => false⟩

/-- A verification whose agent is two directories up. -/
def climbing : LedgerCall :=
  .verify { sessionId := "s", requestId := "r", runId := "u", path := "a", sha256 := "0", size := 1,
            agentId := "../.." }

theorem opens_climbing : Opens openHost [['m']] climbing := by
  refine ⟨⟨by decide, ?_⟩, by decide, rfl, by decide, rfl, rfl⟩
  intro text htext
  cases htext
  decide

theorem parent_agent_escapes : ¬ Confined openHost 8 [['m']] someTime climbing := by
  intro h
  obtain ⟨agent, hagent, -, hsession⟩ := h _ (lock_written 8 someTime opens_climbing rfl)
  cases hagent
  revert hsession
  rw [strictlyUnder_session_iff _ _ (isEntry_session (by decide)) (isEntry_request rfl)]
  rintro (hunder | ⟨hname, -⟩)
  · rw [Under] at hunder
    revert hunder
    decide
  · exact absurd hname (by decide)

end AiMeshChat.Gateway
