import AiMeshChat.Swarm.Outbox

/-!
# The delivery engine

`DeliveryEngine` and `EngineDeliverySink` of `swarm/delivery.py`, method by method.
An envelope is written to the outbox before any transport is tried; what fails stays
there, and `flush` tries it again: after a backoff, until it was tried five times or
the error is one that no retry mends. A helper with another wire version pauses an
entry instead.

The retry of a local entry and of a remote one differ in the send alone and share
their text here.
-/

namespace AiMeshChat.Swarm

open Lib Session

def MAX_ATTEMPTS : ℕ := 5
def BACKOFF_BASE_S : ℕ := 5
def RETENTION_DAYS : ℤ := 7
def SWEEP_INTERVAL_S : ℕ := 3600
def ROSTER_TTL_S : ℕ := 300
def ENSURE_TTL_S : ℕ := 300
def REPROBE_INTERVAL_S : ℕ := 600

/-- Seconds, as clocks are read. -/
def seconds (n : ℕ) : ℕ := n * 1000000

/-! ## Hosts -/

/-- `name.split(".")[0]`. -/
def shortName (name : String) : String := String.ofList (name.toList.takeWhile (· ≠ '.'))

/-- `resolve_is_local`. -/
def resolveIsLocal (hostname : String) (host : HostSpec) : Bool :=
  host.hostnames.any fun candidate =>
    lower candidate ≠ "" && (lower candidate = lower hostname ||
      shortName (lower candidate) = shortName (lower hostname))

/-- The hosts that `load_repo_map` accepts, by name. -/
structure RepoMap where
  hosts : String → Option HostSpec
  named : ∀ name h, hosts name = some h → h.name = name
  aliased : ∀ name h, hosts name = some h → strip h.sshAlias.toList ≠ []

/-- No host is known. -/
def RepoMap.empty : RepoMap := ⟨fun _ => none, by simp, by simp⟩

/-- The name of this host, the repo map (empty if it cannot be loaded), and whether the
engine has a router. -/
structure Config where
  hostname : String
  repoMap : RepoMap
  router : Bool := true

/-- `getattr(host, "ssh_alias", None) or getattr(host, "name", None) or ""`. -/
def aliasOf (host : HostSpec) : String := if host.sshAlias = "" then host.name else host.sshAlias

/-- `_resolve_target`. -/
def resolveTarget (cfg : Config) (hostCache : String → Option HostSpec) (hostAlias : String) :
    HostSpec :=
  match hostCache hostAlias with
  | some host => host
  | none =>
    match cfg.repoMap.hosts hostAlias with
    | some spec => spec
    | none => { name := hostAlias, sshAlias := hostAlias }

/-- What `deliver` is given as the target: a host, or the name of an agent without one. -/
inductive Dest
  | host (host : HostSpec)
  | agent (name : String)
  deriving DecidableEq

/-- The host that a message is sent to over a transport; without one it is delivered
here. -/
def Dest.remote? (cfg : Config) : Dest → Option HostSpec
  | .host h => if h.sshAlias = "" || resolveIsLocal cfg.hostname h then none else some h
  | .agent _ => none

/-! ## Small parts -/

def look (k : Key) : Call Entry := Prog.op (Op.look k)
def file (k : Key) (f : FileOp) : Call Unit := Prog.op (Op.file k f)
def update (u : Update) : Call Unit := Prog.op (Op.upd u)

/-- An answer, or the exception that it is. -/
def orRaise {α : Type} : Except String α → Call α
  | .ok a => .ret a
  | .error text => .raise text

/-- `try: p` with `except Exception as exc`. -/
def attempt {α : Type} (p : Call α) : Call (Except String α) :=
  Prog.tryCatch (p >>= fun a => .ret (.ok a)) fun text => .ret (.error text)

/-- `self._cache[msg_id] = receipt`. -/
def remember (mid : String) (r : SendReceipt) : Call SendReceipt := do
  update (.remember mid r)
  return r

/-- `text[:n]`. -/
def cut (n : ℕ) (text : String) : String := String.ofList (text.toList.take n)

/-- `sorted(set(l))`. -/
def sortedSet (l : List String) : List String := l.dedup.insertionSort (· ≤ ·)

/-- `json.dumps(v, ensure_ascii=False)`. -/
def dumpsLine (v : Json) : String := String.ofList (lineChars v)

/-! ## The files of an entry -/

/-- An envelope is written to the temporary file, which is then renamed. -/
def replaceEnvelope (k : Key) (env : Envelope) : Call Unit := do
  orRaise (← Prog.op (Op.openTmp k))
  file (tmpKey k) (.putEnvelope env)
  Prog.op (Op.publish k)

/-- `_write_outbox`. -/
def writeOutbox (k : Key) (env : Envelope) : Call Unit := do
  if (← look k).envelope.isSome then return () else replaceEnvelope k env

/-- `_stamp_outbox_target_host`. -/
def stampOutboxTargetHost (k : Key) : Call Unit := do
  match (← look k).envelope with
  | some (.json env) =>
    if env.targetHost.getD "" ≠ "" then return ()
    else replaceEnvelope k { env with targetHost := some LOCAL_HOST_MARKER }
  | _ => return ()

/-- `_mark_delivered`. -/
def markDelivered (k : Key) : Call Unit := file k .mark

/-- `_write_status`. -/
def writeStatus (k : Key) (kind detail : String) : Call Unit := do
  file k .mkStatus
  file k (.putPhase "")
  file k (.putPhase detail)
  file k (.putKind kind)
  let t ← Prog.op Op.now
  file k (.putTimestamp (isoFormat t))

/-! ## Idempotency -/

/-- `_check_idempotency`. -/
def checkIdempotency (k : Key) : Call (Option SendReceipt) := do
  match (← Prog.op Op.mem).cache k.2 with
  | some r => return some r
  | none =>
    let e ← look k
    if e.envelope.isNone then return none
    else if e.delivered.isSome then return some (← remember k.2 ⟨.delivered, k.2, "", false⟩)
    else return some (← remember k.2 ⟨.accepted, k.2, "", true⟩)

/-! ## Sending -/

/-- An option that is passed if its value is not empty. -/
def optArg (flag value : String) : List String := if value = "" then [] else [flag, value]

/-- `_build_mailbox_args`. -/
def buildMailboxArgs (env : Envelope) : List String :=
  ["send", "--session", env.sessionId.getD "", "--from", env.fromId, "--to", env.toId,
    "--subject", env.subject, "--body", env.body, "--kind", env.kind, "--msg-id", env.msgId] ++
  (if env.requireAck then ["--require-ack"] else []) ++
  optArg "--receipt-type" env.receiptType ++
  env.attachments.flatMap (fun att => ["--attachment", dumpsLine att]) ++
  optArg "--reply-to" env.replyTo ++ optArg "--run-id" env.runId ++
  optArg "--request-id" env.requestId ++ optArg "--trace-id" env.traceId ++
  optArg "--causation-id" env.causationId

/-- `err or out`. -/
def Answer.said (a : Answer) : String := if a.err = "" then a.out else a.err

/-- The local delivery of `deliver` and `flush`. -/
def localSend (k : Key) (env : Envelope) : Call Unit := do
  let a ← orRaise (← Prog.op (Op.localMailbox k (buildMailboxArgs { env with msgId := k.2 })))
  if a.code ≠ 0 then
    .raise ("local mailbox send failed (exit " ++ toString a.code ++ "): " ++ a.said)
  else return ()

/-- The capabilities of a host, asked for once. -/
def capabilitiesOf (k : Key) (host : HostSpec) : Call (List String) := do
  match (← Prog.op Op.mem).capabilities (aliasOf host) with
  | some caps => return caps
  | none =>
    match ← Prog.op (Op.getCapabilities k host) with
    | .ok caps =>
      update (.setCapabilities (aliasOf host) caps)
      return caps
    | .error text =>
      .raise ("cannot verify 'mailbox' capability for host '" ++ aliasOf host ++ "': " ++ text)

/-- `_check_capability`. -/
def checkCapability (cfg : Config) (k : Key) (host : HostSpec) : Call Unit := do
  if !cfg.router || aliasOf host = "" then return ()
  else
    let caps ← capabilitiesOf k host
    if "mailbox" ∈ caps then return ()
    else .raise ("host '" ++ aliasOf host ++ "' transport lacks 'mailbox' capability")

/-- The arguments of a remote `session-init`. -/
def initArgs (sid manager : String) (roster : List String) (acl : Option Json) : List String :=
  ["session-init", "--session", sid, "--manager", manager, "--agents",
    ",".intercalate (sortedSet roster)] ++
  match acl with
  | some v => ["--acl", dumpsLine v]
  | none => []

/-- The session was ensured on the host a short while ago. -/
def isEnsured (key : String × String) : Call Bool := do
  match (← Prog.op Op.mem).ensured key with
  | some t => return (← Prog.op Op.now) - t < seconds ENSURE_TTL_S
  | none => return false

/-- `_ensure_remote_session`. -/
def ensureRemoteSession (k : Key) (sid : String) (host : HostSpec) (manager : String)
    (roster : List String) : Call Unit := do
  if ← isEnsured (sid, aliasOf host) then return ()
  else
    let acl := (← Prog.op (Op.readSession sid)).bind (·.acl)
    let a ← orRaise (← Prog.op (Op.mailbox k host (initArgs sid manager roster acl)))
    if a.code ≠ 0 && !Transport.isInfix "already exists" a.said then
      .raise ("remote session-init failed (exit " ++ toString a.code ++ "): " ++ a.said)
    else
      let t ← Prog.op Op.now
      update (.setEnsured (sid, aliasOf host) t)

/-- The cached roster of a session, unless it is too old. -/
def cachedRoster (sid : String) : Call (Option (List String)) := do
  match (← Prog.op Op.mem).rosters sid with
  | some (t, roster) =>
    if (← Prog.op Op.now) - t < seconds ROSTER_TTL_S then return some roster else return none
  | none => return none

/-- The manager and the roster by `session.json`; the ends of the message, if it does
not say. -/
def storedManager (sid : String) (env : Envelope) : Option SessionMeta → Call (String × List String)
  | some info =>
    if info.agents = [] then .ret (env.fromId, sortedSet [env.fromId, env.toId])
    else do
      let t ← Prog.op Op.now
      update (.setRoster sid t (sortedSet info.agents))
      return (if info.manager = "" then env.fromId else info.manager, sortedSet info.agents)
  | none => .ret (env.fromId, sortedSet [env.fromId, env.toId])

/-- The manager and the roster that a session is ensured with. -/
def managerAndRoster (sid : String) (env : Envelope) : Call (String × List String) := do
  match ← cachedRoster sid with
  | some roster => return (env.fromId, roster)
  | none => storedManager sid env (← Prog.op (Op.readSession sid))

/-- `_remote_send`. -/
def remoteSend (cfg : Config) (k : Key) (host : HostSpec) (env : Envelope) : Call Unit := do
  orRaise (← Prog.op (Op.getTransport k host))
  checkCapability cfg k host
  let sid := env.sessionId.getD ""
  let (manager, roster) ← managerAndRoster sid env
  ensureRemoteSession k sid host manager roster
  let a ← orRaise (← Prog.op (Op.mailbox k host (buildMailboxArgs env)))
  if a.code ≠ 0 then
    .raise ("remote mailbox send failed (exit " ++ toString a.code ++ "): " ++ a.said)
  else return ()

/-! ## `deliver` -/

/-- The envelope as it is stored: a local one says so. -/
def stored (remote : Option HostSpec) (env : Envelope) : Envelope :=
  if remote.isNone then { env with targetHost := some (env.targetHost.getD LOCAL_HOST_MARKER) }
  else env

/-- The send of `deliver` for an entry that was just written. -/
def sendFirst (cfg : Config) (k : Key) (env : Envelope) : Option HostSpec → Call SendReceipt
  | none => do
    match ← attempt (localSend k env) with
    | .ok () =>
      markDelivered k
      remember k.2 ⟨.delivered, k.2, "", false⟩
    | .error text =>
      writeStatus k "local_delivery_failed" text
      stampOutboxTargetHost k
      return ⟨.accepted, k.2, "", true⟩
  | some host => do
    match ← attempt (remoteSend cfg k host env) with
    | .ok () =>
      markDelivered k
      Prog.op (Op.appendHistory k)
      remember k.2 ⟨.delivered, k.2, "", false⟩
    | .error text =>
      writeStatus k "transport_failed" text
      return ⟨.accepted, k.2, "", true⟩

/-- A message that is known already: the receipt is repeated. -/
def replay (k : Key) (env : Envelope) (cached : SendReceipt) : Call SendReceipt :=
  if env.targetHost = some LOCAL_HOST_MARKER then do
    stampOutboxTargetHost k
    return cached
  else .ret cached

/-- A message that is not known: it is written to the outbox and sent. -/
def accept (cfg : Config) (k : Key) (env : Envelope) (remote : Option HostSpec) :
    Call SendReceipt := do
  match ← attempt (writeOutbox k env) with
  | .ok () =>
    let _ ← remember k.2 ⟨.accepted, k.2, "", true⟩
    sendFirst cfg k env remote
  | .error text => remember k.2 ⟨.failed, "", text, false⟩

/-- The key under which `deliver` stores an envelope. -/
def deliverKey (sessionId : String) (envelope : Envelope) : Key :=
  (envelope.sessionId.getD sessionId, envelope.msgId)

/-- `deliver`. -/
def deliver (cfg : Config) (sessionId : String) (target : Dest) (envelope : Envelope) :
    Call SendReceipt :=
  let k := deliverKey sessionId envelope
  let remote := target.remote? cfg
  let env := stored remote envelope
  if envelope.msgId = "" then .ret ⟨.failed, "", "envelope missing msg_id", false⟩
  else do
    match ← checkIdempotency k with
    | some cached => replay k env cached
    | none => accept cfg k env remote

/-! ## The sink -/

/-- `deliver_sink`. -/
def deliverSink (cfg : Config) (sessionId targetAgent : String) (envelope : Envelope)
    (mid fromId : String) : Call SendReceipt := do
  let env := { envelope with
    sessionId := some sessionId, fromId := fromId, toId := targetAgent, msgId := mid }
  match (← Prog.op Op.mem).hostCache targetAgent with
  | some host => deliver cfg sessionId (.host host) { env with targetHost := some host.sshAlias }
  | none => deliver cfg sessionId (.agent targetAgent) env

/-- The host that `EngineDeliverySink.deliver` caches for an agent that the routing
table has at `hostAlias`. -/
def hostToCache (cfg : Config) (hostAlias : Option String) : Option HostSpec :=
  match hostAlias with
  | none => none
  | some a =>
    if a = "" || a = LOCAL_HOST_MARKER then none
    else
      match cfg.repoMap.hosts a with
      | some spec => if resolveIsLocal cfg.hostname spec then none else some spec
      | none => some { name := a, sshAlias := a, hostnames := [a] }

/-- `EngineDeliverySink.deliver`; `hostAlias` is that of the agent's location. -/
def sinkDeliver (cfg : Config) (hostAlias : Option String) (sessionId targetAgent : String)
    (envelope : Envelope) (mid fromId : String) : Call SendReceipt := do
  match hostToCache cfg hostAlias with
  | some host =>
    update (.cacheHost targetAgent host)
    deliverSink cfg sessionId targetAgent envelope mid fromId
  | none => deliverSink cfg sessionId targetAgent envelope mid fromId

/-- A roster that differs from the cached one makes the engine set the session up again. -/
def invalidateEnsured (sid : String) (roster : List String) :
    Option (ℕ × List String) → Call Unit
  | some (_, prev) => if prev = sortedSet roster then .ret () else update (.dropEnsured sid)
  | none => .ret ()

/-- `cache_roster`. -/
def cacheRoster (sid : String) (roster : List String) : Call Unit := do
  invalidateEnsured sid roster ((← Prog.op Op.mem).rosters sid)
  let t ← Prog.op Op.now
  update (.setRoster sid t (sortedSet roster))

/-! ## Failures -/

/-- The texts of `_is_terminal_error`. -/
def TERMINAL_MARKERS : List String :=
  ["not in roster", "not in channel", "lacks 'mailbox' capability", "different payload",
    "invalid kind", "body exceeds", "invalid attachment", "sender not in allowed_senders",
    "wire version mismatch"]

/-- `_is_terminal_error`. -/
def isTerminalError (text : String) : Bool :=
  Transport.isInfix "mailbox send failed (exit 2)" text ||
    TERMINAL_MARKERS.any (Transport.isInfix · text)

/-- The error says that the helper has another wire version. -/
def isMismatch (text : String) : Bool := Transport.isInfix "wire version mismatch" text

/-- The delay after the `n`-th attempt. -/
def backoff (n : ℕ) : ℕ := seconds (BACKOFF_BASE_S * 2 ^ (n - 1))

/-- The meta data after one more attempt, at the time `now`. -/
def RetryMeta.record (m : RetryMeta) (now : ℕ) (error : String) (terminal : Bool) : RetryMeta :=
  { m with
    attemptCount := m.attemptCount + 1
    firstAcceptedAt := some (m.firstAcceptedAt.getD (isoFormat now))
    lastAttemptAt := some (isoFormat now)
    lastError := some (cut 500 error)
    terminal := terminal
    nextAttemptAt :=
      if terminal then m.nextAttemptAt else some (now + backoff (m.attemptCount + 1)) }

/-- `meta.json` is written to a temporary file and renamed. -/
def replaceInfo (k : Key) (m : RetryMeta) : Call Unit := do
  file k .draftInfo
  file k (.putInfo m)

/-- What `meta.json` says. -/
def readInfo (k : Key) : Call RetryMeta := do return (← look k).info

/-- `_record_attempt`. -/
def recordAttempt (k : Key) (error : String) (terminal : Bool) : Call ℕ := do
  file k .mkStatus
  let m ← readInfo k
  let t ← Prog.op Op.now
  replaceInfo k (m.record t error terminal)
  return m.attemptCount + 1

/-- The status directory goes to the dead letter as well. -/
def moveStatus (k : Key) : Call Unit := do
  let e ← look k
  if e.status.isNone then return ()
  else if e.deadStatus.isSome && e.deadNested.isSome then .raise "Destination path already exists"
  else file k .buryStatus

/-- `_dead_letter`. -/
def deadLetter (k : Key) (reason : String) : Call Unit := do
  if (← look k).envelope.isNone then return ()
  else
    file k .bury
    moveStatus k
    file k (.putReason reason)

/-- The meta data of a paused entry. -/
def RetryMeta.paused (m : RetryMeta) (now : ℕ) (reason : String) : RetryMeta :=
  { m with
    pausedForUpgrade := true
    pauseReason := some (cut 300 reason)
    pausedAt := some (isoFormat now)
    nextReprobeAt := some (now + seconds REPROBE_INTERVAL_S)
    terminal := false }

/-- `_pause_for_upgrade`. -/
def pauseForUpgrade (k : Key) (reason : String) : Call Unit := do
  file k .mkStatus
  let m ← readInfo k
  let t ← Prog.op Op.now
  replaceInfo k (m.paused t reason)

/-- `_handle_flush_failure`. -/
def handleFlushFailure (k : Key) (text : String) : Call Unit := do
  if isTerminalError text && isMismatch text then pauseForUpgrade k text
  else
    let n ← recordAttempt k text (isTerminalError text)
    if isTerminalError text then deadLetter k (cut 300 ("terminal: " ++ text))
    else if MAX_ATTEMPTS ≤ n then
      deadLetter k (cut 300 ("max attempts (" ++ toString MAX_ATTEMPTS ++ ") exceeded: " ++ text))
    else return ()

/-! ## `flush` -/

/-- `_is_paused`. -/
def isPaused (k : Key) : Call Bool := do return (← readInfo k).pausedForUpgrade

/-- The meta data of an entry that is probed again. -/
def RetryMeta.reprobed (m : RetryMeta) : RetryMeta :=
  { m with
    pausedForUpgrade := false
    pauseReason := none
    pausedAt := none
    nextReprobeAt := none }

/-- A time has come. -/
def reached (deadline : Option ℕ) : Call Bool := do
  match deadline with
  | some t => return t ≤ (← Prog.op Op.now)
  | none => return true

/-- `_reprobe_paused`. -/
def reprobePaused (k : Key) : Call Unit := do
  let m ← readInfo k
  if !m.pausedForUpgrade then return ()
  else if ← reached m.nextReprobeAt then replaceInfo k m.reprobed
  else return ()

/-- `_attempt_due`. -/
def attemptDue (k : Key) : Call Bool := do
  let m ← readInfo k
  if m.terminal then return false else reached m.nextAttemptAt

/-- The loop goes on with a paused entry only if its probe is due. -/
def unpaused (k : Key) : Call Bool := do
  if ← isPaused k then
    reprobePaused k
    return !(← isPaused k)
  else return true

/-- The checks of the loop before the envelope is read. -/
def eligible (k : Key) : Call Bool := do
  let e ← look k
  if e.delivered.isSome || e.consumed then return false
  else if ← unpaused k then attemptDue k
  else return false

/-- The send of a retry, to the host that the stored alias stands for. -/
def resend (cfg : Config) (k : Key) (env : Envelope) (hostAlias : String) (target : HostSpec) :
    Call Unit :=
  if hostAlias = LOCAL_HOST_MARKER || resolveIsLocal cfg.hostname target then localSend k env
  else remoteSend cfg k target env

/-- A retry of an entry and what follows; whether it was delivered. -/
def retry (cfg : Config) (k : Key) (env : Envelope) (hostAlias : String) : Call Bool := do
  let target := resolveTarget cfg (← Prog.op Op.mem).hostCache hostAlias
  match ← attempt (resend cfg k env hostAlias target) with
  | .ok () =>
    markDelivered k
    Prog.op (Op.appendHistory k)
    let _ ← remember k.2 ⟨.delivered, k.2, "", false⟩
    return true
  | .error text =>
    Prog.op (Op.failed k text)
    handleFlushFailure k text
    return false

/-- The envelope of an entry and the host it goes to, if there are such. -/
def Entry.target? (e : Entry) : Option (Envelope × String) :=
  match e.envelope with
  | some (.json env) =>
    if env.targetHost.getD "" = "" then none else some (env, env.targetHost.getD "")
  | _ => none

/-- The body of the loop of `flush`. -/
def flushEntry (cfg : Config) (k : Key) : Call Bool := do
  if ← eligible k then
    match (← look k).target? with
    | some (env, hostAlias) => retry cfg k env hostAlias
    | none => return false
  else return false

/-- The loop over a session directory; how many entries were delivered. -/
def flushEntries (cfg : Config) (sid : String) : List String → Call ℕ
  | [] => .ret 0
  | mid :: mids => do
    let b ← flushEntry cfg (sid, mid)
    let n ← flushEntries cfg sid mids
    return (if b then 1 else 0) + n

/-- The loop over the sessions. -/
def flushSessions (cfg : Config) : List String → Call ℕ
  | [] => .ret 0
  | sid :: sids => do
    let n ← flushEntries cfg sid (← Prog.op (Op.glob sid .envelopes))
    let m ← flushSessions cfg sids
    return n + m

/-- `flush` after its sweep: one session, or all. -/
def retryAll (cfg : Config) (sessionId : Option String) : Call ℕ :=
  match sessionId.filter (· ≠ "") with
  | some sid => flushSessions cfg [sid]
  | none => do flushSessions cfg (← Prog.op Op.sessions)

/-! ## The sweep -/

/-- The time that counts for a status directory. -/
def StatusDir.age (d : StatusDir) : ℕ :=
  match d.info with
  | some f => max d.mtime f.mtime
  | none => d.mtime

/-- The files in a status directory. -/
def StatusDir.files (d : StatusDir) : List StatusFile :=
  (if d.phase.isSome then [.phase] else []) ++ (if d.kind.isSome then [.kind] else []) ++
    (if d.timestamp.isSome then [.timestamp] else []) ++ (if d.info.isSome then [.info] else [])

/-- `unlink` of each file. -/
def unlinkAll (k : Key) : List StatusFile → Call Unit
  | [] => .ret ()
  | f :: fs => do
    file k (.unlinkStatus f)
    unlinkAll k fs

/-- `shutil.rmtree` of a status directory. -/
def rmtree (k : Key) (d : StatusDir) : Call Unit := do
  unlinkAll k d.files
  file k .rmStatus

/-- The marker of an entry, and its envelope after it. -/
def sweepMarker (cutoff : ℤ) (k : Key) : Call ℕ := do
  match (← look k).delivered with
  | none => return 0
  | some mtime =>
    if cutoff ≤ mtime then return 0
    else
      file k .unmark
      if (← look k).envelope.isSome then
        file k .unlinkEnvelope
        return 2
      else return 1

/-- The status directory of an entry. -/
def sweepStatus (cutoff : ℤ) (k : Key) : Call ℕ := do
  match (← look k).status with
  | none => return 0
  | some d =>
    if (d.age : ℤ) < cutoff then
      rmtree k d
      return 1
    else return 0

/-- One of the two loops over a session directory. -/
def sweepEach (f : Key → Call ℕ) (sid : String) : List String → Call ℕ
  | [] => .ret 0
  | mid :: mids => do
    let n ← f (sid, mid)
    let m ← sweepEach f sid mids
    return n + m

/-- The loop over the session directories. -/
def sweepSessions (cutoff : ℤ) : List String → Call ℕ
  | [] => .ret 0
  | sid :: sids => do
    let n ← sweepEach (sweepMarker cutoff) sid (← Prog.op (Op.glob sid .markers))
    let m ← sweepEach (sweepStatus cutoff) sid (← Prog.op (Op.glob sid .statusDirs))
    let l ← sweepSessions cutoff sids
    return n + m + l

/-- `sweep` once the clock was read. -/
def sweepAt (retentionDays : ℤ) (now : ℕ) : Call ℕ := do
  sweepSessions (now - retentionDays * 86400 * second) (← Prog.op Op.sessions)

/-- `sweep`. -/
def sweep (retentionDays : ℤ) : Call ℕ := do sweepAt retentionDays (← Prog.op Op.now)

/-- `_sweep_ttl_lazy`. -/
def sweepTtlLazy : Call Unit := do
  let t ← Prog.op Op.now
  if t - (← Prog.op Op.mem).lastSweep < seconds SWEEP_INTERVAL_S then return ()
  else
    update (.setSwept t)
    let _ ← attempt (sweep RETENTION_DAYS)
    return ()

/-- `flush`. -/
def flush (cfg : Config) (sessionId : Option String) : Call ℕ := do
  sweepTtlLazy
  retryAll cfg sessionId

/-! ## The dead letter -/

/-- `dead_letter_requeue`. -/
def deadLetterRequeue (k : Key) : Call Bool := do
  if (← look k).dead.isNone then return false
  else
    file k .exhume
    file k .dropDeadStatus
    file k .dropReason
    file k .mkStatus
    let m ← readInfo k
    file k .openInfo
    file k (.putInfo { m with attemptCount := 0, terminal := false, nextAttemptAt := none })
    return true

/-! ## `ack` and `pending` -/

/-- `_validate_msg_id`. -/
def validMsgId (mid : String) : Bool :=
  mid ≠ "" && !Transport.isInfix "/" mid && !Transport.isInfix "\\" mid &&
    !Transport.isInfix ".." mid

/-- `ack`. -/
def ack (k : Key) (phase : String) : Call Unit := do
  if !validMsgId k.2 then .raise ("invalid msg_id: " ++ reprStr k.2)
  else if (← look k).envelope.isNone then .raise ("outbox entry not found: " ++ k.2)
  else
    writeStatus k "ack" phase
    if phase = "consumed" then update (.remember k.2 ⟨.delivered, k.2, "", false⟩)

/-- The envelope that `pending` lists for an entry. -/
def Entry.pending? (e : Entry) : Option Envelope :=
  match e.envelope, e.delivered with
  | some (.json env), none => some env
  | _, _ => none

end AiMeshChat.Swarm
