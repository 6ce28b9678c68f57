import AiMeshChat.Lib.Crash
import AiMeshChat.Lib.Table
import AiMeshChat.Session.Registry
import AiMeshChat.Transport.Ssh

/-!
# The outbox of the delivery engine

The files and the memory that `swarm/delivery.py` works on, and the operations it
performs on them. A message `mid` of a session `sid` has the envelope `<mid>.json`,
the marker `.delivered-<mid>` and the directory `.status-<mid>` under `_outbox/<sid>`,
and under `_dead_letter/<sid>` what was moved there. Only ids that end in `.json`
could mix up envelopes and markers; they are kept apart here.

The temporary file `.tmp-<mid>.json` is the envelope of the id `.tmp-<mid>`: its name
matches `*.json`, so a file that a crash left behind is an entry like any other.

Every operation happens at a time; the clock does not run backwards. What a transport
answers, and whether a file can be created, is up to the environment. The trace keeps
all operations in order.
-/

namespace AiMeshChat.Swarm

open Lib Session

/-! ## Receipts and envelopes -/

inductive ReceiptStatus
  | accepted
  | delivered
  | failed
  deriving DecidableEq

structure SendReceipt where
  status : ReceiptStatus
  msgId : String := ""
  error : String := ""
  queued : Bool := false
  deriving DecidableEq

/-- An envelope. The session and the target host are keys that may be missing; any
other missing key stands for the default that the readers take. -/
structure Envelope where
  sessionId : Option String := none
  msgId : String := ""
  fromId : String := ""
  toId : String := ""
  subject : String := ""
  body : String := ""
  kind : String := "TASK"
  replyTo : String := ""
  runId : String := ""
  requestId : String := ""
  traceId : String := ""
  causationId : String := ""
  receiptType : String := ""
  requireAck : Bool := false
  attachments : List Json := []
  targetHost : Option String := none
  deriving DecidableEq

/-- What a file `<mid>.json` holds: an envelope, or nothing that JSON could be. -/
inductive Content
  | torn
  | json (env : Envelope)
  deriving DecidableEq

/-! ## The files of a message -/

/-- The fields of `meta.json`, with the defaults of their readers. -/
structure RetryMeta where
  attemptCount : ℕ := 0
  firstAcceptedAt : Option String := none
  lastAttemptAt : Option String := none
  lastError : Option String := none
  terminal : Bool := false
  nextAttemptAt : Option ℕ := none
  pausedForUpgrade : Bool := false
  pauseReason : Option String := none
  pausedAt : Option String := none
  nextReprobeAt : Option ℕ := none
  deriving DecidableEq

/-- A file `meta.json`; `none` is one that cannot be read. -/
structure InfoFile where
  mtime : ℕ
  content : Option RetryMeta
  deriving DecidableEq

/-- The directory `.status-<mid>`. -/
structure StatusDir where
  mtime : ℕ
  phase : Option String := none
  kind : Option String := none
  timestamp : Option String := none
  info : Option InfoFile := none
  deriving DecidableEq

/-- The files of a message. `deadNested` is a `.status-<mid>` inside the one of the
dead letter. -/
structure Entry where
  envelope : Option Content := none
  delivered : Option ℕ := none
  status : Option StatusDir := none
  dead : Option Content := none
  deadStatus : Option StatusDir := none
  deadNested : Option StatusDir := none
  deadReason : Option String := none
  deriving DecidableEq

instance : Inhabited Entry := ⟨{}⟩

/-- The session and the id of a message. -/
abbrev Key := String × String

/-- The id under which the temporary file of a message is found. -/
def tmpKey (k : Key) : Key := (k.1, ".tmp-" ++ k.2)

/-- What the readers of `meta.json` see: nothing is set in a file that is missing or
cannot be read. -/
def Entry.info (e : Entry) : RetryMeta := ((e.status.bind (·.info)).bind (·.content)).getD {}

/-- The phase file says `consumed`. -/
def Entry.consumed (e : Entry) : Bool :=
  ((e.status.bind (·.phase)).map fun t => decide (strip t.toList = "consumed".toList)).getD false

/-- Some file of the message lies in the outbox. -/
def Entry.inOutbox (e : Entry) : Bool :=
  e.envelope.isSome || e.delivered.isSome || e.status.isSome

/-! ## One operation on the files -/

inductive StatusFile
  | phase
  | kind
  | timestamp
  | info
  deriving DecidableEq

inductive FileOp
  | openEnvelope
  | putEnvelope (env : Envelope)
  | unlinkEnvelope
  | mark
  | unmark
  | mkStatus
  | putPhase (text : String)
  | putKind (text : String)
  | putTimestamp (text : String)
  | draftInfo
  | openInfo
  | putInfo (m : RetryMeta)
  | unlinkStatus (file : StatusFile)
  | rmStatus
  | bury
  | buryStatus
  | putReason (text : String)
  | exhume
  | dropDeadStatus
  | dropReason
  deriving DecidableEq

/-- A status directory without one of its files. -/
def StatusDir.without (d : StatusDir) (now : ℕ) : StatusFile → StatusDir
  | .phase => { d with phase := none, mtime := now }
  | .kind => { d with kind := none, mtime := now }
  | .timestamp => { d with timestamp := none, mtime := now }
  | .info => { d with info := none, mtime := now }

/-- The time of a directory in which a file is written: a new file changes it. -/
def StatusDir.touched (d : StatusDir) (now : ℕ) (old : Option String) : ℕ :=
  if old.isNone then now else d.mtime

/-- A change of the status directory, if there is one. -/
def Entry.onStatus (e : Entry) (f : StatusDir → StatusDir) : Entry :=
  { e with status := e.status.map f }

/-- `os.replace` of the envelope, to the dead letter. -/
def Entry.bury (e : Entry) : Entry :=
  match e.envelope with
  | some c => { e with envelope := none, dead := some c }
  | none => e

/-- `os.replace` of the envelope, back from the dead letter. -/
def Entry.exhume (e : Entry) : Entry :=
  match e.dead with
  | some c => { e with dead := none, envelope := some c }
  | none => e

/-- `shutil.move` of the status directory: into a directory that is there already. -/
def Entry.buryStatus (e : Entry) : Entry :=
  match e.status with
  | some d =>
    if e.deadStatus.isNone then { e with status := none, deadStatus := some d }
    else { e with status := none, deadNested := some d }
  | none => e

def FileOp.apply (now : ℕ) (e : Entry) : FileOp → Entry
  | .openEnvelope => { e with envelope := some .torn }
  | .putEnvelope env => { e with envelope := some (.json env) }
  | .unlinkEnvelope => { e with envelope := none }
  | .mark => { e with delivered := some now }
  | .unmark => { e with delivered := none }
  | .mkStatus => { e with status := some (e.status.getD { mtime := now }) }
  | .putPhase t => e.onStatus fun d => { d with phase := some t, mtime := d.touched now d.phase }
  | .putKind t => e.onStatus fun d => { d with kind := some t, mtime := d.touched now d.kind }
  | .putTimestamp t =>
    e.onStatus fun d => { d with timestamp := some t, mtime := d.touched now d.timestamp }
  | .draftInfo => e.onStatus fun d => { d with mtime := now }
  | .openInfo => e.onStatus fun d => { d with info := some ⟨now, none⟩ }
  | .putInfo m => e.onStatus fun d => { d with info := some ⟨now, some m⟩, mtime := now }
  | .unlinkStatus f => e.onStatus fun d => d.without now f
  | .rmStatus => { e with status := none }
  | .bury => e.bury
  | .buryStatus => e.buryStatus
  | .putReason t => { e with deadReason := some t }
  | .exhume => e.exhume
  | .dropDeadStatus => { e with deadStatus := none, deadNested := none }
  | .dropReason => { e with deadReason := none }

/-! ## The memory of an engine -/

/-- The caches of a `DeliveryEngine`, empty when a process starts. -/
structure Memory where
  cache : String → Option SendReceipt := fun _ => none
  hostCache : String → Option HostSpec := fun _ => none
  ensured : String × String → Option ℕ := fun _ => none
  rosters : String → Option (ℕ × List String) := fun _ => none
  capabilities : String → Option (List String) := fun _ => none
  lastSweep : ℕ := 0

inductive Update
  | remember (mid : String) (r : SendReceipt)
  | cacheHost (agent : String) (host : HostSpec)
  | setRoster (sid : String) (time : ℕ) (roster : List String)
  | setEnsured (key : String × String) (time : ℕ)
  | dropEnsured (sid : String)
  | setCapabilities (sshAlias : String) (caps : List String)
  | setSwept (time : ℕ)
  deriving DecidableEq

def Update.apply (m : Memory) : Update → Memory
  | .remember mid r => { m with cache := Function.update m.cache mid (some r) }
  | .cacheHost a h => { m with hostCache := Function.update m.hostCache a (some h) }
  | .setRoster sid t l => { m with rosters := Function.update m.rosters sid (some (t, l)) }
  | .setEnsured key t => { m with ensured := Function.update m.ensured key (some t) }
  | .dropEnsured sid => { m with ensured := fun key => if key.1 = sid then none else m.ensured key }
  | .setCapabilities a caps =>
    { m with capabilities := Function.update m.capabilities a (some caps) }
  | .setSwept t => { m with lastSweep := t }

/-! ## The operations -/

/-- What `session.json` says of a session. -/
structure SessionMeta where
  manager : String
  agents : List String
  acl : Option Json := none
  deriving DecidableEq

/-- Exit code, stdout and stderr of a mailbox command. -/
structure Answer where
  code : ℤ
  out : String
  err : String
  deriving DecidableEq

/-- The patterns with which a session directory is listed. -/
inductive Glob
  | envelopes
  | markers
  | statusDirs
  deriving DecidableEq

def Glob.matches : Glob → Entry → Bool
  | .envelopes, e => e.envelope.isSome
  | .markers, e => e.delivered.isSome
  | .statusDirs, e => e.status.isSome

/-- The operations of the engine. Where one is made for a message, it carries its key. -/
inductive Op
  | now
  | mem
  | upd (u : Update)
  | sessions
  | glob (sid : String) (g : Glob)
  | look (k : Key)
  | file (k : Key) (f : FileOp)
  | openTmp (k : Key)
  | publish (k : Key)
  | readSession (sid : String)
  | getTransport (k : Key) (host : HostSpec)
  | getCapabilities (k : Key) (host : HostSpec)
  | mailbox (k : Key) (host : HostSpec) (args : List String)
  | localMailbox (k : Key) (args : List String)
  | appendHistory (k : Key)
  | failed (k : Key) (text : String)
  deriving DecidableEq

abbrev Ans : Op → Type
  | .now => ℕ
  | .mem => Memory
  | .sessions => List String
  | .glob _ _ => List String
  | .look _ => Entry
  | .openTmp _ => Except String Unit
  | .readSession _ => Option SessionMeta
  | .getTransport _ _ => Except String Unit
  | .getCapabilities _ _ => Except String (List String)
  | .mailbox _ _ _ => Except String Answer
  | .localMailbox _ _ => Except String Answer
  | .upd _ => Unit
  | .file _ _ => Unit
  | .publish _ => Unit
  | .appendHistory _ => Unit
  | .failed _ _ => Unit

/-- What the environment makes of an operation. -/
structure Choice where
  delay : ℕ := 0
  fault : Option String := none
  transport : Except String Unit := .ok ()
  capabilities : Except String (List String) := .ok ["mailbox"]
  reply : Except String Answer := .ok ⟨0, "", ""⟩

/-- The operations so far and when each took place. -/
abbrev Trace := List (ℕ × Op)

/-- The disk, the engine's memory, the sessions of this host, the time and the trace. -/
structure Site where
  clock : ℕ := 0
  entries : Table Key Entry := .empty
  mem : Memory := {}
  sessions : String → Option SessionMeta := fun _ => none
  trace : Trace := []

namespace Site

variable (s : Site)

def entry (k : Key) : Entry := s.entries.get k

/-- The session directories under `_outbox`. -/
def sessionDirs : List String :=
  (((s.entries.keysWith Entry.inOutbox).map Prod.fst).filter fun sid =>
    sid ≠ "" && !startsWith "." sid).dedup.insertionSort (· ≤ ·)

/-- The ids that a listing of a session directory finds. -/
def ids (sid : String) (g : Glob) : List String :=
  (((s.entries.keysWith g.matches).filter fun k => k.1 = sid).map Prod.snd).insertionSort (· ≤ ·)

/-- The site at the next operation. -/
def tick (o : Op) (c : Choice) : Site :=
  { s with clock := s.clock + c.delay, trace := s.trace ++ [(s.clock + c.delay, o)] }

def setEntry (k : Key) (e : Entry) : Site := { s with entries := s.entries.set k e }

/-- `os.replace` of the temporary file. -/
def publish (k : Key) : Site :=
  let e := s.entry (tmpKey k)
  let t := s.setEntry (tmpKey k) { e with envelope := none }
  t.setEntry k { t.entry k with envelope := e.envelope }

/-- The answer to an operation; `s` is the site at that time. -/
def answer (c : Choice) : (o : Op) → Ans o
  | .now => s.clock
  | .mem => s.mem
  | .sessions => s.sessionDirs
  | .glob sid g => s.ids sid g
  | .look k => s.entry k
  | .openTmp _ => match c.fault with | none => .ok () | some text => .error text
  | .readSession sid => s.sessions sid
  | .getTransport _ _ => c.transport
  | .getCapabilities _ _ => c.capabilities
  | .mailbox _ _ _ => c.reply
  | .localMailbox _ _ => c.reply
  | .upd _ => ()
  | .file _ _ => ()
  | .publish _ => ()
  | .appendHistory _ => ()
  | .failed _ _ => ()

/-- What an operation changes. -/
def effect (c : Choice) : Op → Site
  | .upd u => { s with mem := u.apply s.mem }
  | .file k f => s.setEntry k (f.apply s.clock (s.entry k))
  | .openTmp k =>
    match c.fault with
    | none => s.setEntry (tmpKey k) (FileOp.openEnvelope.apply s.clock (s.entry (tmpKey k)))
    | some _ => s
  | .publish k => s.publish k
  | _ => s

end Site

/-- One engine at work; it never waits. -/
def world : World Op Ans Site Choice where
  perform _ o c s := some ((s.tick o c).answer c o, (s.tick o c).effect c o)
  crash _ s := s

/-- A method of the engine; an exception is known by its text. -/
abbrev Call := Prog Op Ans String

end AiMeshChat.Swarm
