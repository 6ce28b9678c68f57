import AiMeshChat.Mailbox.Store

/-!
# `MailboxStore`: reading, claims and leases

`mailbox/store.py`, the consuming half. `read` moves a message from `inbox` to
`processing` under a claim file of its owner, `finalize` moves it on to
`archive`, `release` back to `inbox`. A claim is a lease: `renew_claim` extends
it, and both `recover_stale` and `read` itself take back a message whose claim
is older than `LEASE_TIMEOUT_S`, less a tolerance for clock skew.

The three functions that judge a lease hold a lock on the claim meanwhile. The
lock file of `_claim_lock` is opened without fail here; its own directory entry
is not modelled, since no listing matches it.

A pass of the loop of `read` is a function of its own, `readPass`; the loop is
`readLoop`, with a bound on the number of passes.
-/

namespace AiMeshChat.Mailbox

open Lib

/-! ## Listings -/

/-- The `stat` of every listed file; one that has vanished is skipped. -/
def statAll (d : Dir) : List String → Call (List (String × ℕ))
  | [] => .ret []
  | name :: rest => do
    let st ← stat ⟨d, name⟩
    let found ← statAll d rest
    match st with
    | .ok (mtime, _) => return (name, mtime) :: found
    | .error _ => return found

/-- A file name that `list_messages` reports. -/
def isMessageName (name : String) : Bool :=
  endsWith ".json" name && !startsWith ".sync-conflict-" name && !startsWith ".tmp-" name

/-- `list_messages`: the messages of an inbox, oldest first. -/
def listMessages (inbox : Dir) : Call (List String) := do
  if ← isDir inbox then
    let names ← scan inbox
    let found ← statAll inbox (names.filter isMessageName)
    return (found.insertionSort fun a b => a.2 ≤ b.2).map Prod.fst
  else return []

/-- A name that the pattern `pre*suf` matches. -/
def globMatch (pre suf name : String) : Bool :=
  startsWith pre name && endsWith suf name && pre.length + suf.length ≤ name.length

/-- `sorted(d.glob(pre + "*" + suf))`. -/
def sortedGlob (d : Dir) (pre suf : String) : Call (List String) := do
  let names ← scan d
  return (names.filter (globMatch pre suf)).insertionSort (· ≤ ·)

/-! ## Claims -/

/-- What names a claim and its lock: message and owner, joined by a dash. -/
def claimKey (msgId owner : String) : String := msgId ++ "-" ++ owner

def claimName (key : String) : String := ".claim-" ++ key ++ ".json"
def claimLockName (key : String) : String := ".claimlock-" ++ key ++ ".lock"
def tmpClaimName (key : String) (nonce : ℕ) : String :=
  ".tmp-claim-" ++ key ++ "-" ++ toString nonce ++ ".json"
def tmpRenewName (key : String) : String := ".tmp-renew-" ++ key ++ ".json"

/-- `_claim_lock`: run `body` under the lock of the claim. -/
def withClaimLock {α : Type} (processing : Dir) (key : String) (body : Call α) : Call α := do
  lock ⟨processing, claimLockName key⟩
  Prog.ensure body (unlock ⟨processing, claimLockName key⟩)

/-- The content of a new claim. -/
def claimMeta (msgId owner : String) (now : ℕ) : Json :=
  .obj [("owner", .str owner), ("claimed_at", .str (isoFormat now)), ("msg_id", .str msgId)]

/-- `datetime.fromisoformat(claim.get("claimed_at", "")).timestamp()`, or `none`
where that raises. -/
def claimTime (claim : Json) : Option ℤ :=
  ((claim.get? "claimed_at").bind Json.str?).bind fromIsoFormat

/-- `claim.get("owner", "")` in a format string. -/
def claimOwner (claim : Json) : String := ((claim.get? "owner").map strOf).getD ""

/-- The message a claim is on: its `msg_id`, else what is left of the file name
without the prefix and the owner. -/
def claimMsgId (claim : Json) (name : String) : String :=
  match claim.get? "msg_id" with
  | some v => if v.truthy then strOf v else fallback
  | none => fallback
where
  fallback : String :=
    let suffix := if ((claim.get? "owner").map Json.truthy).getD false
      then "-" ++ claimOwner claim else ""
    if startsWith ".claim-" (stem name) && suffix ≠ "" && endsWith suffix (stem name) then
      String.ofList (((stem name).toList.drop 7).take
        ((stem name).length - 7 - suffix.length))
    else stem name

/-- The time before which a claim has run out. -/
def leaseCutoff (now : ℕ) : ℤ := now - LEASE_TIMEOUT_S * second + LEASE_CLOCK_TOLERANCE_S * second

/-- Read a claim; `none` when it is unreadable. -/
def loadClaim (p : MPath) : Call (Option Json) := do
  match ← readBytes p with
  | .ok (.json j) => if j.isDict then return some j else throw .attribute
  | _ => return none

/-- The claim's time under the lock; an unreadable claim keeps the time it was
first seen with. -/
def currentTime (p : MPath) (claimedTs : ℤ) : Call ℤ := do
  match ← loadClaim p with
  | some cur => return (claimTime cur).getD claimedTs
  | none => return claimedTs

/-- Move a message back to the inbox because the claim `claimFile` is older than
`cutoff`, if it is still in `processing`. -/
def moveBack (inbox processing : Dir) (claimFile : MPath) (msgId : String) (cutoff : ℤ) :
    Call Unit := do
  if ← fileExists ⟨processing, jsonName msgId⟩ then
    replace ⟨processing, jsonName msgId⟩ ⟨inbox, jsonName msgId⟩ (some ⟨claimFile, cutoff⟩)
  else return ()

/-- The part of `_reap_expired_claim` under the lock. -/
def reapLocked (inbox processing : Dir) (claimFile : MPath) (msgId : String)
    (claimedTs cutoff : ℤ) : Call Bool := do
  let curTs ← currentTime claimFile claimedTs
  if cutoff ≤ curTs then return false
  else do
    moveBack inbox processing claimFile msgId cutoff
    unlinkMissingOk claimFile
    return true

/-- `_reap_expired_claim`. -/
def reapExpiredClaim (inbox processing : Dir) (claimFile : MPath) : Call Bool := do
  let now ← clock
  let cutoff := leaseCutoff now
  match ← loadClaim claimFile with
  | none => return false
  | some claim =>
    match claimTime claim with
    | none => return false
    | some claimedTs =>
      if cutoff ≤ claimedTs then return false
      else
        let msgId := claimMsgId claim claimFile.name
        withClaimLock processing (claimKey msgId (claimOwner claim))
          (reapLocked inbox processing claimFile msgId claimedTs cutoff)

/-! ## `read` -/

/-- The arguments of `read`. -/
structure ReadArgs where
  sessionId : String
  agentId : String
  owner : String
  skipMsgIds : List String := []
  targetMsgId : Option String := none

/-- The file `read` goes for: the given one, else the oldest that is neither
skipped nor contested. -/
def pickTarget (a : ReadArgs) (contested files : List String) : Option String :=
  match a.targetMsgId with
  | some t =>
    if t ≠ "" then files.find? (fun f => stem f = t)
    else files.find? (fun f => stem f ∉ a.skipMsgIds && stem f ∉ contested)
  | none => files.find? (fun f => stem f ∉ a.skipMsgIds && stem f ∉ contested)

/-- How publishing a claim ends. -/
inductive Grab
  | mine
  | retry
  | contested
  deriving DecidableEq

/-- Somebody else's claim is in the way: reap it if its lease has run out. -/
def blocked (inbox processing : Dir) (claimFile : MPath) : Call Grab := do
  if ← reapExpiredClaim inbox processing claimFile then return .retry else return .contested

/-- Publish the claim without overwriting another: by a hard link to a complete
copy, or, where there are no hard links, by an exclusive create. -/
def publishClaim (inbox processing : Dir) (claimFile tmpClaim : MPath) (claim : Json) :
    Call Grab := do
  match ← tryWriteNew tmpClaim (.json claim) with
  | .error .exists => do
    unlinkMissingOk tmpClaim
    return .retry
  | .error e => throw (.os e)
  | .ok () =>
    match ← tryLink tmpClaim claimFile with
    | .ok () => return .mine
    | .error .exists => do
      unlinkMissingOk tmpClaim
      blocked inbox processing claimFile
    | .error _ => do
      unlinkMissingOk tmpClaim
      match ← tryWriteNew claimFile (.json claim) with
      | .ok () => return .mine
      | .error .exists => do
        unlinkMissingOk tmpClaim
        blocked inbox processing claimFile
      | .error e => throw (.os e)

/-- How a pass of the loop ends: the call returns, or it looks again. -/
inductive Pass
  | done (msg : Option Json)
  | again (contested : List String)

/-- Move an invalid file out of the way. -/
def quarantine (a : ReadArgs) (name : String) : Call Unit := do
  mkdir (.box a.sessionId a.agentId .corrupt)
  replace ⟨.box a.sessionId a.agentId .inbox, name⟩ ⟨.box a.sessionId a.agentId .corrupt, name⟩

/-- Claim the message `msg` in the file `name` and move it to `processing`. -/
def claimTarget (a : ReadArgs) (contested : List String) (name : String) (msg : Json) :
    Call Pass := do
  let inbox := Dir.box a.sessionId a.agentId .inbox
  let processing := Dir.box a.sessionId a.agentId .processing
  mkdir processing
  let nonce ← random
  let now ← clock
  let key := claimKey (stem name) a.owner
  let claimFile : MPath := ⟨processing, claimName key⟩
  let tmpClaim : MPath := ⟨processing, tmpClaimName key (1000 + nonce % 9000)⟩
  match ← publishClaim inbox processing claimFile tmpClaim (claimMeta (stem name) a.owner now) with
  | .retry => return .again contested
  | .contested => return .again (stem name :: contested)
  | .mine =>
    match ← tryReplace ⟨inbox, name⟩ ⟨processing, name⟩ with
    | .error _ => do
      unlinkMissingOk tmpClaim
      unlinkMissingOk claimFile
      return .again contested
    | .ok () => do
      unlinkMissingOk tmpClaim
      return .done (some msg)

/-- A list or a dict, which no set can hold. -/
def unhashable : Json → Bool
  | .arr _ | .obj _ => true
  | _ => false

/-- The strings of `{meta.get("manager", "")} | set(meta.get("agents", []))`, or
`none` where building the set raises `TypeError`. -/
def rosterSet (info : Json) : Option (List String) :=
  let manager := (info.get? "manager").getD (.str "")
  if unhashable manager then none
  else match info.get? "agents" with
    | none => some manager.str?.toList
    | some (.arr as) =>
      if as.any unhashable then none else some (manager.str?.toList ++ as.filterMap Json.str?)
    | some (.str text) => some (manager.str?.toList ++ text.toList.map String.singleton)
    | some (.obj fields) => some (manager.str?.toList ++ fields.map Prod.fst)
    | some _ => none

/-- The sender of a message must be in the roster. -/
def fromRoster (sid : String) (msg : Json) : Call Bool := do
  match ← readSession sid with
  | none => return false
  | some info =>
    if !info.truthy then return false
    else if !info.isDict then throw .attribute
    else match rosterSet info with
      | none => throw (.type "unhashable type")
      | some roster => return textOf msg "from" ∈ roster

/-- The checks of a message that was read from the file `name`. -/
def examine (a : ReadArgs) (contested : List String) (name : String) (msg : Json) :
    Call Pass := do
  match validateMessage msg (some a.sessionId) (some a.agentId) (some name) with
  | .error (.typeError why) => throw (.type why)
  | .error (.reject _) => do
    quarantine a name
    return .again contested
  | .ok () =>
    if ← fromRoster a.sessionId msg then claimTarget a contested name msg
    else do
      quarantine a name
      return .again contested

/-- One pass of the loop of `read`. -/
def readPass (a : ReadArgs) (contested : List String) : Call Pass := do
  let inbox := Dir.box a.sessionId a.agentId .inbox
  match pickTarget a contested (← listMessages inbox) with
  | none => return .done none
  | some name =>
    match ← readBytes ⟨inbox, name⟩ with
    | .error .notFound => return .again contested
    | .error e => throw (.os e)
    | .ok .junk => do
      mkdir (.box a.sessionId a.agentId .corrupt)
      let _ ← tryReplace ⟨inbox, name⟩ ⟨.box a.sessionId a.agentId .corrupt, name⟩
      return .again contested
    | .ok (.json msg) => examine a contested name msg

/-- The loop of `read`. -/
def readLoop (a : ReadArgs) : ℕ → List String → Call (Option Json)
  | 0, _ => .hang
  | fuel + 1, contested => do
    match ← readPass a contested with
    | .done r => return r
    | .again c => readLoop a fuel c

/-- `MailboxStore.read`. -/
def read (fuel : ℕ) (a : ReadArgs) : Call (Option Json) := do
  let _ ← agentSubdir a.sessionId a.agentId .inbox
  readLoop a fuel []

/-! ## `finalize` and `release` -/

/-- `MailboxStore.finalize`. -/
def finalize (sid agent msgId owner : String) : Call String := do
  validateMsgId msgId
  let processing ← agentSubdir sid agent .processing
  let archive ← agentSubdir sid agent .archive
  let target : MPath := ⟨processing, jsonName msgId⟩
  match ← sortedGlob processing (".claim-" ++ msgId ++ "-") ".json" with
  | [] => throw (.value ("no claim file for " ++ msgId))
  | [claimFile] =>
    if ← fileExists target then
      let claim ← loadJson ⟨processing, claimFile⟩
      if !claim.isDict then throw .attribute
      else if claim.get? "owner" = some (.str owner) then
        mkdir archive
        replace target ⟨archive, jsonName msgId⟩
        unlinkMissingOk ⟨processing, claimFile⟩
        return "finalized → archive/" ++ jsonName msgId
      else throw (.value ("owner mismatch: claim=" ++ ((claim.get? "owner").map strOf).getD "None" ++
        " vs " ++ owner))
    else throw (.value ("msg not in processing/: " ++ msgId))
  | _ => throw (.value ("multiple claim files for " ++ msgId))

/-- Whether one of the claims is somebody else's; unreadable ones count so. -/
def anyForeign (processing : Dir) (owner : String) : List String → Call Bool
  | [] => .ret false
  | c :: rest => do
    let cowner ← (do
      match ← readBytes ⟨processing, c⟩ with
      | .ok (.json j) =>
        if j.isDict then return (j.get? "owner").getD (.str "") else throw .attribute
      | _ => return .str "")
    let more ← anyForeign processing owner rest
    return decide (cowner ≠ Json.str owner) || more

/-- `MailboxStore.finalize_from_inbox`: archive a message without a claim. -/
def finalizeFromInbox (sid agent msgId owner : String) : Call String := do
  validateMsgId msgId
  let inbox ← agentSubdir sid agent .inbox
  let processing ← agentSubdir sid agent .processing
  let archive ← agentSubdir sid agent .archive
  let archiveFrom (src : Dir) : Call String := do
    mkdir archive
    replace ⟨src, jsonName msgId⟩ ⟨archive, jsonName msgId⟩
    return "finalized → archive/" ++ jsonName msgId
  if ← fileExists ⟨inbox, jsonName msgId⟩ then
    -- the second existence check of the source looks at the same file again
    if ← fileExists ⟨inbox, jsonName msgId⟩ then archiveFrom inbox
    else throw (.value ("msg not in inbox/ or processing/: " ++ msgId))
  else if ← fileExists ⟨processing, jsonName msgId⟩ then
    let claims ← sortedGlob processing (".claim-" ++ msgId ++ "-") ".json"
    if ← anyForeign processing owner claims then
      throw (.value ("msg " ++ msgId ++ " has an active foreign claim; use finalize() instead"))
    else archiveFrom processing
  else throw (.value ("msg not in inbox/ or processing/: " ++ msgId))

/-- The owner check of `release`, for a claim that is there. -/
def checkRelease (claimFile : MPath) (owner : String) : Call Unit := do
  if ← fileExists claimFile then
    let claim ← loadJson claimFile
    require claim.isDict .attribute
    require (claim.get? "owner" = some (.str owner)) (.value ("owner mismatch on release: claim=" ++
      ((claim.get? "owner").map strOf).getD "None" ++ " vs " ++ owner))
  else return ()

/-- `MailboxStore.release`. -/
def release (sid agent msgId owner : String) : Call String := do
  validateMsgId msgId
  let inbox ← agentSubdir sid agent .inbox
  let processing ← agentSubdir sid agent .processing
  let target : MPath := ⟨processing, jsonName msgId⟩
  let claimFiles ← sortedGlob processing (".claim-" ++ msgId ++ "-") ".json"
  require (← fileExists target) (.value ("msg not found in processing/: " ++ msgId))
  match claimFiles with
  | [] => do
    replace target ⟨inbox, jsonName msgId⟩
    return "released → inbox/" ++ jsonName msgId
  | [claimFile] => do
    checkRelease ⟨processing, claimFile⟩ owner
    replace target ⟨inbox, jsonName msgId⟩
    unlinkMissingOk ⟨processing, claimFile⟩
    return "released → inbox/" ++ jsonName msgId
  | _ => throw (.value ("multiple claim files for " ++ msgId))

/-! ## Leases -/

/-- Write the renewed claim over the old one; an `OSError` gives `False`. -/
def rewriteClaim (processing : Dir) (key claimFile : String) (claim : Json) : Call Bool := do
  let tmp : MPath := ⟨processing, tmpRenewName key⟩
  match ← tryWrite tmp (.json claim) with
  | .error _ => do
    unlinkMissingOk tmp
    return false
  | .ok () =>
    match ← tryReplace tmp ⟨processing, claimFile⟩ with
    | .error _ => do
      unlinkMissingOk tmp
      return false
    | .ok () => return true

/-- The part of `renew_claim` under the lock. -/
def renewLocked (processing : Dir) (msgId owner : String) : Call Bool := do
  let target : MPath := ⟨processing, jsonName msgId⟩
  if ← fileExists target then
    match ← sortedGlob processing (".claim-" ++ msgId ++ "-") ".json" with
    | [claimFile] =>
      match ← loadClaim ⟨processing, claimFile⟩ with
      | none => return false
      | some claim =>
        if claim.get? "owner" = some (.str owner) then
          let now ← clock
          let renewed := (claim.set "claimed_at" (.str (isoFormat now))).set "renewed_at"
            (.str (isoFormat now))
          if ← rewriteClaim processing (claimKey msgId owner) claimFile renewed then
            -- the message may have left `processing` meanwhile
            if ← fileExists target then return true
            else do
              unlinkMissingOk ⟨processing, claimFile⟩
              return false
          else return false
        else return false
    | _ => return false
  else return false

/-- `MailboxStore.renew_claim`. -/
def renewClaim (sid agent msgId owner : String) : Call Bool := do
  validateMsgId msgId
  let processing ← agentSubdir sid agent .processing
  if ← fileExists ⟨processing, jsonName msgId⟩ then
    match ← sortedGlob processing (".claim-" ++ msgId ++ "-") ".json" with
    | [_] => withClaimLock processing (claimKey msgId owner) (renewLocked processing msgId owner)
    | _ => return false
  else return false

/-- The part of `recover_stale` under the lock of one claim; whether a message
was moved. -/
def recoverLocked (inbox processing : Dir) (cf : MPath) (msgId : String)
    (claimedTs cutoff orphanAgeGate : ℤ) : Call Bool := do
  let msgFile : MPath := ⟨processing, jsonName msgId⟩
  let curTs ← currentTime cf claimedTs
  if ← fileExists msgFile then
    if cutoff ≤ curTs then return false
    else do
      replace msgFile ⟨inbox, jsonName msgId⟩ (some ⟨cf, cutoff⟩)
      unlink cf
      return true
  else if orphanAgeGate ≤ curTs then return false
  else do
    unlink cf
    return false

/-- The body of the loop of `recover_stale` over the claims. -/
def recoverClaim (inbox processing : Dir) (cutoff orphanAgeGate : ℤ) (cf : MPath) : Call Bool := do
  match ← loadClaim cf with
  | none => return false
  | some claim =>
    match claimTime claim with
    | none => return false
    | some claimedTs =>
      let msgId := claimMsgId claim cf.name
      withClaimLock processing (claimKey msgId (claimOwner claim))
        (recoverLocked inbox processing cf msgId claimedTs cutoff orphanAgeGate)

/-- `except (JSONDecodeError, UnicodeDecodeError, ValueError, TypeError, OSError):
pass`. -/
def passErrors (p : Call Bool) : Call Bool :=
  p.tryCatch fun
    | .attribute => .raise .attribute
    | _ => .ret false

/-- The loop over the claims; the number of messages moved. -/
def recoverClaims (inbox processing : Dir) (cutoff orphanAgeGate : ℤ) : List String → Call ℕ
  | [] => .ret 0
  | name :: rest => do
    let moved ← passErrors (recoverClaim inbox processing cutoff orphanAgeGate ⟨processing, name⟩)
    let n ← recoverClaims inbox processing cutoff orphanAgeGate rest
    return n + moved.toNat

/-- Remove temporary claims that no live handshake can be using. -/
def sweepTmpClaims (processing : Dir) (orphanAgeGate : ℤ) : List String → Call Unit
  | [] => .ret ()
  | name :: rest => do
    match ← stat ⟨processing, name⟩ with
    | .ok (mtime, _) =>
      if (mtime : ℤ) < orphanAgeGate then
        let _ ← tryUnlink ⟨processing, name⟩
        sweepTmpClaims processing orphanAgeGate rest
      else sweepTmpClaims processing orphanAgeGate rest
    | .error _ => sweepTmpClaims processing orphanAgeGate rest

/-- `MailboxStore.recover_stale`. -/
def recoverStale (sid agent : String) : Call String := do
  let processing ← agentSubdir sid agent .processing
  let inbox ← agentSubdir sid agent .inbox
  if ← isDir processing then
    let cutoff := leaseCutoff (← clock)
    let orphanAgeGate : ℤ := (← clock) - 30 * second
    let claims ← sortedGlob processing ".claim-" ".json"
    let n ← recoverClaims inbox processing cutoff orphanAgeGate claims
    let tmps ← sortedGlob processing ".tmp-claim-" ".json"
    sweepTmpClaims processing orphanAgeGate tmps
    return "recovered " ++ toString n ++ " stale claim(s)"
  else return "no processing/ directory"

/-! ## One call of the store -/

/-- A call of the store with its arguments. -/
inductive Request
  | send (a : SendArgs)
  | read (a : ReadArgs)
  | finalize (sid agent msgId owner : String)
  | finalizeFromInbox (sid agent msgId owner : String)
  | release (sid agent msgId owner : String)
  | renewClaim (sid agent msgId owner : String)
  | recoverStale (sid agent : String)

/-- What a call returns. -/
inductive Result
  | text (s : String)
  | message (m : Option Json)
  | flag (b : Bool)
  | idle

/-- The call as a program; `fuel` bounds its loops. -/
def Request.call (fuel : ℕ) : Request → Call Result
  | .send a => do return .text (← Mailbox.send fuel a)
  | .read a => do return .message (← Mailbox.read fuel a)
  | .finalize sid agent m o => do return .text (← Mailbox.finalize sid agent m o)
  | .finalizeFromInbox sid agent m o => do return .text (← Mailbox.finalizeFromInbox sid agent m o)
  | .release sid agent m o => do return .text (← Mailbox.release sid agent m o)
  | .renewClaim sid agent m o => do return .flag (← Mailbox.renewClaim sid agent m o)
  | .recoverStale sid agent => do return .text (← Mailbox.recoverStale sid agent)

/-- Process `i` makes the call `reqs i`, or none. -/
def pool (fuel : ℕ) (s : Disk) (reqs : ℕ → Option Request) : Pool Op Ans Disk PyErr Result :=
  ⟨s, fun i => match reqs i with
    | some r => r.call fuel
    | none => .ret .idle⟩

/-! ### A small session

Manager `a` and one agent `b`, for runs on fixed inputs. -/

/-- A message from `a` to `b` with the identifier `m`. -/
def notice : SendArgs where
  sessionId := "s"
  fromId := "a"
  toId := "b"
  subject := "x"
  body := "y"
  kind := "NOTICE"
  msgId := some "m"

/-- `n` steps of process `i`, with the environment's choice `c` at each. -/
def steps (i n : ℕ) (c : Choice := {}) : List (Event Choice) := List.replicate n (.tick i c)

end AiMeshChat.Mailbox
