import AiMeshChat.Mailbox.Reader

/-!
# At-most-once delivery

Any number of `send`, `read` and `finalize` calls run interleaved, one file
operation at a time. The message `m` of an agent should be in at most one of
`inbox`, `processing` and `archive`, and be returned by at most one `read`.

`send` breaks both: it renames the envelope into the inbox once before and once
after it advances the cursor, and the second rename does not ask whether a reader
has taken the first copy (`restamp_redelivers`). Where every such rename finds
the message neither in `processing` nor in `archive` (`PublishesFresh`), both
hold along every run (`delivered_at_most_once`).

The role of a call is one bit, whether it has taken `m` out of the inbox; the
invariant is that a taken message stays taken and has one taker.
-/

namespace AiMeshChat.Mailbox

open Lib

namespace Delivery

/-! ## Three places of a message -/

def inboxFile (sid agent m : String) : MPath := ⟨.box sid agent .inbox, jsonName m⟩
def processingFile (sid agent m : String) : MPath := ⟨.box sid agent .processing, jsonName m⟩
def archiveFile (sid agent m : String) : MPath := ⟨.box sid agent .archive, jsonName m⟩

/-- Whether there is a file at the path. -/
def has (s : Disk) (p : MPath) : Bool := (s.files.get? p).isSome

/-- In which of the three places a message is. -/
structure Places where
  inbox : Bool
  processing : Bool
  archive : Bool
  deriving DecidableEq

/-- The message is in at most one of the three. -/
def Places.Single (x : Places) : Prop :=
  ¬ (x.inbox ∧ x.processing) ∧ ¬ (x.inbox ∧ x.archive) ∧ ¬ (x.processing ∧ x.archive)

instance (x : Places) : Decidable x.Single := by unfold Places.Single; infer_instance

/-- The places of the message on disk. -/
def places (sid agent m : String) (s : Disk) : Places :=
  ⟨has s (inboxFile sid agent m), has s (processingFile sid agent m),
    has s (archiveFile sid agent m)⟩

/-- What can happen to a message: a send publishes it, a reader claims it, its
owner archives it, it goes back to the inbox, or it is quarantined. -/
inductive Move
  | publish
  | claim
  | archive
  | back (l : Option Lease)
  | quarantine

/-- The rename that makes the move. -/
def Move.op (sid agent m : String) : Move → Op
  | publish => .replace ⟨.box sid agent .inbox, tmpName m⟩ (inboxFile sid agent m) none
  | claim => .replace (inboxFile sid agent m) (processingFile sid agent m) none
  | archive => .replace (processingFile sid agent m) (archiveFile sid agent m) none
  | back l => .replace (processingFile sid agent m) (inboxFile sid agent m) l
  | quarantine => .replace (inboxFile sid agent m) ⟨.box sid agent .corrupt, jsonName m⟩ none

/-- Where the message has to be for the move. -/
def Move.ready : Move → Places → Bool
  | publish, _ => true
  | claim, x => x.inbox
  | archive, x => x.processing
  | back _, x => x.processing
  | quarantine, x => x.inbox

/-- Where the message is after the move. -/
def Move.apply : Move → Places → Places
  | publish, x => { x with inbox := true }
  | claim, x => { x with inbox := false, processing := true }
  | archive, x => { x with processing := false, archive := true }
  | back _, x => { x with processing := false, inbox := true }
  | quarantine, x => { x with inbox := false }

/-- The move by which a reader gets the message. -/
def Move.takes : Move → Bool
  | claim => true
  | _ => false

/-- Every publication finds the message neither in `processing` nor in
`archive`. -/
def PublishesFresh (sid agent m : String) (s : Disk) (_ : ℕ) (o : Op) (_ : Choice) : Prop :=
  o = Move.publish.op sid agent m →
    (places sid agent m s).processing = false ∧ (places sid agent m s).archive = false

instance (sid agent m : String) (s : Disk) (i : ℕ) (o : Op) (c : Choice) :
    Decidable (PublishesFresh sid agent m s i o c) := by
  unfold PublishesFresh; infer_instance

/-- Whether the operation moves the message from `processing` back to the inbox. -/
def takesBack (sid agent m : String) : Op → Bool
  | .replace src dst _ => src = processingFile sid agent m && dst = inboxFile sid agent m
  | _ => false

/-- The message is neither released nor recovered. -/
def NotTakenBack (sid agent m : String) (_ : Disk) (_ : ℕ) (o : Op) (_ : Choice) : Prop :=
  takesBack sid agent m o = false

instance (sid agent m : String) (s : Disk) (i : ℕ) (o : Op) (c : Choice) :
    Decidable (NotTakenBack sid agent m s i o c) := by
  unfold NotTakenBack; infer_instance

/-- Any send, and the recipient's `read` and `finalize`. -/
def Delivers (sid agent : String) : Request → Prop
  | .send _ => True
  | .read a => a.sessionId = sid ∧ a.agentId = agent
  | .finalize sid' agent' _ _ => sid' = sid ∧ agent' = agent
  | _ => False

/-- Process `i` has returned the message from a `read`. -/
def Returned (p : Pool Op Ans Disk PyErr Result) (m : String) (i : ℕ) : Prop :=
  ∃ msg, p.procs i = .ret (.message (some msg)) ∧ textOf msg "msg_id" = m

instance (p : Pool Op Ans Disk PyErr Result) (m : String) (i : ℕ) : Decidable (Returned p m i) :=
  match h : p.procs i with
  | .ret (.message (some msg)) => decidable_of_iff (textOf msg "msg_id" = m)
      ⟨fun hm => ⟨msg, h, hm⟩, fun ⟨_, h', hm⟩ => by rw [h] at h'; cases h'; exact hm⟩
  | .ret (.message none) | .ret (.text _) | .ret (.flag _) | .ret .idle | .raise _ | .call _ _
  | .hang => isFalse fun ⟨_, h', _⟩ => by rw [h] at h'; cases h'

/-! ## The role of a call -/

variable {sid agent m : String}

/-- The operation leaves the three places alone. -/
def Spares (sid agent m : String) (o : Op) : Prop :=
  inboxFile sid agent m ∉ o.targets ∧ processingFile sid agent m ∉ o.targets ∧
    archiveFile sid agent m ∉ o.targets

/-- Watch whether a call has taken the message. -/
abbrev role (sid agent m : String) : Role Op Ans where
  St := Bool
  allows _ o := Spares sid agent m o ∨ ∃ v : Move, o = v.op sid agent m
  assumes _ _ _ := True
  next q o a := match o, a with
    | .replace src dst _, .ok () =>
      q || decide (src = inboxFile sid agent m ∧ dst = processingFile sid agent m)
    | _, _ => q

variable {q : Bool} {src p : MPath} {o : Op} {d : Dir} {name : String} {s s' : Disk}

theorem ignores_replace {q : Bool} {src dst : MPath} {l : Option Lease}
    (h : Spares sid agent m (.replace src dst l) ∨ ∃ v : Move, .replace src dst l = v.op sid agent m)
    (hne : ¬ (src = inboxFile sid agent m ∧ dst = processingFile sid agent m)) :
    (role sid agent m).Ignores q (.replace src dst l) := by
  refine ⟨h, fun a => ?_⟩
  cases a with
  | error e => rfl
  | ok u => simp [role, hne]

theorem spares_of_looks (h : o.looks = true) : Spares sid agent m o := by
  cases o <;> simp_all [Op.looks, Spares, Op.targets]

theorem ignores_looks (h : o.looks = true) : (role sid agent m).Ignores q o := by
  refine ⟨.inl (spares_of_looks h), fun a => ?_⟩
  cases o <;> simp_all [Op.looks, role]

theorem spares_of_dotted (hm : msgIdOk m = true) (hp : dotted p.name = true)
    (ho : ∀ x ∈ o.targets, x = p) : Spares sid agent m o := by
  have hne := jsonName_ne_of_dotted hm hp
  refine ⟨fun h => ?_, fun h => ?_, fun h => ?_⟩ <;>
  · rw [← ho _ h] at hne
    exact hne rfl

theorem ignores_unlink (hm : msgIdOk m = true)
    (h : dotted name = true) : (role sid agent m).Ignores q (.unlink ⟨d, name⟩) :=
  ⟨.inl (spares_of_dotted (p := ⟨d, name⟩) hm h (by simp [Op.targets])), fun _ => rfl⟩

theorem ignores_writeNew (hm : msgIdOk m = true) {x : Data}
    (h : dotted name = true) : (role sid agent m).Ignores q (.writeNew ⟨d, name⟩ x) :=
  ⟨.inl (spares_of_dotted (p := ⟨d, name⟩) hm h (by simp [Op.targets])), fun _ => rfl⟩

theorem ignores_link (hm : msgIdOk m = true)
    (h : dotted name = true) : (role sid agent m).Ignores q (.link src ⟨d, name⟩) :=
  ⟨.inl (spares_of_dotted (p := ⟨d, name⟩) hm h (by simp [Op.targets])), fun _ => rfl⟩

theorem ignores_sendOp (hm : msgIdOk m = true) {sid' : String} (ho : SendOp sid' o) :
    (role sid agent m).Ignores false o := by
  cases ho with
  | look h => exact ignores_looks h
  | tmp h =>
    exact ⟨.inl (spares_of_dotted hm (startsWith_trans (by decide) h) (by simp [Op.targets])),
      fun _ => rfl⟩
  | tmpNew h =>
    exact ⟨.inl (spares_of_dotted hm (startsWith_trans (by decide) h) (by simp [Op.targets])),
      fun _ => rfl⟩
  | publish agent' mid =>
    have htmp := jsonName_ne_of_dotted hm
      (startsWith_trans (by decide) (startsWith_tmpName mid))
    have hsrc : (⟨.box sid' agent' .inbox, tmpName mid⟩ : MPath) ≠ inboxFile sid agent m :=
      fun h => htmp (congrArg Path.name h)
    refine ignores_replace ?_ (fun h => hsrc h.1)
    by_cases hd : (⟨.box sid' agent' .inbox, jsonName mid⟩ : MPath) = inboxFile sid agent m
    · simp only [inboxFile, Lib.Path.mk.injEq, Dir.box.injEq, and_true] at hd
      obtain ⟨⟨rfl, rfl⟩, hmid⟩ := hd
      obtain rfl := jsonName_inj hmid
      exact .inr ⟨.publish, rfl⟩
    · refine .inl ⟨?_, ?_, ?_⟩ <;> simp only [Op.targets, List.mem_cons, List.not_mem_nil, or_false,
        not_or]
      · exact ⟨hsrc.symm, Ne.symm hd⟩
      · simp [processingFile]
      · simp [archiveFile]
  | openCursor =>
    exact ⟨.inl (by simp [Spares, Op.targets, inboxFile, processingFile, archiveFile]),
      fun _ => rfl⟩
  | session a b =>
    exact ignores_replace (.inl (by
      simp [Spares, Op.targets, inboxFile, processingFile, archiveFile])) (by simp [inboxFile])
  | history a b =>
    exact ignores_replace (.inl (by
      simp [Spares, Op.targets, inboxFile, processingFile, archiveFile])) (by simp [inboxFile])

/-- Moving `name` within a mailbox is a move of the message or does not touch
it. -/
theorem allows_of_name {src dst : Box} {l : Option Lease} {name : String}
    (v : Move) (h : Op.replace ⟨.box sid agent src, jsonName m⟩ ⟨.box sid agent dst, jsonName m⟩ l =
      v.op sid agent m) :
    Spares sid agent m (.replace ⟨.box sid agent src, name⟩ ⟨.box sid agent dst, name⟩ l) ∨
      ∃ v : Move, .replace ⟨.box sid agent src, name⟩ ⟨.box sid agent dst, name⟩ l =
        v.op sid agent m := by
  by_cases hn : name = jsonName m
  · exact .inr ⟨v, by rw [hn, h]⟩
  · left
    simp [Spares, Op.targets, inboxFile, processingFile, archiveFile, Ne.symm hn]

theorem ignores_reapOp (hm : msgIdOk m = true) {claimFile : MPath}
    (hc : dotted claimFile.name = true) (ho : ReapOp sid agent claimFile o) :
    (role sid agent m).Ignores q o := by
  cases ho with
  | look h => exact ignores_looks h
  | lock p => exact ⟨.inl (by simp [Spares, Op.targets]), fun _ => rfl⟩
  | unlock p => exact ⟨.inl (by simp [Spares, Op.targets]), fun _ => rfl⟩
  | dropClaim => exact ignores_unlink hm hc
  | back msgId l =>
    exact ignores_replace (allows_of_name (.back (some l)) rfl) (by simp [inboxFile])

theorem ignores_finishOp (hm : msgIdOk m = true) (ho : FinishOp sid agent o) :
    (role sid agent m).Ignores q o := by
  cases ho with
  | look h => exact ignores_looks h
  | @dropClaim name h => exact ignores_unlink hm (dotted_of_claim h)
  | archive h =>
    exact ignores_replace (allows_of_name .archive rfl) (by simp [inboxFile])
  | back h =>
    exact ignores_replace (allows_of_name (.back none) rfl) (by simp [inboxFile])

/-- `read` is watched from the state in which it has taken nothing. -/
theorem reader (hm : msgIdOk m = true) {a : ReadArgs} (hs : a.sessionId = sid)
    (ha : a.agentId = agent) : Reader (role sid agent m) false (fun _ => True) a := by
  subst hs ha
  exact {
    look := fun o ho => ignores_looks ho
    unlink := fun name h => ignores_unlink hm h
    draft := fun name n now _ =>
      ignores_writeNew hm (dotted_of_tmpClaim (startsWith_tmpClaimName _ n))
    create := fun name now _ => ignores_writeNew hm (dotted_of_claim (startsWith_claimName _))
    link := fun name n _ => ignores_link hm (dotted_of_claim (startsWith_claimName _))
    quarantine := fun name =>
      ignores_replace (allows_of_name .quarantine rfl) (by simp [processingFile])
    reap := fun key => by
      refine (reapExpiredClaim_reapOp _ _ _).keeps fun o ho => ignores_reapOp hm ?_ ho
      exact dotted_of_claim (startsWith_claimName key)
    good := fun _ _ _ _ => trivial
    claim := fun name _ => ⟨allows_of_name .claim rfl, fun e => rfl⟩
    claimed := fun name tmp _ h => ignores_unlink hm h }

/-- How a call ends: a `read` that returns the message has taken it. -/
def Ends (m : String) (q : Bool) (r : Except PyErr Result) : Prop :=
  ∀ msg, r = .ok (.message (some msg)) → textOf msg "msg_id" = m → q = true

theorem call_keeps (hm : msgIdOk m = true) (fuel : ℕ) {r : Request} (hr : Delivers sid agent r) :
    (r.call fuel).Keeps (role sid agent m) false (Ends m) := by
  cases r with
  | send a =>
    exact (send_sendOp fuel a).keeps_bind (Prog.rets_true _) (fun o ho => ignores_sendOp hm ho)
      (fun _ _ => nofun) (fun _ => nofun)
  | read a =>
    refine (read_keeps (reader hm hr.1 hr.2) fuel).bind (fun q res h => ?_)
      (fun _ _ _ => nofun)
    intro msg hmsg hmid
    cases hmsg
    rcases h with ⟨-, h⟩ | ⟨name, -, rfl, h⟩
    · exact absurd rfl (h msg)
    · have hname : name = jsonName m := by rw [← h msg rfl, hmid]; rfl
      simp [claimOp, inboxFile, processingFile, hname, hr.1, hr.2]
  | finalize sid' agent' m' o' =>
    obtain ⟨rfl, rfl⟩ := hr
    exact (finalize_finishOp _ _ _ _).keeps_bind (Prog.rets_true _)
      (fun o ho => ignores_finishOp hm ho) (fun _ _ => nofun) (fun _ => nofun)
  | finalizeFromInbox => exact hr.elim
  | release => exact hr.elim
  | renewClaim => exact hr.elim
  | recoverStale => exact hr.elim

/-! ## What an operation does to the places -/

theorem has_of_get? {f : MFile} (h : s.files.get? p = some f) :
    has s p = true := by rw [has, h]; rfl

theorem has_eq (h : s'.files.get? p = s.files.get? p) : has s' p = has s p := by rw [has, has, h]

theorem places_spares {i : ℕ} {c : Choice} {a : Ans o} (ho : Spares sid agent m o)
    (h : s.perform i o c = some (a, s')) : places sid agent m s' = places sid agent m s := by
  rw [places, places, has_eq (Disk.perform_get? h ho.1), has_eq (Disk.perform_get? h ho.2.1),
    has_eq (Disk.perform_get? h ho.2.2)]

theorem next_spares (ho : Spares sid agent m o) (q : Bool) (a : Ans o) :
    (role sid agent m).next q o a = q := by
  cases o with
  | replace src dst l =>
    cases a with
    | error e => rfl
    | ok u =>
      have hne : src ≠ inboxFile sid agent m := fun h => ho.1 (by simp [Op.targets, h])
      simp [role, hne]
  | _ => rfl

/-- After a rename, the target is there, the source is gone and the rest is as
before. -/
theorem has_move {dst : MPath} (hsrc : has s src = true) (p : MPath) :
    has { s with files := s.files.move src dst } p =
      if p = dst then true else if p = src then false else has s p := by
  obtain ⟨f, hf⟩ := Option.isSome_iff_exists.mp hsrc
  simp only [has, Files.get?_move hf]
  split_ifs <;> rfl

/-- A move fails without effect, or does to the places what `Move.apply` says;
only a claim that succeeds moves the role. -/
theorem perform_move (hm : msgIdOk m = true) (v : Move) {i : ℕ} {c : Choice}
    {a : Ans (v.op sid agent m)} (h : s.perform i (v.op sid agent m) c = some (a, s')) (q : Bool) :
    (s' = s ∧ (role sid agent m).next q (v.op sid agent m) a = q) ∨
    (v.ready (places sid agent m s) = true ∧
      places sid agent m s' = v.apply (places sid agent m s) ∧
      (role sid agent m).next q (v.op sid agent m) a = (q || v.takes)) := by
  have hpub : ∀ b : Box, (⟨.box sid agent b, jsonName m⟩ : MPath) ≠
      ⟨.box sid agent .inbox, tmpName m⟩ := fun b hb =>
    jsonName_ne_of_dotted hm (startsWith_trans (by decide) (startsWith_tmpName m))
      (congrArg Path.name hb).symm
  cases v <;> rcases Disk.perform_replace h with ⟨e, rfl, rfl⟩ | ⟨rfl, ⟨f, hf⟩, rfl⟩ <;>
    first | exact .inl ⟨rfl, rfl⟩ | right
  case publish =>
    have hsrc := has_of_get? hf
    simp [Move.ready, Move.apply, Move.takes, places, inboxFile, processingFile, archiveFile,
      has_move hsrc, hpub, role, Move.op]
  case claim | archive | back | quarantine =>
    simp only [inboxFile, processingFile] at hf
    have hsrc := has_of_get? hf
    simp [Move.ready, Move.apply, Move.takes, places, inboxFile, processingFile, archiveFile,
      has_move hsrc, hsrc, role, Move.op]

/-! ## The invariant -/

theorem single_apply {v : Move} {x : Places} (hx : x.Single) (hr : v.ready x = true)
    (hp : v = .publish → x.processing = false ∧ x.archive = false) : (v.apply x).Single := by
  obtain ⟨i, p, a⟩ := x
  cases v <;> cases i <;> cases p <;> cases a <;>
    simp_all [Places.Single, Move.apply, Move.ready]

/-- A message that was taken is in `processing` or `archive`, and one call took
it. -/
def Taken (x : Places) (q : ℕ → Bool) : Prop :=
  (∀ i, q i = true → x.processing = true ∨ x.archive = true) ∧
  ∀ i j, q i = true → q j = true → i = j

theorem opKeeps_single (hm : msgIdOk m = true) :
    Pool.OpKeeps world (role sid agent m) (PublishesFresh sid agent m)
      (fun s _ => (places sid agent m s).Single) := by
  intro s q i o c a s' hJ ho hG h
  refine ⟨trivial, ?_⟩
  rcases ho with ho | ⟨v, rfl⟩
  · rw [places_spares ho h]
    exact hJ
  · rcases perform_move hm v h (q i) with ⟨rfl, -⟩ | ⟨hr, hp, -⟩
    · exact hJ
    · rw [hp]
      exact single_apply hJ hr fun hv => hG (by rw [hv])

theorem taken_apply {v : Move} {x : Places} {q : ℕ → Bool} (hx : x.Single) (hr : v.ready x = true)
    (hp : v = .publish → x.processing = false ∧ x.archive = false) (hb : ∀ l, v ≠ .back l)
    (hq : Taken x q) (i : ℕ) :
    Taken (v.apply x) (Function.update q i (q i || v.takes)) := by
  cases v with
  | claim =>
    -- the message is in the inbox, so nobody has it
    have hnone : ∀ j, q j = false := by
      intro j
      by_contra hj
      rcases hq.1 j (by simpa using hj) with h | h
      · exact hx.1 ⟨hr, h⟩
      · exact hx.2.1 ⟨hr, h⟩
    refine ⟨fun j _ => .inl rfl, fun j k hj hk => ?_⟩
    have honly : ∀ j, Function.update q i (q i || Move.claim.takes) j = true → j = i := by
      intro j hj
      by_contra hne
      rw [Function.update_of_ne hne, hnone j] at hj
      cases hj
    rw [honly j hj, honly k hk]
  | back l => exact absurd rfl (hb l)
  | archive =>
    simp only [Move.takes, Bool.or_false, Function.update_eq_self]
    exact ⟨fun _ _ => .inr rfl, hq.2⟩
  | publish | quarantine =>
    simp only [Move.takes, Bool.or_false, Function.update_eq_self]
    exact ⟨fun j hj => hq.1 j hj, hq.2⟩

theorem opKeeps_taken (hm : msgIdOk m = true) :
    Pool.OpKeeps world (role sid agent m)
      (fun s i o c => PublishesFresh sid agent m s i o c ∧ NotTakenBack sid agent m s i o c)
      (fun s q => (places sid agent m s).Single ∧ Taken (places sid agent m s) q) := by
  intro s q i o c a s' hJ ho hG h
  refine ⟨trivial, (opKeeps_single hm hJ.1 ho hG.1 h).2, ?_⟩
  rcases ho with ho | ⟨v, rfl⟩
  · rw [next_spares ho, Function.update_eq_self, places_spares ho h]
    exact hJ.2
  · rcases perform_move hm v h (q i) with ⟨rfl, hn⟩ | ⟨hr, hp, hn⟩
    · rw [hn, Function.update_eq_self]
      exact hJ.2
    · rw [hp, hn]
      refine taken_apply hJ.1 hr (fun hv => hG.1 (by rw [hv])) (fun l hl => ?_) hJ.2 i
      have := hG.2
      simp [hl, NotTakenBack, takesBack, Move.op] at this

theorem crashKeeps {J : Places → (ℕ → Bool) → Prop} :
    Pool.CrashKeeps world (role sid agent m) fun s q => J (places sid agent m s) q :=
  fun _ q i h => ⟨q i, by rw [Function.update_eq_self]; exact h⟩

theorem kept_single (hm : msgIdOk m = true) {fuel : ℕ} {reqs : ℕ → Option Request}
    (hreqs : ∀ i r, reqs i = some r → Delivers sid agent r) {J : Disk → (ℕ → Bool) → Prop}
    (hJ : J s fun _ => false) : (pool fuel s reqs).Kept (role sid agent m) J (fun _ => Ends m) := by
  refine ⟨fun _ => false, hJ, fun i => ?_⟩
  cases h : reqs i with
  | none => simp [pool, h, Ends]
  | some r => simpa [pool, h] using call_keeps hm fuel (hreqs i r h)

/-- **At-most-once delivery.**  Along every run of sends, reads and finalizes
whose publications find the message neither in `processing` nor in `archive`, the
message is in at most one place at every moment; and while it is not taken back,
at most one `read` returns it. -/
theorem delivered_at_most_once (sid agent m : String) (hm : msgIdOk m = true) (fuel : ℕ)
    (s : Disk) (hfresh : places sid agent m s = ⟨false, false, false⟩)
    (reqs : ℕ → Option Request) (hreqs : ∀ i r, reqs i = some r → Delivers sid agent r)
    (es : List (Event Choice))
    (hes : (pool fuel s reqs).Admits world (PublishesFresh sid agent m) es) :
    (∀ n, (places sid agent m
      (Pool.run world (pool fuel s reqs) (es.take n)).shared).Single) ∧
    ((pool fuel s reqs).Admits world (NotTakenBack sid agent m) es →
      ∀ i j, Returned (Pool.run world (pool fuel s reqs) es) m i →
        Returned (Pool.run world (pool fuel s reqs) es) m j → i = j) := by
  constructor
  · intro n
    have hJ : (places sid agent m s).Single := by rw [hfresh]; decide
    have h := Pool.run_keeps (opKeeps_single hm) (crashKeeps (J := fun x _ => x.Single)) (es.take n)
      (kept_single (J := fun s _ => (places sid agent m s).Single) hm hreqs hJ) (hes.take n)
    obtain ⟨q, hq, -⟩ := h
    exact hq
  · intro hback i j hi hj
    have hJ : (places sid agent m s).Single ∧ Taken (places sid agent m s) fun _ => false := by
      rw [hfresh]
      exact ⟨by decide, nofun, nofun⟩
    have h := Pool.run_keeps (opKeeps_taken hm)
      (crashKeeps (J := fun x q => x.Single ∧ Taken x q)) es
      (kept_single (J := fun s q => (places sid agent m s).Single ∧
        Taken (places sid agent m s) q) hm hreqs hJ) (hes.and hback)
    obtain ⟨q, ⟨-, hT⟩, hq⟩ := h
    have htook : ∀ i, Returned (Pool.run world (pool fuel s reqs) es) m i → q i = true := by
      rintro i ⟨msg, hp, hmid⟩
      have hk := hq i
      rw [hp] at hk
      exact hk msg rfl hmid
    exact hT.2 i j (htook i hi) (htook j hj)

/-! ## Two runs

Manager `a` sends one message to `b`, who has two workers. -/

/-- The calls: the send, a `read` of each worker and a `finalize` of the first. -/
def twoWorkers : ℕ → Option Request
  | 0 => some (.send notice)
  | 1 => some (.read { sessionId := "s", agentId := "b", owner := "w1" })
  | 2 => some (.read { sessionId := "s", agentId := "b", owner := "w2" })
  | 3 => some (.finalize "s" "b" "m" "w1")
  | _ => none

theorem twoWorkers_delivers : ∀ i r, twoWorkers i = some r → Delivers "s" "b" r := by
  intro i r h
  match i with
  | 0 | 1 | 2 | 3 => cases h; simp [Delivers]
  | _ + 4 => cases h

/-- The whole send, the first worker's `read` and `finalize`, then the second
worker's `read`. -/
def inTurn : List (Event Choice) := steps 0 25 ++ steps 1 13 ++ steps 3 7 ++ steps 2 2

theorem delivered_at_most_once_in_turn :
    Returned (Pool.run world (pool 2 (newSession "s" "a" ["b"] 0) twoWorkers) inTurn) "m" 1 ∧
    (places "s" "b" "m"
      (Pool.run world (pool 2 (newSession "s" "a" ["b"] 0) twoWorkers) inTurn).shared) =
        ⟨false, false, true⟩ ∧
    (∀ n, (places "s" "b" "m" (Pool.run world (pool 2 (newSession "s" "a" ["b"] 0) twoWorkers)
      (inTurn.take n)).shared).Single) ∧
    ∀ i j, Returned (Pool.run world (pool 2 (newSession "s" "a" ["b"] 0) twoWorkers) inTurn) "m" i →
      Returned (Pool.run world (pool 2 (newSession "s" "a" ["b"] 0) twoWorkers) inTurn) "m" j →
      i = j := by
  have h := delivered_at_most_once "s" "b" "m" (by decide) 2 (newSession "s" "a" ["b"] 0)
    (by decide +kernel) twoWorkers twoWorkers_delivers inTurn (by decide +kernel)
  exact ⟨by decide +kernel, by decide +kernel, h.1, h.2 (by decide +kernel)⟩

/-- The first worker reads between the two renames of the send. -/
def betweenRenames : List (Event Choice) := steps 0 9 ++ steps 1 13 ++ steps 0 11 ++ steps 2 13

/-- **The second rename of `send` delivers the message again.**  After it the
message is in `processing` and in the inbox, and the second worker's `read`
returns it too, although nothing moved it back. -/
theorem restamp_redelivers :
    places "s" "b" "m" (newSession "s" "a" ["b"] 0) = ⟨false, false, false⟩ ∧
    (pool 2 (newSession "s" "a" ["b"] 0) twoWorkers).Admits world (NotTakenBack "s" "b" "m")
      betweenRenames ∧
    ¬ (places "s" "b" "m" (Pool.run world (pool 2 (newSession "s" "a" ["b"] 0) twoWorkers)
      (betweenRenames.take 33)).shared).Single ∧
    Returned (Pool.run world (pool 2 (newSession "s" "a" ["b"] 0) twoWorkers) betweenRenames)
      "m" 1 ∧
    Returned (Pool.run world (pool 2 (newSession "s" "a" ["b"] 0) twoWorkers) betweenRenames)
      "m" 2 := by
  refine ⟨?_, ?_, ?_, ?_, ?_⟩ <;> decide +kernel

end Delivery

end AiMeshChat.Mailbox
