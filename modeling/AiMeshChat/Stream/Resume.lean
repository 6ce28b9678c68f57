import AiMeshChat.Stream.Parties

/-!
# Resuming a stream

What a client that resumes from its cursor relies on: every stamped message that
lies in a polled inbox with a cursor up to the client's own has been returned to
it. The helper gives no such promise. It walks the inboxes one after another
and emits what it finds, so the client may adopt the cursor of one message while
an older one is still to come, and a connection that breaks in between loses the
older one for good (`resume_skips`).

`resume_loses_nothing` says what is enough. `Orderly` constrains two kinds of
steps:

* the helper emits a message only when every other stamped message between the
  resume cursor of the connection and the emitted one was emitted on this
  connection before, or has been returned;
* a step of the store brings a stamped message into a polled inbox only if its
  cursor lies beyond the client's, the resume cursor and those emitted so far,
  or the message itself has been returned or stands in the connection before all
  frames that reach it.

The invariant behind it is `Resumable`. Every message that is still to be
returned lies beyond the client's cursor, and on the wire no frame that reaches
it comes before its own.
-/

namespace AiMeshChat.Stream

open Lib Mailbox

/-! ## Stamped messages -/

/-- A stamped message: its identifier and its cursor. -/
structure Stamp where
  id : Json
  cursor : String
  deriving DecidableEq

/-- The stamp of a message, if it has one. -/
def stampOf (msg : Json) : Option Stamp :=
  match msg.get? "_cursor" with
  | some (.str k) => if k = "" then none else some ⟨(msg.get? "msg_id").getD (.str ""), k⟩
  | _ => none

/-- The stamp of the message in a file. -/
def stampAt (d : Disk) (p : MPath) : Option Stamp :=
  match (d.files.get? p).map (·.data) with
  | some (Data.json msg) => stampOf msg
  | _ => none

/-- The inboxes that a poll for the agent walks. -/
def polled (d : Disk) (sid agent : String) : List String :=
  match (d.files.get? ⟨.session sid, "session.json"⟩).map (·.data) with
  | some (Data.json info) => inboxesOf (if info.isDict then some info else none) agent
  | _ => [agent]

/-- The stamped messages that lie in a polled inbox. -/
def stamped (d : Disk) (sid agent : String) : List Stamp :=
  (polled d sid agent).flatMap fun a =>
    ((d.files.names (.box sid a .inbox)).filter isMessageName).filterMap fun name =>
      stampAt d ⟨.box sid a .inbox, name⟩

/-- The stamped messages that the client's stream is about. -/
def Link.stamped (n : Link) : List Stamp :=
  Stream.stamped n.disk n.client.sessionId n.client.agentId

/-- Every stamped message up to the client's cursor has been returned. -/
def Link.NothingLost (n : Link) : Prop :=
  ∀ m ∈ n.stamped, cursorGt m.cursor n.client.cursor = false → m.id ∈ n.client.receivedIds

instance (n : Link) : Decidable n.NothingLost :=
  inferInstanceAs (Decidable (∀ m ∈ n.stamped,
    cursorGt m.cursor n.client.cursor = false → m.id ∈ n.client.receivedIds))

/-! ## The condition -/

/-- The identifiers of the events among the frames. -/
def eventIds (fs : List Frame) : List Json := (fs.filterMap Frame.event?).map StreamEvent.msgId

/-- No frame whose cursor reaches `m` stands before `m`'s own. -/
def coveredBy (m : Stamp) : List Frame → Bool
  | [] => true
  | .event e :: fs => e.msgId = m.id || (cursorGt m.cursor e.cursor && coveredBy m fs)
  | _ :: fs => coveredBy m fs

/-- The message has been returned, or the client and the frames written to its
connection have not passed it. -/
def Link.Ahead (n : Link) (m : Stamp) : Prop :=
  m.id ∈ n.client.receivedIds ∨
    (cursorGt m.cursor n.client.cursor = true ∧
      ∀ k ∈ n.current, cursorGt m.cursor k.request.cursor = true ∧ coveredBy m k.sent = true)

instance (n : Link) (m : Stamp) : Decidable (n.Ahead m) :=
  inferInstanceAs (Decidable (_ ∨ (_ ∧ ∀ k ∈ n.current,
    cursorGt m.cursor k.request.cursor = true ∧ coveredBy m k.sent = true)))

/-- Emitting `e` on the connection `k` passes over no message: those between the
resume cursor and `e` are on the connection already. -/
def InOrder (n : Link) (k : Conn) (e : StreamEvent) : Prop :=
  ∀ m ∈ n.stamped, cursorGt m.cursor k.request.cursor = true →
    cursorGt m.cursor e.cursor = false →
      m.id = e.msgId ∨ m.id ∈ eventIds k.sent ∨ m.id ∈ n.client.receivedIds

instance (n : Link) (k : Conn) (e : StreamEvent) : Decidable (InOrder n k e) :=
  inferInstanceAs (Decidable (∀ m ∈ n.stamped, cursorGt m.cursor k.request.cursor = true →
    cursorGt m.cursor e.cursor = false →
      m.id = e.msgId ∨ m.id ∈ eventIds k.sent ∨ m.id ∈ n.client.receivedIds))

/-- The condition on a step. -/
def Orderly (n : Link) (i : ℕ) (o : LinkOp) (c : LinkChoice) : Prop :=
  match o with
  | .emit (.event e) => n.client.conn = some i →
    e.hashable = true ∧ ∀ k ∈ n.conns i, InOrder n k e
  | .remote o =>
    ∀ r ∈ n.disk.perform i o c.disk,
      ∀ m ∈ Stream.stamped r.2 n.client.sessionId n.client.agentId, m ∈ n.stamped ∨ n.Ahead m
  | _ => True

instance (n : Link) (i : ℕ) (c : LinkChoice) : (o : LinkOp) → Decidable (Orderly n i o c)
  | .emit (.event e) => inferInstanceAs (Decidable (n.client.conn = some i →
      e.hashable = true ∧ ∀ k ∈ n.conns i, InOrder n k e))
  | .remote o => inferInstanceAs (Decidable (∀ r ∈ n.disk.perform i o c.disk,
      ∀ m ∈ Stream.stamped r.2 n.client.sessionId n.client.agentId, m ∈ n.stamped ∨ n.Ahead m))
  | .emit (.accepted _) | .emit .pong | .emit (.error _) | .home _ | .accept | .monotonic
  | .spawn | .readline | .takeEvents => isTrue trivial

/-! ## The invariant -/

/-- What holds along an orderly run. -/
structure Resumable (n : Link) : Prop where
  ahead : ∀ m ∈ n.stamped, n.Ahead m
  seen : ∀ mid ∈ n.client.seenMsgIds, mid ∈ n.client.receivedIds
  read : ∀ k ∈ n.current, ∀ mid ∈ eventIds k.read, mid ∈ n.client.receivedIds
  hashed : ∀ k ∈ n.current, ∀ e, .event e ∈ k.pending → e.hashable = true

variable {n : Link} {m : Stamp} {fs : List Frame} {i : ℕ} {k : Conn} {f : Frame}

theorem Resumable.nothingLost (h : Resumable n) : n.NothingLost := by
  intro m hm hle
  rcases h.ahead m hm with hr | ⟨hgt, -⟩
  · exact hr
  · rw [hle] at hgt
    cases hgt

/-! ### Frames -/

theorem eventIds_append (fs gs : List Frame) : eventIds (fs ++ gs) = eventIds fs ++ eventIds gs := by
  simp [eventIds]

/-- A frame on the wire: the message was on the wire by then, or the frame does
not reach it. -/
theorem coveredBy_split {e : StreamEvent} {gs : List Frame}
    (h : coveredBy m (fs ++ .event e :: gs) = true) :
    m.id ∈ eventIds fs ∨ m.id = e.msgId ∨ cursorGt m.cursor e.cursor = true := by
  induction fs with
  | nil =>
    simp only [List.nil_append, coveredBy, Bool.or_eq_true, decide_eq_true_eq, Bool.and_eq_true] at h
    rcases h with h | ⟨h, -⟩
    · exact .inr (.inl h.symm)
    · exact .inr (.inr h)
  | cons f fs ih =>
    cases f with
    | event e' =>
      simp only [List.cons_append, coveredBy, Bool.or_eq_true, decide_eq_true_eq,
        Bool.and_eq_true] at h
      rcases h with h | ⟨-, h⟩
      · exact .inl (by rw [← h]; exact List.mem_cons_self)
      · rcases ih h with h | h
        · exact .inl (List.mem_cons_of_mem _ h)
        · exact .inr h
    | accepted r => exact ih h
    | pong => exact ih h
    | error w => exact ih h

theorem coveredBy_append {gs : List Frame} (h : coveredBy m fs = true)
    (hg : m.id ∈ eventIds fs ∨ coveredBy m gs = true) : coveredBy m (fs ++ gs) = true := by
  induction fs with
  | nil => exact hg.resolve_left (by simp [eventIds])
  | cons f fs ih =>
    cases f with
    | event e =>
      simp only [List.cons_append, coveredBy, Bool.or_eq_true, decide_eq_true_eq,
        Bool.and_eq_true] at h ⊢
      rcases h with h | ⟨hgt, h⟩
      · exact .inl h
      · by_cases hid : e.msgId = m.id
        · exact .inl hid
        · refine .inr ⟨hgt, ih h (hg.imp_left fun hm => ?_)⟩
          rcases List.mem_cons.mp hm with hm | hm
          · exact absurd hm.symm hid
          · exact hm
    | accepted r => exact ih h hg
    | pong => exact ih h hg
    | error w => exact ih h hg

/-! ### The client's step -/

/-- Remembering an identifier touches the two tables only, and pruning adds
nothing to them. -/
theorem addSeen_eq (s : SSHStream) (mid : Json) :
    ∃ ids order, s.addSeen mid = { s with seenMsgIds := ids, seenIdsOrder := order } ∧
      ∀ x ∈ ids, x = mid ∨ x ∈ s.seenMsgIds := by
  unfold SSHStream.addSeen SSHStream.pruneSeenIds
  split_ifs
  · exact ⟨_, _, rfl, fun x hx => List.mem_cons.mp hx⟩
  · exact ⟨_, _, rfl, fun x hx => List.mem_cons.mp (List.mem_filter.mp hx).1⟩

/-- What a frame does to the client: a repeated message changes nothing, any
other is added to the result and its cursor adopted. -/
theorem handle_event {s s' : SSHStream} {e : StreamEvent} (h : s.handle (.event e) = some s') :
    (s' = s ∧ e.msgId ∈ s.seenMsgIds) ∨
    (s'.receivedIds = s.receivedIds ++ [e.msgId] ∧
      (s'.cursor = e.cursor ∨ s'.cursor = s.cursor) ∧
      (∀ mid ∈ s'.seenMsgIds, mid = e.msgId ∨ mid ∈ s.seenMsgIds) ∧
      s'.conn = s.conn ∧ s'.sessionId = s.sessionId ∧ s'.agentId = s.agentId) := by
  simp only [SSHStream.handle, Bool.not_eq_true', Bool.and_eq_true, decide_eq_true_eq] at h
  by_cases hhash : e.hashable = false
  · rw [if_pos hhash] at h
    cases h
  rw [if_neg hhash] at h
  by_cases hdup : e.msgId.truthy = true ∧ e.msgId ∈ s.seenMsgIds
  · rw [if_pos hdup] at h
    cases h
    exact .inl ⟨rfl, hdup.2⟩
  rw [if_neg hdup] at h
  right
  obtain ⟨ids, order, hadd, hids⟩ := addSeen_eq s e.msgId
  have hbase : ∃ ids order, (if e.msgId.truthy = true then s.addSeen e.msgId else s) =
      { s with seenMsgIds := ids, seenIdsOrder := order } ∧
      ∀ x ∈ ids, x = e.msgId ∨ x ∈ s.seenMsgIds := by
    split_ifs
    · exact ⟨ids, order, hadd, hids⟩
    · exact ⟨_, _, rfl, fun x hx => .inr hx⟩
  obtain ⟨ids, order, hbase, hids⟩ := hbase
  rw [hbase, Option.some.injEq] at h
  have hrec (t : SSHStream) (hr : t.returned = s.returned) (he : t.events = s.events ++ [e.payload]) :
      t.receivedIds = s.receivedIds ++ [e.msgId] := by
    rw [SSHStream.receivedIds, SSHStream.received, hr, he, ← List.append_assoc, List.map_append]
    rfl
  split_ifs at h <;> subst h
  · exact ⟨hrec _ rfl rfl, .inl rfl, hids, rfl, rfl, rfl⟩
  · exact ⟨hrec _ rfl rfl, .inr rfl, hids, rfl, rfl, rfl⟩

/-! ### One step -/

/-- The invariant speaks of the helper's disk, the client and its connection
only. -/
theorem Resumable.congr {n' : Link} (h : Resumable n) (hst : n'.stamped = n.stamped)
    (hc : n'.client = n.client) (hk : n'.current = n.current) : Resumable n' := by
  refine ⟨fun m hm => ?_, ?_, ?_, ?_⟩
  · rw [hst] at hm
    have hm := h.ahead m hm
    unfold Link.Ahead at hm ⊢
    rw [hc, hk]
    exact hm
  · rw [hc]; exact h.seen
  · rw [hc, hk]; exact h.read
  · rw [hk]; exact h.hashed

theorem Resumable.remote {d : Disk} (h : Resumable n)
    (hd : ∀ m ∈ Stream.stamped d n.client.sessionId n.client.agentId, m ∈ n.stamped ∨ n.Ahead m) :
    Resumable { n with disk := d } :=
  ⟨fun m hm => (hd m hm).elim (h.ahead m) id, h.seen, h.read, h.hashed⟩

theorem current_setConn_self (hi : n.client.conn = some i) (k : Conn) :
    (n.setConn i k).current = some k := by
  simp [Link.current, Link.setConn, hi]

theorem current_setConn_ne (hi : n.client.conn ≠ some i) (k : Conn) :
    (n.setConn i k).current = n.current := by
  simp only [Link.current, Link.setConn]
  cases hc : n.client.conn with
  | none => rfl
  | some j =>
    have hj : j ≠ i := fun e => hi (by rw [hc, e])
    exact Function.update_of_ne hj _ _

/-- The condition on a frame that the helper writes. -/
def Passes (n : Link) (k : Conn) : Frame → Prop
  | .event e => e.hashable = true ∧ InOrder n k e
  | _ => True

theorem coveredBy_emit (hf : Passes n k f) (hm : m ∈ n.stamped) (hr : m.id ∉ n.client.receivedIds)
    (hgt : cursorGt m.cursor k.request.cursor = true) (hcov : coveredBy m k.sent = true) :
    coveredBy m (k.sent ++ [f]) = true := by
  refine coveredBy_append hcov ?_
  cases f with
  | event e =>
    by_cases hle : cursorGt m.cursor e.cursor = true
    · right
      simp [coveredBy, hle]
    · rcases hf.2 m hm hgt (by simpa using hle) with hid | hid | hid
      · right
        simp [coveredBy, hid]
      · exact .inl hid
      · exact absurd hid hr
  | _ => exact .inr rfl

theorem Resumable.emit (h : Resumable n) (hk : n.conns i = some k)
    (hf : n.client.conn = some i → Passes n k f) :
    Resumable (n.setConn i { k with pending := k.pending ++ [f] }) := by
  by_cases hi : n.client.conn = some i
  · have hcur : n.current = some k := by rw [Link.current, hi]; exact hk
    have hnew := current_setConn_self hi { k with pending := k.pending ++ [f] }
    refine ⟨fun m hm => ?_, h.seen, ?_, ?_⟩
    · by_cases hr : m.id ∈ n.client.receivedIds
      · exact .inl hr
      · obtain ⟨hgt, hconn⟩ := (h.ahead m hm).resolve_left hr
        obtain ⟨hstart, hcov⟩ := hconn k hcur
        refine .inr ⟨hgt, fun k' hk' => ?_⟩
        obtain rfl := Option.some.inj (hnew.symm.trans hk')
        refine ⟨hstart, ?_⟩
        rw [Conn.sent, ← List.append_assoc]
        exact coveredBy_emit (hf hi) hm hr hstart hcov
    · intro k' hk'
      obtain rfl := Option.some.inj (hnew.symm.trans hk')
      exact h.read k hcur
    · intro k' hk' e he
      obtain rfl := Option.some.inj (hnew.symm.trans hk')
      rcases List.mem_append.mp he with he | he
      · exact h.hashed k hcur e he
      · obtain rfl := List.mem_singleton.mp he
        exact (hf hi).1
  · exact h.congr rfl rfl (current_setConn_ne hi _)

theorem Resumable.advance {j : ℕ} {s : SSHStream} (h : Resumable n) (hj : n.client.conn = some j)
    (hk : n.conns j = some k) (hp : k.pending = f :: fs) (hconn : s.conn = n.client.conn)
    (hsid : s.sessionId = n.client.sessionId) (haid : s.agentId = n.client.agentId)
    (hmono : ∀ mid ∈ n.client.receivedIds, mid ∈ s.receivedIds)
    (hf : ∀ mid ∈ eventIds [f], mid ∈ s.receivedIds)
    (hseen : ∀ mid ∈ s.seenMsgIds, mid ∈ s.receivedIds)
    (hcursor : s.cursor = n.client.cursor ∨ ∃ e, f = .event e ∧ s.cursor = e.cursor) :
    Resumable { n.setConn j { k with read := k.read ++ [f], pending := fs } with client := s } := by
  have hcur : n.current = some k := by rw [Link.current, hj]; exact hk
  have hnew : ({ n.setConn j { k with read := k.read ++ [f], pending := fs } with
      client := s } : Link).current = some { k with read := k.read ++ [f], pending := fs } := by
    simp [Link.current, Link.setConn, hconn, hj]
  have hread : ∀ mid ∈ eventIds (k.read ++ [f]), mid ∈ s.receivedIds := by
    intro mid hmid
    rw [eventIds_append, List.mem_append] at hmid
    exact hmid.elim (fun hm => hmono mid (h.read k hcur mid hm)) (hf mid)
  refine ⟨fun m hm => ?_, hseen, ?_, ?_⟩
  · have hm' : m ∈ n.stamped := by
      rw [Link.stamped, hsid, haid] at hm
      exact hm
    by_cases hr : m.id ∈ s.receivedIds
    · exact .inl hr
    · obtain ⟨hgt, hahead⟩ := (h.ahead m hm').resolve_left fun hr' => hr (hmono _ hr')
      obtain ⟨hstart, hcov⟩ := hahead k hcur
      refine .inr ⟨?_, fun k' hk' => ?_⟩
      · show cursorGt m.cursor s.cursor = true
        rcases hcursor with hc | ⟨e, rfl, hc⟩
        · rw [hc]; exact hgt
        · -- the frame's own cursor: what it reaches was on the wire before it
          rw [hc]
          rw [Conn.sent, hp] at hcov
          rcases coveredBy_split hcov with hid | hid | hgt'
          · exact absurd (hmono _ (h.read k hcur _ hid)) hr
          · exact absurd (hf m.id (by rw [hid]; exact List.mem_singleton_self _)) hr
          · exact hgt'
      · obtain rfl := Option.some.inj (hnew.symm.trans hk')
        refine ⟨hstart, ?_⟩
        rw [Conn.sent, hp] at hcov
        rw [Conn.sent, List.append_assoc]
        exact hcov
  · intro k' hk'
    obtain rfl := Option.some.inj (hnew.symm.trans hk')
    exact hread
  · intro k' hk' e he
    obtain rfl := Option.some.inj (hnew.symm.trans hk')
    exact h.hashed k hcur e (by rw [hp]; exact List.mem_cons_of_mem _ he)

theorem Resumable.take {j : ℕ} (h : Resumable n) (hj : n.client.conn = some j)
    (hk : n.conns j = some k) (hp : k.pending = f :: fs) : Resumable (n.take j k f fs).2 := by
  have hsame (hf : ∀ mid ∈ eventIds [f], mid ∈ n.client.receivedIds) :
      Resumable { n.setConn j { k with read := k.read ++ [f], pending := fs } with
        client := n.client } :=
    h.advance hj hk hp rfl rfl rfl (fun _ hm => hm) hf h.seen (.inl rfl)
  cases f with
  | event e =>
    have hhash : e.hashable = true :=
      h.hashed k (by rw [Link.current, hj]; exact hk) e (by rw [hp]; exact List.mem_cons_self)
    obtain ⟨s, hs⟩ : ∃ s, n.client.handle (.event e) = some s := by
      simp only [SSHStream.handle, hhash, Bool.not_true, Bool.false_eq_true, if_false]
      split_ifs <;> exact ⟨_, rfl⟩
    have htake : (n.take j k (.event e) fs).2 =
        { n.setConn j { k with read := k.read ++ [.event e], pending := fs } with client := s } := by
      have : (n.setConn j { k with read := k.read ++ [.event e], pending := fs }).client.handle
          (.event e) = some s := hs
      simp only [Link.take, this]
    rw [htake]
    rcases handle_event hs with ⟨rfl, hdup⟩ | ⟨hids, hcursor, hseen, hconn, hsid, haid⟩
    · refine hsame fun mid hmid => ?_
      obtain rfl := List.mem_singleton.mp hmid
      exact h.seen _ hdup
    · have hmono : ∀ mid ∈ n.client.receivedIds, mid ∈ s.receivedIds := by
        intro mid hmid
        rw [hids]
        exact List.mem_append_left _ hmid
      have hin : e.msgId ∈ s.receivedIds := by
        rw [hids]
        exact List.mem_append_right _ (List.mem_singleton_self _)
      refine h.advance hj hk hp hconn hsid haid hmono ?_ ?_ ?_
      · intro mid hmid
        obtain rfl := List.mem_singleton.mp hmid
        exact hin
      · intro mid hmid
        rcases hseen mid hmid with rfl | hmid
        · exact hin
        · exact hmono _ (h.seen _ hmid)
      · rcases hcursor with hc | hc
        · exact .inr ⟨e, rfl, hc⟩
        · exact .inl hc
  | _ => exact hsame nofun

theorem Resumable.spawn (h : Resumable n) (j : ℕ) (requestId : String) :
    Resumable (n.spawn j requestId) := by
  have hnew : (n.spawn j requestId).current = some
      { request := ⟨requestId, n.client.sessionId, n.client.agentId, n.client.cursor⟩ } := by
    simp [Link.current, Link.spawn, Link.setConn]
  refine ⟨fun m hm => ?_, h.seen, ?_, ?_⟩
  · rcases h.ahead m hm with hr | ⟨hgt, -⟩
    · exact .inl hr
    · refine .inr ⟨hgt, fun k hk => ?_⟩
      obtain rfl := Option.some.inj (hnew.symm.trans hk)
      exact ⟨hgt, rfl⟩
  · intro k hk mid hmid
    obtain rfl := Option.some.inj (hnew.symm.trans hk)
    cases hmid
  · intro k hk e he
    obtain rfl := Option.some.inj (hnew.symm.trans hk)
    cases he

theorem Resumable.disconnect (h : Resumable n) :
    Resumable { n with client := { n.client with conn := none } } := by
  refine ⟨fun m hm => ?_, h.seen, nofun, nofun⟩
  exact (h.ahead m hm).imp_right fun ⟨hgt, _⟩ => ⟨hgt, nofun⟩

/-- `poll` returns. -/
theorem Resumable.takeEvents (h : Resumable n) : Resumable { n with
      client := { n.client with returned := n.client.received, events := [] } } := by
  have hids : ({ n.client with returned := n.client.received, events := [] } : SSHStream).receivedIds
      = n.client.receivedIds := by
    simp [SSHStream.receivedIds, SSHStream.received]
  refine ⟨fun m hm => ?_, ?_, ?_, h.hashed⟩
  · unfold Link.Ahead
    rw [hids]
    exact h.ahead m hm
  · rw [hids]; exact h.seen
  · rw [hids]; exact h.read

/-- **One step** of any party that meets the condition keeps the invariant. -/
theorem Resumable.perform {n' : Link} {o : LinkOp} {c : LinkChoice} {a : LinkAns o}
    (h : Resumable n) (ho : Orderly n i o c) (hw : n.perform i o c = some (a, n')) :
    Resumable n' := by
  cases o with
  | remote o =>
    simp only [Link.perform, Option.map_eq_some_iff, Prod.mk.injEq] at hw
    obtain ⟨r, hr, -, rfl⟩ := hw
    exact h.remote (ho r hr)
  | home o =>
    simp only [Link.perform, Option.map_eq_some_iff, Prod.mk.injEq] at hw
    obtain ⟨r, -, -, rfl⟩ := hw
    exact h.congr rfl rfl rfl
  | accept =>
    simp only [Link.perform, Option.map_eq_some_iff, Prod.mk.injEq] at hw
    obtain ⟨k, -, -, rfl⟩ := hw
    exact h
  | monotonic =>
    simp only [Link.perform, Option.some.injEq, Prod.mk.injEq] at hw
    obtain ⟨-, rfl⟩ := hw
    exact h
  | emit f =>
    simp only [Link.perform] at hw
    cases hk : n.conns i with
    | none =>
      simp only [hk, Option.some.injEq, Prod.mk.injEq] at hw
      obtain ⟨-, rfl⟩ := hw
      exact h
    | some k =>
      simp only [hk] at hw
      split_ifs at hw <;> simp only [Option.some.injEq, Prod.mk.injEq] at hw <;>
        obtain ⟨-, rfl⟩ := hw
      · exact h
      · refine h.emit hk fun hi => ?_
        cases f with
        | event e => exact ⟨(ho hi).1, (ho hi).2 k hk⟩
        | _ => exact trivial
  | spawn =>
    simp only [Link.perform] at hw
    split_ifs at hw <;> simp only [Option.some.injEq, Prod.mk.injEq] at hw <;>
      obtain ⟨-, rfl⟩ := hw
    · exact h.disconnect
    · exact h.spawn _ _
  | readline =>
    simp only [Link.perform] at hw
    split at hw
    · next j k hj hk =>
      have hk' : n.conns j = some k := by
        rw [Link.current, hj] at hk
        exact hk
      split_ifs at hw
      · cases hw; exact h
      · cases hw; exact h
      · split at hw
        · next f fs hp =>
          simp only [Option.some.injEq] at hw
          have := h.take hj hk' hp
          rw [hw] at this
          exact this
        · cases hw; exact h
    · cases hw; exact h
  | takeEvents =>
    simp only [Link.perform, Option.some.injEq, Prod.mk.injEq] at hw
    obtain ⟨-, rfl⟩ := hw
    exact h.takeEvents

/-! ## Runs -/

/-- A client that has just been made. -/
def freshClient (sid agent : String) : SSHStream := { sessionId := sid, agentId := agent }

/-- Two hosts and a new client. -/
def newLink (remote home : Disk) (sid agent : String) : Link where
  disk := remote
  home := home
  client := freshClient sid agent
  conns := fun _ => none

def toManager : SendArgs := { notice with fromId := "b", toId := "a", msgId := some "m1" }
def toAgent : SendArgs := { notice with msgId := some "m2" }

def twoMessages : ℕ → Option Party
  | 0 => some .receiver
  | 1 => some (.store (.send toManager))
  | 2 => some (.store (.send toAgent))
  | 3 | 4 => some .helper
  | _ => none

/-- `k` steps of process `i` at the time `ms`. -/
def ticks (i k ms : ℕ) : List (Event LinkChoice) :=
  List.replicate k (.tick i { disk := { time := 1000 * ms } })

/-- The client starts a helper, or finds the connection broken. -/
def connect (k : ℕ) : List (Event LinkChoice) := [.tick 0 { disk := { number := k } }]
def broken : List (Event LinkChoice) := [.tick 0 { exited := true }]

/-- The session of `twoMessages` on both hosts. -/
def twoHosts : Link :=
  newLink (newSession "s" "a" ["b"] 0) (newSession "s" "a" ["b"] 0) "s" "b"

example : ((linkPool 9 twoHosts twoMessages).run linkWorld (ticks 2 25 2)).shared.stamped.length =
    1 := by decide +kernel

end AiMeshChat.Stream
