import AiMeshChat.Kernel.Roster

/-!
# Notices and who is subscribed

`SwarmKernel.notice` goes to the set of subscribers that the registry holds, and strikes its
sender from that set before it sends. The set is not copied, so a sender that is subscribed
to the topic is no longer subscribed afterwards, and the next notice does not reach it; once
the last subscriber has sent one, notices on the topic go to the whole room.

`steady_iff` says that this is the only way in which notices change the registry.
-/

namespace AiMeshChat.Kernel

open Mailbox

/-- A call of `notice`, as far as its recipients go. -/
structure Notice where
  sessionId : String
  sender : String
  topic : String
  deriving DecidableEq

namespace Notice

def target (n : Notice) : Address := { kind := .notice, topic := n.topic }

/-- The kernel after the notice. -/
def run (k : Mem) (n : Notice) : Mem := afterRoute k n.sessionId n.sender n.target

/-- The session is there and lets the sender send. -/
def Accepted (k : Mem) (n : Notice) : Prop :=
  ∃ s, requireSession k n.sessionId = .ok s ∧ n.sender ∈ s.acl.allowedSenders

/-- The subscribers of the topic, or the room where there are none, but for the sender. -/
def audience (k : Mem) (s : Session) (n : Notice) : List String :=
  sortedSet ((noticeTargets k s n.sessionId n.topic).filter (· ≠ n.sender))

/-- The notice, sent from the kernel `now`, reaches those whom the kernel `k` names. -/
def Reaches (k now : Mem) (n : Notice) : Prop :=
  ∀ s, requireSession k n.sessionId = .ok s → n.sender ∈ s.acl.allowedSenders →
    ∀ (sink : Deliver → SinkReceipt) (env : Envelope) (f : Fresh), ∃ out,
      (send now (fun d => .ok (sink d)) n.sessionId n.sender n.target env f).1 = .ok out ∧
        out.calls.map (·.targetAgent) = n.audience k s

end Notice

/-- The kernel after several notices. -/
def notices (k : Mem) (ns : List Notice) : Mem := ns.foldl Notice.run k

/-- Notices leave the registry as it is, and each of them reaches those who were subscribed
before the first. -/
def Steady (k : Mem) (ns : List Notice) : Prop :=
  (notices k ns).topicSubscriptions = k.topicSubscriptions ∧
    ∀ before n after, ns = before ++ n :: after → n.Reaches k (notices k before)

/-! ## One notice -/

section Run

variable {k : Mem} {n : Notice}

theorem route_notice {s : Session} (hs : requireSession k n.sessionId = .ok s)
    (hsender : n.sender ∈ s.acl.allowedSenders) :
    route k n.sessionId n.sender n.target = .ok (n.audience k s) := by
  have hcheck : checkNotice s n.sender = .ok () := if_neg (not_not.mpr hsender)
  rw [route, hs]
  change (checkNotice s n.sender >>= fun _ => _) = _
  rw [hcheck]
  rfl

theorem route_refused (h : ¬ n.Accepted k) :
    ∃ e, route k n.sessionId n.sender n.target = .error e := by
  cases hs : requireSession k n.sessionId with
  | error e => exact ⟨e, by rw [route, hs]; rfl⟩
  | ok s =>
    have hcheck : checkNotice s n.sender = .error (.permission
        ("sender not in allowed_senders: " ++ n.sender)) := if_pos fun hin => h ⟨s, hs, hin⟩
    refine ⟨.permission ("sender not in allowed_senders: " ++ n.sender), ?_⟩
    rw [route, hs]
    change (checkNotice s n.sender >>= fun _ => _) = _
    rw [hcheck]
    rfl

theorem run_accepted (h : n.Accepted k) :
    n.run k = { k with
      topicSubscriptions := Function.update k.topicSubscriptions n.sessionId
        (Function.update (k.topicSubscriptions n.sessionId) n.topic
          ((k.topicSubscriptions n.sessionId n.topic).filter (· ≠ n.sender))) } := by
  obtain ⟨s, hs, hsender⟩ := h
  rw [Notice.run, afterRoute, route_notice hs hsender]
  rfl

theorem run_refused (h : ¬ n.Accepted k) : n.run k = k := by
  obtain ⟨e, he⟩ := route_refused h
  rw [Notice.run, afterRoute, he]

theorem run_sessions (k : Mem) (n : Notice) : (n.run k).sessions = k.sessions := by
  by_cases h : n.Accepted k
  · rw [run_accepted h]
  · rw [run_refused h]

theorem mem_of_run {sid topic a : String} (h : a ∈ (n.run k).topicSubscriptions sid topic) :
    a ∈ k.topicSubscriptions sid topic := by
  by_cases hn : n.Accepted k
  · rw [run_accepted hn] at h
    by_cases hsid : sid = n.sessionId
    · subst hsid
      by_cases htopic : topic = n.topic
      · subst htopic
        simp only [Function.update_self] at h
        exact List.mem_of_mem_filter h
      · simpa only [Function.update_self, Function.update_of_ne htopic] using h
    · simpa only [Function.update_of_ne hsid] using h
  · rwa [run_refused hn] at h

theorem sender_not_mem_run (h : n.Accepted k) :
    n.sender ∉ (n.run k).topicSubscriptions n.sessionId n.topic := by
  rw [run_accepted h]
  simp only [Function.update_self]
  intro hin
  simpa using List.of_mem_filter hin

theorem run_of_not_mem (h : n.Accepted k → n.sender ∉ k.topicSubscriptions n.sessionId n.topic) :
    n.run k = k := by
  by_cases hn : n.Accepted k
  · have hfilter : (k.topicSubscriptions n.sessionId n.topic).filter (· ≠ n.sender) =
        k.topicSubscriptions n.sessionId n.topic := by
      refine List.filter_eq_self.mpr fun a ha => ?_
      refine decide_eq_true fun he => ?_
      subst he
      exact h hn ha
    rw [run_accepted hn, hfilter, Function.update_eq_self, Function.update_eq_self]
  · exact run_refused hn

theorem map_deliveries (sid sender : String) (env : Envelope) (f : Fresh) (rs : List String) :
    (deliveries sid sender env f rs).map (·.targetAgent) = rs := by
  unfold deliveries
  rw [List.map_map]
  exact List.zipIdx_map_fst 0 rs

theorem mapM_ok {ε α β : Type} (g : α → β) (l : List α) :
    l.mapM (fun x => (Except.ok (g x) : Except ε β)) = .ok (l.map g) :=
  List.mapM_pure

theorem reaches_self (k : Mem) (n : Notice) : n.Reaches k k := by
  intro s hs hsender sink env f
  obtain ⟨ds, hds⟩ : ∃ ds, ds = deliveries n.sessionId n.sender env f (n.audience k s) := ⟨_, rfl⟩
  refine ⟨⟨receiptOf n.sessionId n.target ds (ds.map sink), ds⟩, ?_, by rw [hds, map_deliveries]⟩
  rw [send, route_notice hs hsender, hds]
  change (List.mapM (fun d => Except.ok (sink d)) _ >>= fun rs => _) = _
  rw [mapM_ok]
  rfl

end Run

/-! ## Several notices -/

section Notices

variable {k : Mem}

theorem notices_append (k : Mem) (ns ms : List Notice) :
    notices k (ns ++ ms) = notices (notices k ns) ms := List.foldl_append

theorem notices_sessions (k : Mem) (ns : List Notice) : (notices k ns).sessions = k.sessions := by
  induction ns generalizing k with
  | nil => rfl
  | cons n ns ih => exact (ih (n.run k)).trans (run_sessions k n)

theorem accepted_notices (k : Mem) (ns : List Notice) (n : Notice) :
    n.Accepted (notices k ns) ↔ n.Accepted k := by
  simp only [Notice.Accepted, requireSession, notices_sessions]

theorem mem_of_notices {ns : List Notice} {sid topic a : String}
    (h : a ∈ (notices k ns).topicSubscriptions sid topic) : a ∈ k.topicSubscriptions sid topic := by
  induction ns generalizing k with
  | nil => exact h
  | cons n ns ih => exact mem_of_run (ih h)

theorem notices_of_not_mem {ns : List Notice}
    (h : ∀ n ∈ ns, n.Accepted k → n.sender ∉ k.topicSubscriptions n.sessionId n.topic) :
    notices k ns = k := by
  induction ns with
  | nil => rfl
  | cons n ns ih =>
    have hrun : n.run k = k := run_of_not_mem (h n List.mem_cons_self)
    rw [notices, List.foldl_cons, hrun]
    exact ih fun m hm => h m (List.mem_cons_of_mem n hm)

/-- **When notices leave the registry alone**: if and only if no sender of one that is
accepted is subscribed to its topic. -/
theorem steady_iff (k : Mem) (ns : List Notice) : Steady k ns ↔
    ∀ n ∈ ns, n.Accepted k → n.sender ∉ k.topicSubscriptions n.sessionId n.topic := by
  constructor
  · rintro ⟨hsame, -⟩ n hn haccepted hsender
    obtain ⟨before, after, rfl⟩ := List.append_of_mem hn
    rw [← hsame, notices_append] at hsender
    have hgone := sender_not_mem_run ((accepted_notices k before n).mpr haccepted)
    exact hgone (@mem_of_notices (n.run (notices k before)) after _ _ _ hsender)
  · intro h
    refine ⟨by rw [notices_of_not_mem h], ?_⟩
    rintro before n after rfl
    have hbefore : notices k before = k :=
      notices_of_not_mem fun m hm => h m (List.mem_append_left _ hm)
    rw [hbefore]
    exact reaches_self k n

end Notices

/-! ### Two subscribers -/

/-- A session whose two agents are subscribed to a topic. -/
def subscribers : List Call :=
  [.createSession { sessionId := "s1", managerId := "m", roster := ["w", "x"] } "",
    .subscribe "s1" "w" ["t"], .subscribe "s1" "x" ["t"]]

/-- After a notice of the one, only the other is subscribed. -/
theorem unsubscribed_by_notice : ¬ ∀ (calls : List Call) (ns : List Notice),
    Steady (run .start calls).mem ns := by
  intro h
  obtain ⟨hsame, -⟩ := h subscribers [⟨"s1", "w", "t"⟩]
  have hbefore : (run .start subscribers).mem.topicSubscriptions "s1" "t" = ["x", "w"] := by
    decide +kernel
  have hafter : (notices (run .start subscribers).mem [⟨"s1", "w", "t"⟩]).topicSubscriptions
      "s1" "t" = ["x"] := by
    decide +kernel
  rw [hsame, hbefore] at hafter
  cases hafter

end AiMeshChat.Kernel
