import AiMeshChat.Stream.Feed

/-!
# A stream of runtime events resumes without loss

A cursor of the stream says how far the runtime events have been sent. Both legs of the
helper rebuild it from the cursor of the subscription: the leg of the mailbox puts its own
part in and keeps the number of the last event, and the leg of the events puts the number of
the event in. So a frame's cursor never says more than the frames up to it have told, and
that is what a client relies on that reads a part of them and starts again from there.

`Inv` says this of the frames in flight, one after the other, and of the cursors of both
sides. `runtime_resumes` is the result.
-/

namespace AiMeshChat.Stream.Feed

open Lib Gateway EventStore Wire.Composite

/-- The number of the last runtime event that a cursor stands for. -/
def runtimeOf (cursor : String) : ℤ := (splitCursor cursor).2

/-- The frame carries the event. -/
def Carries (e : RuntimeEvent) (x : FeedFrame) : Prop :=
  ∃ ev, x = .event ev ∧ ev.source = .runtime ∧ ev.payload = eventDict e

/-- The stream is to send the event. -/
def wants (f : Feed) (e : RuntimeEvent) : Bool := selects none f.client.sessionId f.runtimeId e

/-- The stored events of the stream. -/
def wanted (f : Feed) : List RuntimeEvent := f.store.events.list.filter f.wants

/-- Every stored event of the stream beyond `first` and up to `c` is in one of the frames. -/
def Told (f : Feed) (first : ℤ) (frames : List FeedFrame) (c : ℤ) : Prop :=
  ∀ e ∈ f.wanted, first < e.number → e.number ≤ c → ∃ x ∈ frames, Carries e x

/-- The frames tell all up to `c`, and no event to come has a number up to `c`. -/
structure Reached (f : Feed) (first : ℤ) (frames : List FeedFrame) (c : ℤ) : Prop where
  told : f.Told first frames c
  given : c ≤ max first f.store.lastId

/-- Every frame in flight has a cursor up to which all has been told when it is read; `seen`
are the frames before. -/
def Announced (f : Feed) (first : ℤ) : List FeedFrame → List FeedFrame → Prop
  | _, [] => True
  | seen, x :: rest =>
    (∀ ev, x = .event ev → f.Reached first (seen ++ [x]) (runtimeOf ev.cursor)) ∧
      f.Announced first (seen ++ [x]) rest

variable {f f' : Feed} {first : ℤ} {seen frames fs gs : List FeedFrame} {c : ℤ}

theorem Reached.mono (h : f.Reached first frames c) (hsub : frames ⊆ fs) : f.Reached first fs c where
  told e he hlt hle := by
    obtain ⟨x, hx, hcarries⟩ := h.told e he hlt hle
    exact ⟨x, hsub hx, hcarries⟩
  given := h.given

theorem Reached.append (h : f.Reached first frames c) (fs : List FeedFrame) :
    f.Reached first (frames ++ fs) c := h.mono (List.subset_append_left _ _)

theorem announced_append : f.Announced first seen (fs ++ gs) ↔
    f.Announced first seen fs ∧ f.Announced first (seen ++ fs) gs := by
  induction fs generalizing seen with
  | nil => simp [Announced]
  | cons x fs ih => simp only [List.cons_append, Announced, ih, and_assoc, List.append_assoc,
      List.nil_append]

theorem announced_of_reached (h : f.Reached first seen c)
    (hc : ∀ ev, .event ev ∈ fs → runtimeOf ev.cursor = c) : f.Announced first seen fs := by
  induction fs generalizing seen with
  | nil => trivial
  | cons x fs ih =>
    refine ⟨fun ev hev => ?_, ih (h.append [x]) fun ev hev => hc ev (List.mem_cons_of_mem x hev)⟩
    rw [hc ev (hev ▸ List.mem_cons_self)]
    exact h.append [x]

/-! ## The store -/

/-- The two states are those of one stream. -/
structure SameStream (f f' : Feed) : Prop where
  session : f'.client.sessionId = f.client.sessionId
  runtime : f'.runtimeId = f.runtimeId
  kind : f'.streamKind = f.streamKind

theorem SameStream.wants (h : SameStream f f') : f'.wants = f.wants := by
  funext e
  simp only [Feed.wants, h.session, h.runtime]

/-- What a state that follows may have more in its store: rows with numbers to come. -/
structure Grows (f f' : Feed) : Prop where
  same : SameStream f f'
  rows : ∀ e ∈ f'.store.events.list, e ∈ f.store.events.list ∨ f.store.lastId < e.number
  last : f.store.lastId ≤ f'.store.lastId

theorem Reached.grows (h : f.Reached first frames c) (hg : Grows f f') :
    f'.Reached first frames c where
  told e he hlt hle := by
    obtain ⟨hrow, hwants⟩ := List.mem_filter.mp he
    rw [hg.same.wants] at hwants
    rcases hg.rows e hrow with hold | hnew
    · exact h.told e (List.mem_filter.mpr ⟨hold, hwants⟩) hlt hle
    · -- its number is beyond all that a cursor has stood for
      have hc := h.given
      omega
  given := by
    have hc := h.given
    have hlast := hg.last
    omega

theorem Announced.grows (h : f.Announced first seen fs) (hg : Grows f f') :
    f'.Announced first seen fs := by
  induction fs generalizing seen with
  | nil => trivial
  | cons x fs ih => exact ⟨fun ev hev => (h.1 ev hev).grows hg, ih h.2⟩

theorem grows_of_adds {store : EventStore} (ha : f.store.Adds store) :
    Grows f { f with store := store } := by
  refine ⟨⟨rfl, rfl, rfl⟩, ?_, ?_⟩
  · intro e he
    rcases ha with rfl | ⟨e', hnum, hlist, -⟩
    · exact .inl he
    · rw [show ({ f with store := store } : Feed).store = store from rfl, hlist] at he
      rcases List.mem_append.mp he with hold | hnew
      · exact .inl hold
      · rw [List.mem_singleton.mp hnew]
        refine .inr ?_
        unfold RuntimeEvent.number
        omega
  · rcases ha with rfl | ⟨e', hnum, hlist, hlast⟩
    · exact le_refl _
    · show f.store.lastId ≤ store.lastId
      omega

theorem grows_of_same (h : SameStream f f') (hs : f'.store = f.store) : Grows f f' :=
  ⟨h, fun _ he => .inl (hs ▸ he), hs ▸ le_refl _⟩

/-! ## The cursors that the legs write -/

variable {sub : FeedSubscription} {cursor msgCursor : String}

theorem runtimeOf_mailboxCursor (hk : sub.streamKind ≠ .mailbox)
    (h : advanceCursor sub msgCursor 0 = some cursor) : runtimeOf cursor = runtimeOf sub.cursor := by
  rw [advanceCursor, if_neg hk, if_pos rfl] at h
  rw [runtimeOf, splitCursor, split_make _ h]
  rfl

theorem runtimeOf_eventCursor (hk : sub.streamKind ≠ .mailbox) {n : ℕ} (hn : n ≠ 0)
    (h : advanceCursor sub "" n = some cursor) : runtimeOf cursor = n := by
  rw [advanceCursor, if_neg hk, if_pos rfl, if_neg (by exact_mod_cast hn)] at h
  rw [runtimeOf, splitCursor, split_make _ h]

theorem eventCursor_of_row (hk : sub.streamKind ≠ .mailbox) {n : ℕ} (hn : n ≠ 0) (hrow : n < 2 ^ 63) :
    ∃ cursor, advanceCursor sub "" n = some cursor := by
  rw [advanceCursor, if_neg hk, if_pos rfl, if_neg (by exact_mod_cast hn)]
  exact make_of_short _ (shortInt_of_row hrow)

/-! ## The leg of the mailbox -/

/-- The cursors of the frames so far keep the number of the last event. -/
def Steady (sub : FeedSubscription) (p : FeedPoll) : Prop :=
  ∀ ev, .event ev ∈ p.frames → runtimeOf ev.cursor = runtimeOf sub.cursor

/-- Of both ways in which a loop body can end. -/
def Ended (P : FeedPoll → Prop) : Except FeedPoll FeedPoll → Prop
  | .ok p => P p
  | .error p => P p

theorem feedFrame_eq_event {ev ev' : FeedEvent} (h : .event ev = feedFrame ev') : ev = ev' := by
  unfold feedFrame at h
  split at h
  · exact FeedFrame.event.inj h
  · cases h

variable {agentId : String} {p : FeedPoll}

theorem pollFeedMessage_steady (hk : sub.streamKind ≠ .mailbox) (msg : Json) (h : Steady sub p) :
    Ended (Steady sub) (pollFeedMessage sub agentId msg p) := by
  unfold pollFeedMessage
  split
  · exact h
  · split
    · split
      · exact h
      · split
        · exact h
        · next hcursor =>
          intro ev hev
          rcases List.mem_append.mp hev with hold | hnew
          · exact h ev hold
          · rw [feedFrame_eq_event (List.mem_singleton.mp hnew)]
            exact runtimeOf_mailboxCursor hk hcursor
    · split <;> exact h
    · exact h

theorem pollFeedFile_steady (hk : sub.streamKind ≠ .mailbox) (v : FileView) (h : Steady sub p) :
    Ended (Steady sub) (pollFeedFile sub agentId p v) := by
  unfold pollFeedFile
  split
  · exact h
  · dsimp only
    split
    · exact h
    · split
      · exact pollFeedMessage_steady hk _ h
      · exact h
      · exact h

theorem pollFeedFiles_steady (hk : sub.streamKind ≠ .mailbox) (files : List FileView)
    (h : Steady sub p) : Ended (Steady sub) (files.foldlM (pollFeedFile sub agentId) p) := by
  induction files generalizing p with
  | nil => exact h
  | cons v files ih =>
    rw [List.foldlM_cons]
    have hv := @pollFeedFile_steady sub agentId p hk v h
    cases hp : pollFeedFile sub agentId p v with
    | error p' =>
      rw [hp] at hv
      exact hv
    | ok p' =>
      rw [hp] at hv
      exact ih hv

theorem pollFeedInbox_steady (hk : sub.streamKind ≠ .mailbox) (v : InboxView) (h : Steady sub p) :
    Steady sub (pollFeedInbox sub p v) := by
  unfold pollFeedInbox
  split
  · exact h
  · next files _ =>
    have hfiles := @pollFeedFiles_steady sub v.agentId p hk files h
    split
    · next hp =>
      rw [hp] at hfiles
      exact hfiles
    · next hp =>
      rw [hp] at hfiles
      exact hfiles

theorem pollFeedInboxes_steady (hk : sub.streamKind ≠ .mailbox) (inboxes : List InboxView)
    (h : Steady sub p) : Steady sub (inboxes.foldl (pollFeedInbox sub) p) := by
  induction inboxes generalizing p with
  | nil => exact h
  | cons v inboxes ih => exact ih (pollFeedInbox_steady hk v h)

/-- **The leg of the mailbox leaves the number of the last event alone**, in its frames and in
the subscription. -/
theorem pollFeedMailbox_steady (hk : sub.streamKind ≠ .mailbox) (inboxes : List InboxView) :
    (∀ ev, .event ev ∈ (pollFeedMailbox sub inboxes).2 → runtimeOf ev.cursor = runtimeOf sub.cursor) ∧
      runtimeOf (pollFeedMailbox sub inboxes).1.cursor = runtimeOf sub.cursor := by
  refine ⟨pollFeedInboxes_steady hk inboxes fun ev hev => absurd hev List.not_mem_nil, ?_⟩
  unfold pollFeedMailbox
  dsimp only
  split
  · rfl
  · cases hc : advanceCursor sub _ 0 with
    | none => rfl
    | some cursor => exact runtimeOf_mailboxCursor hk hc

/-! ## The leg of the events -/

/-- What the subscription of a helper shares with its stream. -/
structure Serves (f : Feed) (sub : FeedSubscription) : Prop where
  session : sub.sessionId = f.client.sessionId
  runtime : sub.runtimeId = f.runtimeId
  kind : sub.streamKind = f.streamKind

theorem fetched_eq (h : Serves f sub) : fetched sub f.store = [] ∨
    fetched sub f.store = Growing.page RuntimeEvent.number 200 (runtimeOf sub.cursor) f.wanted := by
  unfold fetched
  dsimp only
  split
  · split
    · next hask =>
      obtain ⟨hpage, -⟩ := listAfter_eq_ok hask
      rw [hpage, h.session, h.runtime]
      exact .inr rfl
    · exact .inl rfl
  · exact .inl rfl

theorem runtimeFrame_eq (hk : sub.streamKind ≠ .mailbox) {e : RuntimeEvent} (hn : e.eventId ≠ 0)
    (hrow : e.eventId < 2 ^ 63) :
    ∃ ev, runtimeFrame sub e = [ev] ∧ ev.source = .runtime ∧ ev.payload = eventDict e ∧
      runtimeOf ev.cursor = e.number := by
  obtain ⟨cursor, hc⟩ := @eventCursor_of_row sub hk _ hn hrow
  refine ⟨⟨sub.requestId, sub.sessionId, cursor, eventDict e, .runtime⟩, ?_, rfl, rfl, ?_⟩
  · rw [runtimeFrame, hc]
  · exact runtimeOf_eventCursor hk hn hc

/-- No frame of the step is longer than a line may be. -/
def fits (f : Feed) : FeedStep → Bool
  | .runtime =>
    match f.conn with
    | some ⟨some sub, _⟩ => ((fetched sub f.store).flatMap (runtimeFrame sub)).all FeedEvent.fits
    | _ => true
  | _ => true

/-- The frames of events. -/
def framesOf (sub : FeedSubscription) (events : List RuntimeEvent) : List FeedFrame :=
  (events.flatMap (runtimeFrame sub)).map feedFrame

theorem framesOf_append (events later : List RuntimeEvent) :
    framesOf sub (events ++ later) = framesOf sub events ++ framesOf sub later := by
  simp [framesOf]

theorem mem_framesOf {events : List RuntimeEvent} {e : RuntimeEvent} (he : e ∈ events)
    {x : FeedFrame} (hx : x ∈ framesOf sub [e]) : x ∈ framesOf sub events := by
  obtain ⟨front, back, rfl⟩ := List.append_of_mem he
  rw [List.append_cons, framesOf_append, framesOf_append]
  exact List.mem_append_left _ (List.mem_append_right _ hx)

/-- Every event of the page has a frame, which carries it and has a cursor with its number. -/
def Framed (sub : FeedSubscription) (page : List RuntimeEvent) : Prop :=
  ∀ e ∈ page, ∃ ev, framesOf sub [e] = [.event ev] ∧ Carries e (.event ev) ∧
    runtimeOf ev.cursor = e.number

theorem framed_page (hk : sub.streamKind ≠ .mailbox) {page : List RuntimeEvent}
    (hrows : ∀ e ∈ page, e.eventId ≠ 0 ∧ e.eventId < 2 ^ 63)
    (hfits : (page.flatMap (runtimeFrame sub)).all FeedEvent.fits = true) : Framed sub page := by
  intro e he
  obtain ⟨hn, hrow⟩ := hrows e he
  obtain ⟨ev, hframe, hsource, hpayload, hnum⟩ := runtimeFrame_eq hk hn hrow
  have hfit : ev.fits = true := by
    refine List.all_eq_true.mp hfits ev (List.mem_flatMap.mpr ⟨e, he, ?_⟩)
    rw [hframe]
    exact List.mem_singleton_self ev
  refine ⟨ev, ?_, ⟨ev, rfl, hsource, hpayload⟩, hnum⟩
  simp [framesOf, hframe, feedFrame, hfit]

section Page

variable {page : List RuntimeEvent} (hold : f.Reached first seen c) (hframed : Framed sub page)
  (hnum : f.store.Numbered) (hpage : page = Growing.page RuntimeEvent.number 200 c f.wanted)

include hold hframed hnum hpage

theorem reached_front {front back : List RuntimeEvent} {e : RuntimeEvent}
    (hsplit : page = front ++ e :: back) :
    f.Reached first (seen ++ framesOf sub (front ++ [e])) e.number where
  told x hx hlt hle := by
    by_cases hc : x.number ≤ c
    · exact (hold.append _).told x hx hlt hc
    · have hin : x ∈ front ++ [e] := Growing.mem_front (hnum.ascending.filter _)
        (hpage.symm.trans hsplit) hx (not_le.mp hc) hle
      have hon : x ∈ page := by
        rw [hsplit, List.append_cons]
        exact List.mem_append_left back hin
      obtain ⟨ev, hframe, hcarries, -⟩ := hframed x hon
      have hev : .event ev ∈ framesOf sub [x] := by
        rw [hframe]
        exact List.mem_singleton_self _
      exact ⟨_, List.mem_append_right _ (mem_framesOf hin hev), hcarries⟩
  given := by
    have hon : e ∈ page := by
      rw [hsplit]
      exact List.mem_append_right front List.mem_cons_self
    rw [hpage] at hon
    have hrow := List.mem_of_mem_filter (Growing.mem_page hon).1
    exact (hnum.given e hrow).trans (le_max_right _ _)

/-- **The frames of a page are announced**: the cursor of each stands for what has been told
when it is read. -/
theorem announced_page {front back : List RuntimeEvent} (hsplit : page = front ++ back) :
    f.Announced first (seen ++ framesOf sub front) (framesOf sub back) := by
  induction back generalizing front with
  | nil => trivial
  | cons e back ih =>
    have hon : e ∈ page := by
      rw [hsplit]
      exact List.mem_append_right front List.mem_cons_self
    obtain ⟨ev, hframe, -, hcursor⟩ := hframed e hon
    have hfront := reached_front hold hframed hnum hpage hsplit
    have hnext := @ih (front ++ [e]) (by rw [hsplit, List.append_cons])
    rw [framesOf_append, ← List.append_assoc, hframe] at hfront hnext
    rw [show e :: back = [e] ++ back from rfl, framesOf_append, hframe]
    refine ⟨fun ev' hev' => ?_, hnext⟩
    rw [← FeedFrame.event.inj hev', hcursor]
    exact hfront

end Page

/-- What holds of the leg of the events: its frames are announced, and its cursor stands for
what has been told when all of them are read. -/
theorem pollRuntimeEvents_announced (hk : sub.streamKind ≠ .mailbox) (hserves : Serves f sub)
    (hnum : f.store.Numbered) (hrows : ∀ e ∈ f.store.events.list, e.eventId ≠ 0 ∧ e.eventId < 2 ^ 63)
    (hold : f.Reached first seen (runtimeOf sub.cursor))
    (hfits : ((fetched sub f.store).flatMap (runtimeFrame sub)).all FeedEvent.fits = true) :
    f.Announced first seen (pollRuntimeEvents sub f.store).2 ∧
      f.Reached first (seen ++ (pollRuntimeEvents sub f.store).2)
        (runtimeOf (pollRuntimeEvents sub f.store).1.cursor) := by
  show f.Announced first seen (framesOf sub (fetched sub f.store)) ∧
    f.Reached first (seen ++ framesOf sub (fetched sub f.store)) _
  rcases fetched_eq hserves with hnone | hpage
  · rw [hnone]
    refine ⟨trivial, ?_⟩
    simp only [pollRuntimeEvents, hnone, List.getLast?_nil]
    exact hold.append _
  · have hin (e : RuntimeEvent) (he : e ∈ fetched sub f.store) : e ∈ f.store.events.list :=
      List.mem_of_mem_filter (Growing.mem_page (hpage ▸ he)).1
    have hframed := framed_page hk (fun e he => hrows e (hin e he)) hfits
    have hall := announced_page hold hframed hnum hpage (List.nil_append _).symm
    refine ⟨by simpa [framesOf] using hall, ?_⟩
    cases hlast : (fetched sub f.store).getLast? with
    | none =>
      simp only [pollRuntimeEvents, hlast]
      exact hold.append _
    | some e =>
      obtain ⟨front, hfront⟩ := List.getLast?_eq_some_iff.mp hlast
      have hon : e ∈ fetched sub f.store := List.mem_of_getLast? hlast
      obtain ⟨hn, hrow⟩ := hrows e (hin e hon)
      obtain ⟨cursor, hcursor⟩ := @eventCursor_of_row sub hk _ hn hrow
      have hreached := reached_front hold hframed hnum hpage hfront
      rw [← hfront] at hreached
      simp only [pollRuntimeEvents, hlast, hcursor, Option.getD_some]
      rw [runtimeOf_eventCursor hk hn hcursor]
      exact hreached

/-! ## The client -/

theorem handle_cases (s : SSHStream) (x : FeedFrame) :
    let s' := (s.handle x.toStream).getD { s with events := [] }
    s'.sessionId = s.sessionId ∧ s'.agentId = s.agentId ∧
      (s'.cursor = s.cursor ∨ ∃ ev, x = .event ev ∧ s'.cursor = ev.cursor) := by
  have hseen (s : SSHStream) (mid : Json) : (s.addSeen mid).sessionId = s.sessionId ∧
      (s.addSeen mid).agentId = s.agentId ∧ (s.addSeen mid).cursor = s.cursor := by
    unfold SSHStream.addSeen SSHStream.pruneSeenIds
    split <;> exact ⟨rfl, rfl, rfl⟩
  cases x with
  | event ev =>
    simp only [FeedFrame.toStream, SSHStream.handle]
    split
    · exact ⟨rfl, rfl, .inl rfl⟩
    · split
      · exact ⟨rfl, rfl, .inl rfl⟩
      · generalize hs₁ : (if ev.toStream.msgId.truthy then s.addSeen ev.toStream.msgId else s) = s₁
        obtain ⟨hsid, hagent, hcursor⟩ : s₁.sessionId = s.sessionId ∧ s₁.agentId = s.agentId ∧
            s₁.cursor = s.cursor := by
          rw [← hs₁]
          split
          · exact hseen s _
          · exact ⟨rfl, rfl, rfl⟩
        split
        · exact ⟨hsid, hagent, .inr ⟨ev, rfl, rfl⟩⟩
        · exact ⟨hsid, hagent, .inl hcursor⟩
  | _ => exact ⟨rfl, rfl, .inl rfl⟩

/-! ## The invariant -/

/-- Of a connection: the frames in flight are announced, and the subscription stands for all
frames together. -/
structure ConnInv (f : Feed) (first : ℤ) (k : FeedConn) : Prop where
  announced : f.Announced first f.received k.pending
  serves : ∀ sub, k.sub = some sub → Serves f sub
  reached : ∀ sub, k.sub = some sub →
    f.Reached first (f.received ++ k.pending) (runtimeOf sub.cursor)

structure Inv (first : ℤ) (f : Feed) : Prop where
  kind : f.streamKind ≠ .mailbox
  numbered : f.store.Numbered
  /-- The database gives row numbers from 1 on, of 63 bits. -/
  rows : ∀ e ∈ f.store.events.list, e.eventId ≠ 0
  small : f.store.lastId < 2 ^ 63
  client : f.Reached first f.received (runtimeOf f.client.cursor)
  conn : ∀ k, f.conn = some k → f.ConnInv first k

theorem ConnInv.grows {k : FeedConn} (h : f.ConnInv first k) (hg : Grows f f')
    (hr : f'.received = f.received) : f'.ConnInv first k where
  announced := by
    rw [hr]
    exact h.announced.grows hg
  serves sub hsub := by
    obtain ⟨hsid, hrt, hkind⟩ := h.serves sub hsub
    exact ⟨hsid.trans hg.same.session.symm, hrt.trans hg.same.runtime.symm,
      hkind.trans hg.same.kind.symm⟩
  reached sub hsub := by
    rw [hr]
    exact (h.reached sub hsub).grows hg

theorem Inv.grows (h : Inv first f) {store : EventStore} (ha : f.store.Adds store)
    (hfull : f.full = false) : Inv first { f with store := store } := by
  have hg := grows_of_adds ha
  have hroom : f.store.lastId + 1 < 2 ^ 63 := not_le.mp (of_decide_eq_false hfull)
  refine ⟨h.kind, h.numbered.adds ha, ?_, ?_, h.client.grows hg, fun k hk => (h.conn k hk).grows hg rfl⟩
  · rcases ha with rfl | ⟨e', hnum, hlist, -⟩
    · exact h.rows
    · intro e he
      rw [show ({ f with store := store } : Feed).store = store from rfl, hlist] at he
      rcases List.mem_append.mp he with hold | hnew
      · exact h.rows e hold
      · rw [List.mem_singleton.mp hnew]
        omega
  · rcases ha with rfl | ⟨e', -, -, hlast⟩
    · exact h.small
    · show store.lastId < 2 ^ 63
      omega

theorem Inv.sweep (h : Inv first f) (now : ℕ) :
    Inv first { f with store := (f.store.sweep now).2 } := by
  have hsub : ∀ e ∈ (f.store.sweep now).2.events.list, e ∈ f.store.events.list :=
    fun e he => mem_of_mem_swept he
  have hg : Grows f { f with store := (f.store.sweep now).2 } :=
    ⟨⟨rfl, rfl, rfl⟩, fun e he => .inl (hsub e he), le_refl _⟩
  exact ⟨h.kind, h.numbered.swept now, fun e he => h.rows e (hsub e he), h.small,
    h.client.grows hg, fun k hk => (h.conn k hk).grows hg rfl⟩

theorem Inv.connect (h : Inv first f) (requestId : String) :
    Inv first { f with conn := some (f.subscribe requestId) } := by
  have hg : Grows f { f with conn := some (f.subscribe requestId) } :=
    grows_of_same ⟨rfl, rfl, rfl⟩ rfl
  refine ⟨h.kind, h.numbered, h.rows, h.small, h.client.grows hg, ?_⟩
  rintro k hk
  obtain rfl := Option.some.inj hk
  refine ConnInv.grows ?_ hg rfl
  unfold subscribe
  split
  · exact ⟨⟨nofun, trivial⟩, nofun, nofun⟩
  · split
    · exact ⟨⟨nofun, trivial⟩, nofun, nofun⟩
    · refine ⟨⟨nofun, trivial⟩, ?_, ?_⟩
      · rintro sub hsub
        obtain rfl := Option.some.inj hsub
        exact ⟨rfl, rfl, rfl⟩
      · rintro sub hsub
        obtain rfl := Option.some.inj hsub
        exact h.client.append _

theorem Inv.leg (h : Inv first f) {run : FeedSubscription → FeedSubscription × List FeedFrame}
    (hrun : ∀ sub pending, f.conn = some ⟨some sub, pending⟩ → Serves f sub →
      f.Reached first (f.received ++ pending) (runtimeOf sub.cursor) →
      f.Announced first (f.received ++ pending) (run sub).2 ∧ Serves f (run sub).1 ∧
        f.Reached first (f.received ++ pending ++ (run sub).2) (runtimeOf (run sub).1.cursor)) :
    Inv first (f.leg run) := by
  unfold Feed.leg
  split
  · next sub pending hconn =>
    have hk := h.conn _ hconn
    obtain ⟨hann, hserves, hreached⟩ := hrun sub pending hconn (hk.serves sub rfl) (hk.reached sub rfl)
    have hg : Grows f { f with conn := some ⟨some (run sub).1, pending ++ (run sub).2⟩ } :=
      grows_of_same ⟨rfl, rfl, rfl⟩ rfl
    refine ⟨h.kind, h.numbered, h.rows, h.small, h.client.grows hg, ?_⟩
    rintro k hk'
    obtain rfl := Option.some.inj hk'
    refine ConnInv.grows ⟨announced_append.mpr ⟨hk.announced, hann⟩, ?_, ?_⟩ hg rfl
    · rintro sub' hsub
      obtain rfl := Option.some.inj hsub
      exact hserves
    · rintro sub' hsub
      obtain rfl := Option.some.inj hsub
      rw [← List.append_assoc]
      exact hreached
  · exact h

theorem Inv.readFrame (h : Inv first f) : Inv first f.readFrame := by
  unfold Feed.readFrame
  split
  · next sub x pending hconn =>
    have hk := h.conn _ hconn
    obtain ⟨hsid, -, hcursor⟩ := handle_cases f.client x
    set client := (f.client.handle x.toStream).getD { f.client with events := [] } with hclient
    have hg : Grows f { f with
        conn := some ⟨sub, pending⟩
        received := f.received ++ [x]
        client := client } := grows_of_same ⟨hsid, rfl, rfl⟩ rfl
    refine ⟨h.kind, h.numbered, h.rows, h.small, ?_, ?_⟩
    · refine Reached.grows ?_ hg
      show f.Reached first (f.received ++ [x]) (runtimeOf client.cursor)
      rcases hcursor with hkept | ⟨ev, hev, hadopted⟩
      · rw [hkept]
        exact h.client.append [x]
      · rw [hadopted]
        exact hk.announced.1 ev hev
    · rintro k hk'
      obtain rfl := Option.some.inj hk'
      refine ⟨hk.announced.2.grows hg, fun sub' hsub => ?_, fun sub' hsub => ?_⟩
      · obtain ⟨hs, hr, hkind⟩ := hk.serves sub' hsub
        exact ⟨hs.trans hsid.symm, hr, hkind⟩
      · have hreached := hk.reached sub' hsub
        rw [List.append_cons] at hreached
        exact hreached.grows hg
  · exact h

/-- **One step keeps the invariant.** -/
theorem inv_step (a : FeedStep) (h : Inv first f) (hfits : f.fits a = true) :
    Inv first (f.step a) := by
  have hgrown {store : EventStore} (ha : f.store.Adds store) :
      Inv first (if f.full then f else { f with store := store }) := by
    split
    · exact h
    · next hfull => exact h.grows ha (by simpa using hfull)
  cases a with
  | append d =>
    simp only [step]
    split
    · next hcall => exact hgrown (appendLocal_adds hcall)
    · exact h
  | ingest e =>
    simp only [step]
    split
    · next hcall => exact hgrown (ingestRemote_adds hcall)
    · exact h
  | sweep now => exact h.sweep now
  | connect requestId => exact h.connect requestId
  | mailbox inboxes =>
    simp only [step]
    split
    · exact h
    · refine h.leg fun sub pending hconn hserves hreached => ?_
      have hk : sub.streamKind ≠ .mailbox := hserves.kind ▸ h.kind
      obtain ⟨hframes, hcursor⟩ := pollFeedMailbox_steady hk inboxes
      refine ⟨announced_of_reached hreached hframes, ⟨hserves.session, hserves.runtime, hserves.kind⟩,
        ?_⟩
      rw [hcursor]
      exact hreached.append _
  | runtime =>
    simp only [step]
    split
    · exact h
    · refine h.leg fun sub pending hconn hserves hreached => ?_
      have hk : sub.streamKind ≠ .mailbox := hserves.kind ▸ h.kind
      have hrows (e : RuntimeEvent) (he : e ∈ f.store.events.list) :
          e.eventId ≠ 0 ∧ e.eventId < 2 ^ 63 := by
        have hgiven : e.eventId ≤ f.store.lastId := Int.ofNat_le.mp (h.numbered.given e he)
        exact ⟨h.rows e he, lt_of_le_of_lt hgiven h.small⟩
      have hfit : ((fetched sub f.store).flatMap (runtimeFrame sub)).all FeedEvent.fits = true := by
        simpa only [fits, hconn] using hfits
      obtain ⟨hann, hall⟩ := pollRuntimeEvents_announced hk hserves h.numbered hrows hreached hfit
      exact ⟨hann, ⟨hserves.session, hserves.runtime, hserves.kind⟩, hall⟩
  | heartbeat =>
    refine h.leg fun sub pending hconn hserves hreached => ?_
    exact ⟨⟨nofun, trivial⟩, hserves, hreached.append _⟩
  | receive => exact h.readFrame

theorem inv_start (host : String) (client : SSHStream) {kind : StreamKind} (hkind : kind ≠ .mailbox)
    (runtimeId : String) :
    Inv (runtimeOf client.cursor) (start host client kind runtimeId) where
  kind := hkind
  numbered := ⟨List.Pairwise.nil, fun _ h => absurd h List.not_mem_nil⟩
  rows _ h := absurd h List.not_mem_nil
  small := Nat.two_pow_pos 63
  client := ⟨fun _ h => absurd h List.not_mem_nil, le_max_left _ _⟩
  conn := nofun

/-- **The leg of the events resumes without loss.**  Whatever happens to the store and to the
inboxes, and wherever connections break off, every stored event of the stream from the first
cursor up to that of the client has been sent in a frame that the client has received. -/
theorem runtime_resumes (host : String) (client : SSHStream) {kind : StreamKind}
    (hkind : kind ≠ .mailbox) (runtimeId : String) (steps : List FeedStep)
    (hfits : History.Admits step (fun f a => f.fits a = true) (start host client kind runtimeId) steps) :
    let f := (start host client kind runtimeId).run steps
    ∀ e ∈ f.store.events.list, f.wants e = true → runtimeOf client.cursor < e.number →
      e.number ≤ runtimeOf f.client.cursor → ∃ x ∈ f.received, Carries e x := by
  intro f e he hwants hlt hle
  have hinv : Inv (runtimeOf client.cursor) f :=
    hfits.invariant (fun _ a h hfit => inv_step a h hfit) (inv_start host client hkind runtimeId)
  exact hinv.client.told e (List.mem_filter.mpr ⟨he, hwants⟩) hlt hle

/-- A message with a cursor, new in the inbox of `a`. -/
def inboxOfOne : List InboxView :=
  [⟨"a", some [⟨"m.json", some (1, 1),
    .json (.obj [("msg_id", .str "m"), ("_cursor", .str "7/000001")])⟩]⟩]

def turn : RuntimeEventDraft := { runtimeId := "r", sessionId := "s", kind := "TURN_STARTED" }

/-- The connection breaks off between the frame of a message and that of an event. -/
def brokenOff : List FeedStep :=
  [.append turn, .connect "q1", .mailbox inboxOfOne, .runtime, .receive, .receive, .connect "q2",
    .runtime, .receive, .receive]

theorem runtime_resumes_broken_off :
    let f := (start "h" { sessionId := "s", agentId := "a", cursor := "0" } .all "").run brokenOff
    (f.received.length = 4 ∧ runtimeOf f.client.cursor = 1) ∧
      ∀ e ∈ f.store.events.list, f.wants e = true → runtimeOf "0" < e.number →
        e.number ≤ runtimeOf f.client.cursor → ∃ x ∈ f.received, Carries e x :=
  ⟨by decide +kernel, runtime_resumes "h" _ (by decide) "" brokenOff
    ⟨rfl, rfl, rfl, by decide +kernel, rfl, rfl, rfl, by decide +kernel, rfl, rfl, trivial⟩⟩

end AiMeshChat.Stream.Feed
