import AiMeshChat.Gateway.Events
import AiMeshChat.Lib.Growing
import AiMeshChat.Lib.History

/-!
# Reading events page by page

A consumer starts at cursor 0 and asks one store for page after page, each time with the
cursor it got last and with the same filters; the limit may be another one each time.
Between any two of its pages events are appended or shipped to the store, and others read
it.

Every row that is added has a number greater than all rows before it, and so greater than
any cursor that was handed out. This is all that `Lib/Growing.lean` asks for.
-/

namespace AiMeshChat.Gateway

open Lib EventStore

/-- The number of an event, as a cursor. -/
def RuntimeEvent.number (e : RuntimeEvent) : ℤ := e.eventId

/-! ## What a call adds to the store -/

namespace EventStore

/-- The rows stand in the order of their numbers, none of which is beyond the last one that
was given. -/
structure Numbered (s : EventStore) : Prop where
  ascending : Growing.Ascending RuntimeEvent.number s.events.list
  given : ∀ e ∈ s.events.list, e.number ≤ s.lastId

/-- The store is as it was, or has one more row at its end, with the next number. -/
def Adds (s s' : EventStore) : Prop :=
  s' = s ∨ ∃ e : RuntimeEvent, e.eventId = s.lastId + 1 ∧ s'.events.list = s.events.list ++ [e] ∧
    s'.lastId = s.lastId + 1

variable {s s' : EventStore}

theorem adds_insert {e : RuntimeEvent} (hnew : s.events.get? e.identity = none)
    (hnum : e.eventId = s.lastId + 1) : s.Adds (s.insert e) :=
  .inr ⟨e, hnum, Rows.put_list_of_none hnew, hnum⟩

theorem appendLocal_adds {d : RuntimeEventDraft} {e : RuntimeEvent}
    (h : s.appendLocal d = .ok (e, s')) : s.Adds s' := by
  obtain ⟨-, -, rfl⟩ := appendLocal_eq_ok.mp h
  refine adds_insert (Rows.get?_eq_none.mpr fun r hr hid => ?_) rfl
  -- the next sequence is not that of any row of the stream
  obtain ⟨hhost, hrid, hgen, hseq⟩ := Identity.mk.inj hid
  have hmax := le_maxSequence hr
  rw [hhost, hrid, hgen] at hmax
  have hnext : r.sourceSequence =
    maxSequence s.events s.sourceHost d.runtimeId d.generation + 1 := hseq
  change r.sourceSequence ≤ maxSequence s.events s.sourceHost d.runtimeId d.generation at hmax
  omega

theorem ingestRemote_adds {e : RuntimeEvent} {answer : Option RuntimeEvent}
    (h : s.ingestRemote e = .ok (answer, s')) : s.Adds s' := by
  unfold ingestRemote at h
  split at h
  · cases h
  · split at h
    · cases h
    · split at h
      · cases h
        exact .inl rfl
      · dsimp only at h
        split at h
        · cases h
          exact .inl rfl
        · next hnew =>
          cases h
          exact adds_insert hnew rfl

theorem Numbered.adds (h : s.Numbered) (ha : s.Adds s') : s'.Numbered := by
  rcases ha with rfl | ⟨e, hnum, hlist, hlast⟩
  · exact h
  · refine ⟨?_, fun r hr => ?_⟩
    · rw [hlist]
      refine h.ascending.concat fun r hr => ?_
      have hle := h.given r hr
      unfold RuntimeEvent.number at hle ⊢
      omega
    · rw [hlist] at hr
      rw [hlast]
      rcases List.mem_append.mp hr with hr | hr
      · have hle := h.given r hr
        omega
      · rw [List.mem_singleton.mp hr]
        exact (congrArg Int.ofNat hnum).le

theorem Numbered.swept (h : s.Numbered) (now : ℕ) : (s.sweep now).2.Numbered :=
  ⟨h.ascending.sublist (swept_sublist now _), fun e he => h.given e (mem_of_mem_swept he)⟩

theorem listAfter_eq_ok {cursor limit next : ℤ} {filters : Option (List String)}
    {sessionId runtimeId : String} {events : List RuntimeEvent}
    (h : s.listAfter cursor filters limit sessionId runtimeId = .ok (events, next)) :
    events = Growing.page RuntimeEvent.number (clampLimit limit) cursor
        (s.events.list.filter (selects filters sessionId runtimeId)) ∧
      next = Growing.cursorAfter RuntimeEvent.number cursor events := by
  unfold listAfter at h
  dsimp only at h
  split at h
  · cases h
  · cases h
    refine ⟨?_, rfl⟩
    rw [Growing.page, List.filter_filter]
    rfl

end EventStore

/-! ## A consumer among other callers -/

/-- What a consumer keeps fixed from page to page. -/
structure EventQuery where
  filters : Option (List String) := none
  sessionId : String := ""
  runtimeId : String := ""

/-- A store, and a consumer with its cursor and the pages it has received. -/
structure EventReader where
  store : EventStore
  query : EventQuery
  cursor : ℤ := 0
  pages : List (List RuntimeEvent) := []

/-- One call: an event is appended or shipped, the consumer asks for its next page, or
someone else for any page. -/
inductive EventCall
  | append (d : RuntimeEventDraft)
  | ingest (e : RuntimeEvent)
  | next (limit : ℤ)
  | list (cursor : ℤ) (query : EventQuery) (limit : ℤ)

namespace EventQuery

/-- `list_after` with this query. -/
def ask (q : EventQuery) (s : EventStore) (cursor limit : ℤ) :
    Except GatewayErr (List RuntimeEvent × ℤ) :=
  s.listAfter cursor q.filters limit q.sessionId q.runtimeId

def selects (q : EventQuery) (e : RuntimeEvent) : Bool :=
  EventStore.selects q.filters q.sessionId q.runtimeId e

end EventQuery

namespace EventReader

def start (host : String) (q : EventQuery) : EventReader :=
  { store := { sourceHost := host }, query := q }

/-- A call that raises changes nothing. -/
def step (r : EventReader) : EventCall → EventReader
  | .append d =>
    match r.store.appendLocal d with
    | .ok (_, store) => { r with store := store }
    | .error _ => r
  | .ingest e =>
    match r.store.ingestRemote e with
    | .ok (_, store) => { r with store := store }
    | .error _ => r
  | .next limit =>
    match r.query.ask r.store r.cursor limit with
    | .ok (events, next) => { r with cursor := next, pages := r.pages ++ [events] }
    | .error _ => r
  | .list _ _ _ => r

def run (r : EventReader) (calls : List EventCall) : EventReader := History.after step r calls

/-- The stored events that the query selects, in order. -/
def matching (r : EventReader) : List RuntimeEvent := r.store.events.list.filter r.query.selects

/-- What the consumer may rely on. -/
structure Complete (r : EventReader) : Prop where
  /-- It has received the matching events up to its cursor. -/
  received : r.pages.flatten = r.matching.filter fun e => e.number ≤ r.cursor
  ascending : r.pages.flatten.Pairwise fun e e' => e.eventId < e'.eventId
  /-- A short page leaves no matching event behind. -/
  short : ∀ limit events next, r.query.ask r.store r.cursor limit = .ok (events, next) →
    events.length < clampLimit limit → ∀ e ∈ r.matching, e.number ≤ next

/-! ### The invariant -/

structure Inv (r : EventReader) : Prop where
  numbered : r.store.Numbered
  given : r.cursor ≤ r.store.lastId
  received : r.pages.flatten = Growing.upTo RuntimeEvent.number r.cursor r.matching

variable {r : EventReader}

theorem inv_start (host : String) (q : EventQuery) : (start host q).Inv :=
  ⟨⟨List.Pairwise.nil, fun _ h => absurd h List.not_mem_nil⟩, le_refl _, rfl⟩

theorem Inv.ascending (h : r.Inv) : Growing.Ascending RuntimeEvent.number r.matching :=
  h.numbered.ascending.filter _

/-- An event that is added is beyond the cursor. -/
theorem upTo_adds {s' : EventStore} (h : r.cursor ≤ r.store.lastId) (ha : r.store.Adds s') :
    r.cursor ≤ s'.lastId ∧
      Growing.upTo RuntimeEvent.number r.cursor ({ r with store := s' } : EventReader).matching =
        Growing.upTo RuntimeEvent.number r.cursor r.matching := by
  rcases ha with rfl | ⟨e, hnum, hlist, hlast⟩
  · exact ⟨h, rfl⟩
  · refine ⟨by omega, ?_⟩
    have hmatching : ({ r with store := s' } : EventReader).matching =
        r.matching ++ [e].filter r.query.selects := by
      show s'.events.list.filter _ = _
      rw [hlist, List.filter_append]
      rfl
    rw [hmatching, Growing.upTo_append_of_lt]
    intro x hx
    rw [List.mem_singleton.mp (List.mem_of_mem_filter hx)]
    unfold RuntimeEvent.number
    omega

/-- A page holds the matching events between the cursor and the next one. -/
theorem upTo_next {limit next : ℤ} {events : List RuntimeEvent} (hnum : r.store.Numbered)
    (hask : r.query.ask r.store r.cursor limit = .ok (events, next)) :
    Growing.upTo RuntimeEvent.number next r.matching =
        Growing.upTo RuntimeEvent.number r.cursor r.matching ++ events ∧
      (∀ e ∈ events, r.cursor < e.number) ∧ r.cursor ≤ next ∧
      (r.cursor ≤ r.store.lastId → next ≤ r.store.lastId) := by
  obtain ⟨hevents, hnext⟩ := listAfter_eq_ok hask
  have hin (e : RuntimeEvent) (he : e ∈ events) : e ∈ r.matching ∧ r.cursor < e.number :=
    Growing.mem_page (hevents ▸ he)
  refine ⟨?_, fun e he => (hin e he).2, ?_⟩
  · rw [hnext, hevents]
    exact (Growing.upTo_append_page (hnum.ascending.filter _) _ _).symm
  · rcases @Growing.cursorAfter_cases _ _ RuntimeEvent.number r.cursor events with
      ⟨-, hc⟩ | ⟨e, he, -, hc⟩
    · rw [hnext, hc]
      exact ⟨le_refl _, id⟩
    · rw [hnext, hc]
      obtain ⟨hmem, hlt⟩ := hin e he
      exact ⟨hlt.le, fun _ => hnum.given e (List.mem_of_mem_filter hmem)⟩

/-- What one call does. -/
theorem step_cases (r : EventReader) (c : EventCall) :
    (∃ s', r.store.Adds s' ∧ r.step c = { r with store := s' }) ∨
    ∃ limit events next, r.query.ask r.store r.cursor limit = .ok (events, next) ∧
      r.step c = { r with cursor := next, pages := r.pages ++ [events] } := by
  cases c with
  | append d =>
    simp only [step]
    split
    · next hcall => exact .inl ⟨_, appendLocal_adds hcall, rfl⟩
    · exact .inl ⟨_, .inl rfl, rfl⟩
  | ingest e =>
    simp only [step]
    split
    · next hcall => exact .inl ⟨_, ingestRemote_adds hcall, rfl⟩
    · exact .inl ⟨_, .inl rfl, rfl⟩
  | next limit =>
    simp only [step]
    split
    · next hcall => exact .inr ⟨limit, _, _, hcall, rfl⟩
    · exact .inl ⟨_, .inl rfl, rfl⟩
  | list cursor query limit => exact .inl ⟨_, .inl rfl, rfl⟩

/-- **One call keeps the invariant.** -/
theorem inv_step (c : EventCall) (h : r.Inv) : (r.step c).Inv := by
  obtain ⟨s', ha, hs⟩ | ⟨limit, events, next, hask, hs⟩ := step_cases r c
  · obtain ⟨hgiven, hsame⟩ := upTo_adds h.given ha
    rw [hs]
    exact ⟨h.numbered.adds ha, hgiven, h.received.trans hsame.symm⟩
  · obtain ⟨hupTo, -, -, hgiven⟩ := upTo_next h.numbered hask
    rw [hs]
    refine ⟨h.numbered, hgiven h.given, ?_⟩
    show (r.pages ++ [events]).flatten = Growing.upTo RuntimeEvent.number next r.matching
    rw [List.flatten_append, List.flatten_singleton, h.received, hupTo]

theorem Inv.complete (h : r.Inv) : r.Complete := by
  refine ⟨h.received, ?_, fun limit events next hask hshort e he => ?_⟩
  · rw [h.received]
    refine (h.ascending.filter _).imp fun hlt => ?_
    exact Int.ofNat_lt.mp hlt
  · obtain ⟨hevents, hnext⟩ := listAfter_eq_ok hask
    rw [hnext, hevents]
    rw [hevents] at hshort
    exact Growing.le_cursorAfter_of_short h.ascending hshort he

/-- **Page by page a consumer receives every matching event once and in order**, whatever
is called in between, and a short page leaves nothing behind. -/
theorem pages_complete (host : String) (q : EventQuery) (calls : List EventCall) :
    ((start host q).run calls).Complete :=
  (History.after_invariant (fun _ c h => inv_step c h) (inv_start host q)).complete

/-! ## When old events are pruned -/

/-- A call, or a sweep of the store. -/
inductive PrunedCall
  | call (c : EventCall)
  | sweep (now : ℕ)

def prunedStep (r : EventReader) : PrunedCall → EventReader
  | .call c => r.step c
  | .sweep now => { r with store := (r.store.sweep now).2 }

/-- What the consumer may still rely on. -/
structure Retained (r : EventReader) : Prop where
  numbered : r.store.Numbered
  given : r.cursor ≤ r.store.lastId
  /-- No event comes twice or out of order. -/
  ascending : r.pages.flatten.Pairwise fun e e' => e.number < e'.number
  within : ∀ e ∈ r.pages.flatten, e.number ≤ r.cursor
  /-- What is left of the matching events up to its cursor it has received. -/
  received : (Growing.upTo RuntimeEvent.number r.cursor r.matching).Sublist r.pages.flatten

theorem retained_next {limit next : ℤ} {events : List RuntimeEvent} (h : r.Retained)
    (hask : r.query.ask r.store r.cursor limit = .ok (events, next)) :
    ({ r with cursor := next, pages := r.pages ++ [events] } : EventReader).Retained := by
  obtain ⟨hupTo, hbeyond, hle, hgiven⟩ := upTo_next h.numbered hask
  have hflat : (r.pages ++ [events]).flatten = r.pages.flatten ++ events := by
    rw [List.flatten_append, List.flatten_singleton]
  have hpage : events.Sublist (Growing.upTo RuntimeEvent.number next r.matching) := by
    rw [hupTo]
    exact List.sublist_append_right _ _
  refine ⟨h.numbered, hgiven h.given, ?_, ?_, ?_⟩
  · show List.Pairwise _ (r.pages ++ [events]).flatten
    rw [hflat]
    refine List.pairwise_append.mpr ⟨h.ascending, ?_, fun e he e' he' => ?_⟩
    · exact ((h.numbered.ascending.filter _).filter _).sublist hpage
    · exact (h.within e he).trans_lt (hbeyond e' he')
  · intro e he
    change e ∈ (r.pages ++ [events]).flatten at he
    rw [hflat] at he
    rcases List.mem_append.mp he with he | he
    · exact (h.within e he).trans hle
    · exact (Growing.mem_upTo.mp (hpage.subset he)).2
  · show (Growing.upTo RuntimeEvent.number next r.matching).Sublist (r.pages ++ [events]).flatten
    rw [hupTo, hflat]
    exact h.received.append_right _

theorem retained_step (c : PrunedCall) (h : r.Retained) : (r.prunedStep c).Retained := by
  cases c with
  | call c =>
    obtain ⟨s', ha, hs⟩ | ⟨limit, events, next, hask, hs⟩ := step_cases r c
    · obtain ⟨hgiven, hsame⟩ := upTo_adds h.given ha
      show (r.step c).Retained
      rw [hs]
      exact ⟨h.numbered.adds ha, hgiven, h.ascending, h.within, hsame ▸ h.received⟩
    · show (r.step c).Retained
      rw [hs]
      exact retained_next h hask
  | sweep now =>
    exact ⟨h.numbered.swept now, h.given, h.ascending, h.within,
      (((swept_sublist now _).filter _).filter _).trans h.received⟩

/-- **Pruning costs a consumer only what was pruned.**  Whenever the store is swept between its
pages, no event comes to it twice or out of order, and it has received all that the store still
has up to its cursor. -/
theorem pages_retained (host : String) (q : EventQuery) (calls : List PrunedCall) :
    (History.after prunedStep (start host q) calls).Retained :=
  History.after_invariant (fun _ c h => retained_step c h)
    ⟨(inv_start host q).numbered, le_refl _, .nil, fun _ h => absurd h List.not_mem_nil, .refl _⟩

end EventReader

end AiMeshChat.Gateway
