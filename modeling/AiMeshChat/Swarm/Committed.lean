import AiMeshChat.Swarm.Stuck
import Mathlib.Data.List.Perm.Subperm

/-!
# Committed entries and temporary files

A delivery writes its envelope to `.tmp-<mid>.json` and renames it. The listing of a
session directory has no way to tell the two apart, so `pending` lists a temporary file
that holds a whole envelope, and `flush` takes it for an entry of its own. One that is
torn is passed over, and so is one with a marker.
-/

namespace AiMeshChat.Swarm

open Lib

/-! ## `pending` -/

/-- The loop of `pending` over a session directory. -/
def pendingEntries (sid : String) : List String → Call (List Envelope)
  | [] => .ret []
  | mid :: mids => do
    let e ← look (sid, mid)
    let rest ← pendingEntries sid mids
    return e.pending?.toList ++ rest

/-- The loop over the sessions. -/
def pendingSessions : List String → Call (List Envelope)
  | [] => .ret []
  | sid :: sids => do
    let found ← pendingEntries sid (← Prog.op (Op.glob sid .envelopes))
    let rest ← pendingSessions sids
    return found ++ rest

/-- `pending`: of one session, or of all. -/
def pending (sessionId : Option String) : Call (List Envelope) :=
  match sessionId.filter (· ≠ "") with
  | some sid => pendingSessions [sid]
  | none => do pendingSessions (← Prog.op Op.sessions)

/-! ## Deliveries under way -/

/-- The file that the operation works on is there. -/
def Op.Finds (s : Site) : Op → Prop
  | .publish k => (s.entry (tmpKey k)).envelope.isSome
  | .file k (.putEnvelope _) => (s.entry k).envelope.isSome
  | _ => True

/-- The keys of the temporary files after an operation: one is opened, and another one
renamed to the envelope of its message. -/
def tempsAfter (o : Op) (c : Choice) (T : Set Key) : Set Key :=
  match o with
  | .openTmp k => if c.fault.isNone then insert (tmpKey k) T else T
  | .publish k => T \ {k, tmpKey k}
  | _ => T

/-- An outbox that deliveries have written to, and the keys of its temporary files. Any
number of deliveries may be under way or cut off: each of their operations may come at any
time. A file that was renamed before it was written to the end is written where it is now;
the memory is that of some process. -/
inductive Laid : Site → Set Key → Prop
  | start {s : Site} (hentries : s.entries = .empty) : Laid s ∅
  | step {s : Site} {T : Set Key} {o : Op} {k : Key} {w : Option HostSpec} (h : Laid s T)
      (c : Choice) (ho : o.Delivers k w) (hfinds : o.Finds s) :
      Laid (s.next o c) (tempsAfter o c T)
  | written {s : Site} {T : Set Key} {k : Key} (h : Laid s T) (x : Content)
      (hfile : (s.entry k).envelope.isSome) :
      Laid (s.setEntry k { s.entry k with envelope := some x }) T
  | elsewhere {s : Site} {T : Set Key} (h : Laid s T) (m : Memory) (d : ℕ) :
      Laid { s with mem := m, clock := s.clock + d } T

/-! ## What `pending` and `flush` may touch -/

/-- The operation sends the message `k`, marks it, counts an attempt, or moves it to the
dead letter. -/
def Op.Handles (k : Key) : Op → Prop
  | .getTransport k' _ => k' = k
  | .getCapabilities k' _ => k' = k
  | .mailbox k' _ _ => k' = k
  | .localMailbox k' _ => k' = k
  | .appendHistory k' => k' = k
  | .failed k' _ => k' = k
  | .file k' f => k' = k ∧ (f = .mark ∨ f = .mkStatus ∨ f = .bury ∨ f = .buryStatus ∨
      ∃ text, f = .putReason text)
  | _ => False

/-- How often the message was given to a transport. -/
def sends (k : Key) (s : Site) : ℕ := s.trace.countP fun x => x.2.isSend k

/-- `pending` and `flush` consider the committed entries, each of them once, and no other
file. -/
structure OnlyCommitted (T : Set Key) (s : Site) : Prop where
  listed : ∀ sessionId r t, (pending sessionId).Runs world 0 (fun _ => True) s r t →
    ∃ ks : List Key, ks.Nodup ∧
      (∀ k, k ∈ ks ↔ Visits sessionId k s ∧ k ∉ T ∧ (s.entry k).pending?.isSome) ∧
      r = .ok (ks.filterMap fun k => (s.entry k).pending?)
  spared : ∀ cfg sessionId t, (flush cfg sessionId).Reaches world 0 (fun _ => True) s t →
    Grown (fun o => ∀ k ∈ T, ¬ o.Handles k) s t
  once : ∀ cfg sessionId t k, (flush cfg sessionId).Reaches world 0 (fun _ => True) s t →
    sends k t ≤ sends k s + 1
  served : ∀ cfg sessionId r t k, (flush cfg sessionId).Runs world 0 (fun _ => True) s r t →
    k ∉ T → Waiting k s → Visits sessionId k s → Attempted k s t

/-- No temporary file in a session directory holds a whole envelope without a marker. -/
def NoWholeTemp (T : Set Key) (s : Site) : Prop :=
  ∀ k ∈ T, k.1 ≠ "" → ∀ env, (s.entry k).envelope = some (.json env) → (s.entry k).delivered.isSome

/-! ## What `pending` lists -/

section Pending

variable {s t : Site} {P : Choice → Prop} {k : Key}

/-- The keys of the envelopes that `pending` finds in the sessions. -/
def pendingKeys (s : Site) (sids : List String) : List Key :=
  sids.flatMap fun sid =>
    ((s.ids sid .envelopes).map (sid, ·)).filter fun k => (s.entry k).pending?.isSome

theorem Entry.envelope_of_pending {e : Entry} (h : e.pending?.isSome) : e.envelope.isSome := by
  unfold Entry.pending? at h
  split at h
  · next henv _ =>
    rw [henv]
    rfl
  · cases h

theorem mem_pendingKeys {sids : List String} :
    k ∈ pendingKeys s sids ↔ k.1 ∈ sids ∧ (s.entry k).pending?.isSome := by
  simp only [pendingKeys, List.mem_flatMap, List.mem_filter, List.mem_map]
  constructor
  · rintro ⟨sid, hsid, ⟨mid, -, rfl⟩, hp⟩
    exact ⟨hsid, hp⟩
  · rintro ⟨hsid, hp⟩
    exact ⟨k.1, hsid, ⟨k.2, mem_ids s |>.mpr (Entry.envelope_of_pending hp), rfl⟩, hp⟩

theorem ids_nodup (s : Site) (sid : String) (g : Glob) : (s.ids sid g).Nodup := by
  rw [Site.ids, (List.perm_insertionSort _ _).nodup_iff]
  refine List.Nodup.map_on ?_ ((Table.keysWith_nodup _ _).filter _)
  intro k hk k' hk' heq
  have h₁ : k.1 = sid := of_decide_eq_true (List.mem_filter.mp hk).2
  have h₂ : k'.1 = sid := of_decide_eq_true (List.mem_filter.mp hk').2
  exact Prod.ext (h₁.trans h₂.symm) heq

theorem sessionDirs_nodup (s : Site) : s.sessionDirs.Nodup := by
  rw [Site.sessionDirs, (List.perm_insertionSort _ _).nodup_iff]
  exact List.nodup_dedup _

theorem pendingKeys_nodup {sids : List String} (h : sids.Nodup) : (pendingKeys s sids).Nodup := by
  refine List.nodup_flatMap.mpr ⟨fun sid _ => ?_, ?_⟩
  · exact ((ids_nodup s sid .envelopes).map fun _ _ heq => (Prod.mk.inj heq).2).filter _
  · refine h.imp fun hne => ?_
    intro k hk hk'
    obtain ⟨mid, -, rfl⟩ := List.mem_map.mp (List.mem_filter.mp hk).1
    obtain ⟨mid', -, heq⟩ := List.mem_map.mp (List.mem_filter.mp hk').1
    exact hne (Prod.mk.inj heq).1.symm

theorem pendingEntries_total {sid : String} (mids : List String) (ht : t.entries = s.entries) :
    (pendingEntries sid mids).Total world 0 P (fun _ => True) t fun r u =>
      u.entries = s.entries ∧ r = .ok (mids.filterMap fun mid => (s.entry (sid, mid)).pending?) := by
  induction mids generalizing t with
  | nil => exact Prog.total_ret trivial ⟨ht, rfl⟩
  | cons mid mids ih =>
    refine op_total trivial fun c _ => ?_
    have hlook : (t.tick (.look (sid, mid)) c).answer c (.look (sid, mid)) = s.entry (sid, mid) := by
      show t.entries.get _ = s.entries.get _
      rw [ht]
    rw [hlook]
    refine (ih (t := t.next (.look (sid, mid)) c) ht).bind ?_ ?_
    · rintro rest u - ⟨hu, hrest⟩
      cases hrest
      refine Prog.total_ret trivial ⟨hu, ?_⟩
      rw [List.filterMap_cons]
      cases (s.entry (sid, mid)).pending? <;> rfl
    · rintro e u - ⟨-, he⟩
      cases he

theorem pendingSessions_total (sids : List String) (ht : t.entries = s.entries) :
    (pendingSessions sids).Total world 0 P (fun _ => True) t fun r _ =>
      r = .ok ((pendingKeys s sids).filterMap fun k => (s.entry k).pending?) := by
  induction sids generalizing t with
  | nil => exact Prog.total_ret trivial rfl
  | cons sid sids ih =>
    refine op_total trivial fun c _ => ?_
    have hglob : (t.tick (.glob sid .envelopes) c).answer c (.glob sid .envelopes) =
        s.ids sid .envelopes := by
      show Site.ids _ _ _ = _
      simp only [Site.ids, Site.tick, ht]
    rw [hglob]
    refine (pendingEntries_total (t := t.next (.glob sid .envelopes) c) _ ht).bind ?_ ?_
    · rintro found u - ⟨hu, hfound⟩
      cases hfound
      refine (ih hu).bind ?_ ?_
      · rintro rest v - hrest
        cases hrest
        refine Prog.total_ret trivial (congrArg Except.ok ?_)
        have hcons : pendingKeys s (sid :: sids) =
            ((s.ids sid .envelopes).map (sid, ·)).filter (fun k => (s.entry k).pending?.isSome) ++
              pendingKeys s sids := List.flatMap_cons
        rw [hcons, List.filterMap_append]
        congr 1
        rw [List.filterMap_filter, List.filterMap_map]
        refine List.filterMap_congr fun mid _ => ?_
        simp only [Function.comp_apply]
        cases (s.entry (sid, mid)).pending? <;> rfl
      · rintro e v - he
        cases he
    · rintro e u - ⟨-, he⟩
      cases he

/-- The sessions that a call goes through. -/
def sessionsOf (sessionId : Option String) (s : Site) : List String :=
  match sessionId.filter (· ≠ "") with
  | some sid => [sid]
  | none => s.sessionDirs

theorem mem_sessionsOf {sessionId : Option String} :
    k.1 ∈ sessionsOf sessionId s ↔ Visits sessionId k s := by
  unfold sessionsOf Visits
  cases sessionId.filter (· ≠ "") with
  | none => exact Iff.rfl
  | some sid => exact List.mem_singleton.trans eq_comm

theorem sessionsOf_nodup (sessionId : Option String) (s : Site) :
    (sessionsOf sessionId s).Nodup := by
  unfold sessionsOf
  split
  · exact List.nodup_singleton _
  · exact sessionDirs_nodup s

/-- `pending` lists what waits in the sessions that it goes through. -/
theorem pending_total (sessionId : Option String) :
    (pending sessionId).Total world 0 P (fun _ => True) s fun r _ =>
      r = .ok ((pendingKeys s (sessionsOf sessionId s)).filterMap fun k => (s.entry k).pending?) := by
  unfold pending sessionsOf
  split
  · exact pendingSessions_total _ rfl
  · exact op_total trivial fun c _ => pendingSessions_total (t := s.next .sessions c) _ rfl

end Pending

/-! ## What `flush` spares -/

section Spared

variable {T : Set Key} {s₀ s : Site} {P : Choice → Prop} {k : Key} {cfg : Config} {o : Op}
  {c : Choice}

theorem pending?_eq_none {e : Entry} :
    e.pending? = none ↔ ∀ env, e.envelope = some (.json env) → e.delivered.isSome := by
  unfold Entry.pending?
  constructor
  · intro h env henv
    rw [henv] at h
    cases hd : e.delivered with
    | none =>
      rw [hd] at h
      cases h
    | some m => rfl
  · intro h
    split
    · next env henv hd =>
      have hmarked := h env henv
      rw [hd] at hmarked
      cases hmarked
    · rfl

/-- The operation is none on a file in `T`. -/
def Op.Leaves (T : Set Key) (o : Op) : Prop := ∀ k ∈ T, ¬ o.Handles k

/-- Nothing was done to a file in `T` since `s₀`, and none of them waits. -/
structure Sparing (T : Set Key) (s₀ s : Site) : Prop where
  grown : Grown (Op.Leaves T) s₀ s
  quiet : ∀ k ∈ T, k.1 ≠ "" → (s.entry k).pending? = none

theorem Op.Idle.leaves (h : o.Idle) : o.Leaves T := by
  intro k _ hk
  cases o <;> first | exact h.elim | exact hk.elim

theorem Op.Reviews.leaves (h : o.Reviews k) : o.Leaves T := by
  intro k' _ hk'
  cases o with
  | file k₁ f =>
    obtain ⟨-, hf⟩ := hk'
    cases f <;> first | exact h.elim | simp at hf
  | _ => first | exact h.elim | exact hk'.elim

theorem Op.Retries.handles {k' : Key} (h : o.Retries k) (hk' : o.Handles k') : k' = k := by
  cases o with
  | file k₁ f => exact hk'.1.symm.trans h.1
  | appendHistory k₁ => exact hk'.symm.trans h
  | failed k₁ text => exact hk'.symm.trans h
  | getTransport k₁ host => obtain ⟨w, hs⟩ := h; exact hk'.symm.trans hs.1
  | getCapabilities k₁ host => obtain ⟨w, hs⟩ := h; exact hk'.symm.trans hs.1
  | mailbox k₁ host args => obtain ⟨w, hs⟩ := h; exact hk'.symm.trans hs.1
  | localMailbox k₁ args => obtain ⟨w, hs⟩ := h; exact hk'.symm.trans hs.1
  | _ => exact hk'.elim

theorem Sparing.still (h : Sparing T s₀ s) (he : ∀ k, (s.next o c).entry k = s.entry k)
    (ho : o.Idle) : Sparing T s₀ (s.next o c) where
  grown := h.grown.next ho.leaves
  quiet k hk hsid := by
    rw [he]
    exact h.quiet k hk hsid

theorem Sparing.file (h : Sparing T s₀ s) {f : FileOp} (ho : (Op.file k f).Leaves T)
    (hf : k ∈ T → k.1 ≠ "" → (f.apply (s.clock + c.delay) (s.entry k)).pending? = none) :
    Sparing T s₀ (s.next (.file k f) c) where
  grown := h.grown.next ho
  quiet k' hk' hsid := by
    rw [Site.entry_next_file]
    split
    · next heq =>
      rw [heq] at hk' hsid
      exact hf hk' hsid
    · exact h.quiet k' hk' hsid

/-- What is in `T` is passed over. -/
theorem Sparing.pass_total (h : Sparing T s₀ s) (hk : k ∈ T) (hsid : k.1 ≠ "") :
    (flushEntry cfg k).Total world 0 P (Grown (Op.Leaves T) s₀) s fun r t =>
      Sparing T s₀ t ∧ Fine True r := by
  have hgrown : (eligible k).Total world 0 P (Grown (Op.Leaves T) s₀) s fun _ _ => True :=
    (bounded_total (J := Grown (Op.Leaves T) s₀) eligible_reviews
      (fun _ _ _ ho _ ht => ht.next ho.leaves) h.grown).mono (fun _ h => h) fun _ _ _ _ => trivial
  refine ((hgrown.meet (eligible_total s)).mono (fun _ h => h.1) fun _ _ _ h => h.2).bind ?_ ?_
  · rintro b t hI ⟨hprobed, b', ⟨⟩, hdue, -⟩
    have hpending : (t.entry k).pending? = none := by
      have hsame : (t.entry k).pending? = (s.entry k).pending? := by
        rw [hprobed.entry.rest]
        rfl
      rw [hsame]
      exact h.quiet k hk hsid
    have ht : Sparing T s₀ t := by
      refine ⟨hI, fun k' hk' hsid' => ?_⟩
      by_cases heq : k' = k
      · rw [heq]
        exact hpending
      · rw [hprobed.others k' heq]
        exact h.quiet k' hk' hsid'
    cases b with
    | false => exact Prog.total_ret hI ⟨ht, .inl trivial⟩
    | true =>
      -- the entry is due, so it has no marker, and then its envelope is torn
      have htorn : (t.entry k).target? = none := by
        unfold Entry.target?
        split
        · next env henv =>
          have hmarked := pending?_eq_none.mp hpending env henv
          rw [(hdue rfl).delivered] at hmarked
          cases hmarked
        · rfl
      refine op_total hI fun c _ => ?_
      have hlook : (t.tick (.look k) c).answer c (.look k) = t.entry k := rfl
      rw [hlook, htorn]
      have ht' : Sparing T s₀ (t.next (.look k) c) := ht.still (fun _ => rfl) trivial
      exact Prog.total_ret ht'.grown ⟨ht', .inl trivial⟩
  · rintro e t - ⟨-, b', hb', -⟩
    cases hb'

theorem Sparing.flushEntry_total (h : Sparing T s₀ s) (hsid : k.1 ≠ "") :
    (flushEntry cfg k).Total world 0 P (Grown (Op.Leaves T) s₀) s fun r t =>
      Sparing T s₀ t ∧ Fine True r := by
  by_cases hk : k ∈ T
  · exact h.pass_total hk hsid
  · refine (bounded_total (J := Sparing T s₀) (flushEntry_bounded cfg) ?_ h).mono
      (fun _ h => h.grown) fun _ _ _ h => ⟨h, .inl trivial⟩
    intro o c t ho _ ht
    refine ⟨ht.grown.next fun k' hk' hh => hk (ho.handles hh ▸ hk'), fun k' hk' hsid' => ?_⟩
    have hne : k ≠ k' := fun heq => hk (heq ▸ hk')
    rw [entry_next_retries ho hne]
    exact ht.quiet k' hk' hsid'

/-! ### The sweep -/

theorem sweep_spares {f : FileOp} (hf : f = .unmark ∨ f = .unlinkEnvelope ∨
    (∃ file, f = .unlinkStatus file) ∨ f = .rmStatus) : (Op.file k f).Leaves T := by
  rintro k' - ⟨-, hk'⟩
  rcases hf with rfl | rfl | ⟨file, rfl⟩ | rfl <;> simp at hk'

theorem Sparing.sweepMarker (h : Sparing T s₀ s) (cutoff : ℤ) :
    (sweepMarker cutoff k).Total world 0 P (Grown (Op.Leaves T) s₀) s (Returning (Sparing T s₀)) := by
  refine op_total h.grown fun c _ => ?_
  have hlook : (s.tick (.look k) c).answer c (.look k) = s.entry k := rfl
  rw [hlook]
  have h₁ : Sparing T s₀ (s.next (.look k) c) := h.still (fun _ => rfl) trivial
  cases hd : (s.entry k).delivered with
  | none => exact Prog.total_ret h₁.grown ⟨h₁, 0, rfl⟩
  | some m =>
    show (if cutoff ≤ (m : ℤ) then (Prog.ret 0 : Call ℕ) else _).Total world 0 P _ _ _
    split
    · exact Prog.total_ret h₁.grown ⟨h₁, 0, rfl⟩
    · refine op_total h₁.grown fun c₂ _ => ?_
      have hgrown₂ := h₁.grown.next (c := c₂) (sweep_spares (k := k) (.inl rfl))
      refine op_total hgrown₂ fun c₃ _ => ?_
      have hgrown₃ := hgrown₂.next (o := .look k) (c := c₃) (Op.Idle.leaves trivial)
      have hunmarked (k' : Key) : ((s.next (.look k) c).next (.file k .unmark) c₂).entry k' =
          if k' = k then { s.entry k with delivered := none } else s.entry k' :=
        (s.next (.look k) c).entry_next_file c₂ k k' .unmark
      have hanswer : (((s.next (.look k) c).next (.file k .unmark) c₂).tick (.look k) c₃).answer c₃
          (.look k) = { s.entry k with delivered := none } := (hunmarked k).trans (if_pos rfl)
      rw [hanswer]
      have hquiet {u : Site} (hk : (u.entry k).envelope = none)
          (hothers : ∀ k', k' ≠ k → u.entry k' = s.entry k') :
          ∀ k' ∈ T, k'.1 ≠ "" → (u.entry k').pending? = none := by
        intro k' hk' hsid
        by_cases heq : k' = k
        · rw [heq]
          exact pending?_eq_none.mpr fun env henv => by rw [hk] at henv; cases henv
        · rw [hothers k' heq]
          exact h.quiet k' hk' hsid
      split
      · refine op_total hgrown₃ fun c₄ _ => ?_
        have hgrown₄ := hgrown₃.next (c := c₄) (sweep_spares (k := k) (.inr (.inl rfl)))
        refine Prog.total_ret hgrown₄ ⟨⟨hgrown₄, hquiet ?_ fun k' hne => ?_⟩, 2, rfl⟩
        · rw [file_entry]
          rfl
        · rw [Site.entry_next_file, if_neg hne]
          exact (hunmarked k').trans (if_neg hne)
      · next hnone =>
        refine Prog.total_ret hgrown₃ ⟨⟨hgrown₃, hquiet ?_ fun k' hne => ?_⟩, 1, rfl⟩
        · have hu : (((s.next (.look k) c).next (.file k .unmark) c₂).entry k).envelope =
              (s.entry k).envelope := by rw [hunmarked, if_pos rfl]
          exact hu.trans (Option.not_isSome_iff_eq_none.mp hnone)
        · exact (hunmarked k').trans (if_neg hne)

theorem Sparing.sweepStatus (h : Sparing T s₀ s) (cutoff : ℤ) :
    (sweepStatus cutoff k).Total world 0 P (Sparing T s₀) s Returned := by
  refine sweepStatus_total (fun _ _ h => h.still (fun _ => rfl) trivial) ?_ h
  intro t d h _ _
  refine (rmtree_total (J := Sparing T s₀) ?_ ?_ d h).mono (fun _ h => h)
    fun _ _ _ hr => ⟨(), hr.1⟩
  · intro t file c h
    refine h.file (sweep_spares (.inr (.inr (.inl ⟨file, rfl⟩)))) fun hk hsid => ?_
    exact h.quiet k hk hsid
  · intro t c h
    exact h.file (sweep_spares (.inr (.inr (.inr rfl)))) fun hk hsid => h.quiet k hk hsid

/-- `flush` does nothing to a file that does not wait. -/
theorem flush_spares (h : ∀ k ∈ T, k.1 ≠ "" → (s.entry k).pending? = none)
    (sessionId : Option String) :
    (flush cfg sessionId).Total world 0 P (Grown (Op.Leaves T) s) s fun _ _ => True := by
  refine bind_returning (sweepTtlLazy_total (J := Sparing T s) (fun _ h => h.grown)
    (fun _ _ _ he ho h => h.still he ho) (fun cutoff _ _ h => h.sweepMarker cutoff)
    (fun cutoff _ _ h => (returning (h.sweepStatus cutoff)).mono (fun _ h => h.grown)
      fun _ _ _ hr => hr) ⟨.refl s, h⟩) fun _ t ht => ?_
  exact (retryAll_total (J := Sparing T s) (F := True) (fun _ h => h.grown)
    (fun _ _ _ h => h.still (fun _ => rfl) trivial) (fun _ _ h => h.still (fun _ => rfl) trivial)
    (fun _ _ hsid h => h.flushEntry_total hsid) sessionId ht).mono (fun _ h => h)
    fun _ _ _ _ => trivial

end Spared

/-! ## How often `flush` sends -/

section Once

variable {s : Site} {P : Choice → Prop} {k : Key} {cfg : Config} {n : ℕ} {o : Op} {c : Choice}

theorem sends_next : sends k (s.next o c) = sends k s + if o.isSend k then 1 else 0 := by
  rw [sends, Site.trace_next, List.countP_append, List.countP_singleton]
  rfl

theorem sends_next_le (h : sends k s ≤ n) : sends k (s.next o c) ≤ n + 1 := by
  rw [sends_next]
  split <;> omega

theorem sends_next_quiet (h : sends k s ≤ n) (ho : o.isSend k = false) :
    sends k (s.next o c) ≤ n := by
  rw [sends_next, ho]
  exact h

theorem unsent_total {α : Type} {p : Call α} (hp : p.Bounded fun o => o.isSend k = false)
    (h : sends k s ≤ n) : p.Total world 0 P (sends k · ≤ n) s fun _ t => sends k t ≤ n :=
  bounded_total (J := (sends k · ≤ n)) hp (fun _ _ _ ho _ ht => sends_next_quiet ht ho) h

theorem prepares_total {α : Type} {p : Call α} {w : Option HostSpec}
    (hp : p.Bounded (Op.Prepares k w)) (h : sends k s ≤ n) :
    p.Total world 0 P (sends k · ≤ n + 1) s fun _ t => sends k t ≤ n :=
  (unsent_total (hp.mono fun _ ho => ho.2 k) h).mono (fun _ ht => Nat.le_succ_of_le ht)
    fun _ _ _ ht => ht

theorem resend_once (h : sends k s ≤ n) (env : Envelope) (hostAlias : String) (target : HostSpec) :
    (resend cfg k env hostAlias target).Total world 0 P (sends k · ≤ n + 1) s fun _ t =>
      sends k t ≤ n + 1 := by
  have hsaid (r : Except String Answer) (text : Answer → String) :
      (orRaise r >>= fun a => if a.code ≠ 0 then (.raise (text a) : Call Unit) else .ret ()).Bounded
        fun o => o.isSend k = false := by
    refine (orRaise_bounded r).bind fun a => ?_
    split <;> trivial
  unfold resend
  split
  · exact op_total (Nat.le_succ_of_le h) fun c _ => unsent_total (hsaid _ _) (sends_next_le h)
  · refine op_total (Nat.le_succ_of_le h) fun c _ => ?_
    have h₁ : sends k (s.next (.getTransport k target) c) ≤ n := sends_next_quiet h rfl
    refine orRaise_total (fun _ _ => ?_) fun _ _ =>
      ⟨Nat.le_succ_of_le h₁, Nat.le_succ_of_le h₁⟩
    refine (prepares_total (checkCapability_prepares cfg k target) h₁).bind (fun _ t _ h₂ => ?_)
      fun _ _ hI _ => hI
    refine (prepares_total (managerAndRoster_prepares k (some target) _ env) h₂).bind
      (fun mr t _ h₃ => ?_) fun _ _ hI _ => hI
    refine (prepares_total (ensureRemoteSession_prepares k _ target mr.1 mr.2) h₃).bind
      (fun _ t _ h₄ => ?_) fun _ _ hI _ => hI
    exact op_total (Nat.le_succ_of_le h₄) fun c _ => unsent_total (hsaid _ _) (sends_next_le h₄)

theorem flushEntry_once (h : sends k s ≤ n) :
    (flushEntry cfg k).Total world 0 P (sends k · ≤ n + 1) s fun _ t => sends k t ≤ n + 1 := by
  have hquiet {α : Type} {p : Call α} (hp : p.Bounded (Op.Reviews k)) :
      p.Bounded fun o => o.isSend k = false := hp.mono fun _ ho => ho.tends.2 k
  refine ((unsent_total (hquiet eligible_reviews) h).mono (fun _ ht => Nat.le_succ_of_le ht)
    fun _ _ _ ht => ht).bind (fun b t _ ht => ?_) fun _ _ hI _ => hI
  split
  · refine op_total (Nat.le_succ_of_le ht) fun c _ => ?_
    have h₁ : sends k (t.next (.look k) c) ≤ n := sends_next_quiet ht rfl
    split
    · refine op_total (Nat.le_succ_of_le h₁) fun c' _ => ?_
      have h₂ : sends k ((t.next (.look k) c).next .mem c') ≤ n := sends_next_quiet h₁ rfl
      refine attempt_bind_total (resend_once h₂ _ _ _) fun r u _ hu => ?_
      refine unsent_total ?_ hu
      cases r with
      | ok _ =>
        exact Prog.bounded_op_bind rfl fun _ => Prog.bounded_op_bind rfl fun _ =>
          (remember_bounded (φ := fun o => o.isSend k = false) rfl).bind fun _ => trivial
      | error text =>
        exact Prog.bounded_op_bind rfl fun _ =>
          ((handleFlushFailure_tends text).mono fun _ ho => ho.2 k).bind fun _ => trivial
    · exact Prog.total_ret (Nat.le_succ_of_le h₁) (Nat.le_succ_of_le h₁)
  · exact Prog.total_ret (Nat.le_succ_of_le ht) (Nat.le_succ_of_le ht)

theorem Op.Retries.isSend {k' : Key} (h : o.Retries k') (hk : k' ≠ k) : o.isSend k = false := by
  cases o with
  | mailbox k₁ host args =>
    obtain ⟨w, hs⟩ := h
    have hne : k₁ ≠ k := fun heq => hk (hs.1.symm.trans heq)
    simp [Op.isSend, hne]
  | localMailbox k₁ args =>
    obtain ⟨w, hs⟩ := h
    exact decide_eq_false fun heq => hk (hs.1.symm.trans heq)
  | _ => rfl

theorem flushEntry_quiet {k' : Key} (hk : k' ≠ k) (h : sends k s ≤ n) :
    (flushEntry cfg k').Total world 0 P (sends k · ≤ n) s fun r t =>
      sends k t ≤ n ∧ Fine True r :=
  (unsent_total ((flushEntry_bounded cfg).mono fun _ ho => ho.isSend hk) h).mono (fun _ h => h)
    fun _ _ _ ht => ⟨ht, .inl trivial⟩

theorem fine_of_sends {α : Type} {p : Call α} {I : Site → Prop}
    (hp : p.Total world 0 P I s fun _ t => sends k t ≤ n) :
    p.Total world 0 P I s fun r t => sends k t ≤ n ∧ Fine True r :=
  hp.mono (fun _ h => h) fun _ _ _ ht => ⟨ht, .inl trivial⟩

theorem flushEntries_quiet {sid : String} {mids : List String} (hmem : ∀ mid ∈ mids, (sid, mid) ≠ k)
    (h : sends k s ≤ n) :
    (flushEntries cfg sid mids).Total world 0 P (sends k · ≤ n) s fun r t =>
      sends k t ≤ n ∧ Fine True r :=
  flushEntries_total (J := (sends k · ≤ n)) (fun _ h => h) mids
    (fun mid _ hmid ht => flushEntry_quiet (hmem mid hmid) ht) h

theorem flushEntries_once {sid : String} {mids : List String} (hnodup : mids.Nodup)
    (h : sends k s ≤ n) :
    (flushEntries cfg sid mids).Total world 0 P (sends k · ≤ n + 1) s fun r t =>
      sends k t ≤ n + 1 ∧ Fine True r := by
  induction mids generalizing s with
  | nil => exact Prog.total_ret (Nat.le_succ_of_le h) ⟨Nat.le_succ_of_le h, .inl trivial⟩
  | cons mid mids ih =>
    obtain ⟨hmid, hnodup⟩ := List.nodup_cons.mp hnodup
    by_cases hk : (sid, mid) = k
    · -- it is this one, and none of the others
      have hothers : ∀ mid' ∈ mids, (sid, mid') ≠ k := fun mid' hmem heq =>
        hmid ((Prod.mk.inj (heq.trans hk.symm)).2 ▸ hmem)
      refine fine_bind (J := (sends k · ≤ n + 1))
        (fine_of_sends (hk ▸ flushEntry_once (hk.symm ▸ h))) (fun _ _ h => h) fun b t ht => ?_
      refine fine_bind (flushEntries_quiet hothers ht) (fun _ _ h => h) fun m u hu => ?_
      exact Prog.total_ret hu ⟨hu, .inl trivial⟩
    · refine fine_bind (J := (sends k · ≤ n)) ((flushEntry_quiet hk h).mono
        (fun _ ht => Nat.le_succ_of_le ht) fun _ _ _ ht => ht) (fun _ _ h => Nat.le_succ_of_le h)
        fun b t ht => ?_
      refine fine_bind (ih hnodup ht) (fun _ _ h => h) fun m u hu => ?_
      exact Prog.total_ret hu ⟨hu, .inl trivial⟩

theorem flushSessions_quiet {sids : List String} (hmem : k.1 ∉ sids) (h : sends k s ≤ n) :
    (flushSessions cfg sids).Total world 0 P (sends k · ≤ n) s fun r t =>
      sends k t ≤ n ∧ Fine True r :=
  flushSessions_total (J := (sends k · ≤ n)) (fun _ h => h)
    (fun _ _ _ ht => sends_next_quiet ht rfl) sids
    (fun _ _ hsid ht => flushEntry_quiet (fun heq => hmem (heq ▸ hsid)) ht) h

theorem flushSessions_once {sids : List String} (hnodup : sids.Nodup) (h : sends k s ≤ n) :
    (flushSessions cfg sids).Total world 0 P (sends k · ≤ n + 1) s fun r t =>
      sends k t ≤ n + 1 ∧ Fine True r := by
  induction sids generalizing s with
  | nil => exact Prog.total_ret (Nat.le_succ_of_le h) ⟨Nat.le_succ_of_le h, .inl trivial⟩
  | cons sid sids ih =>
    obtain ⟨hsid, hnodup⟩ := List.nodup_cons.mp hnodup
    refine op_total (Nat.le_succ_of_le h) fun c _ => ?_
    have h₁ : sends k (s.next (.glob sid .envelopes) c) ≤ n := sends_next_quiet h rfl
    by_cases hk : k.1 = sid
    · refine fine_bind (J := (sends k · ≤ n + 1))
        (flushEntries_once (ids_nodup (s.tick (.glob sid .envelopes) c) sid .envelopes) h₁)
        (fun _ _ h => h) fun m t ht => ?_
      refine fine_bind (flushSessions_quiet (hk ▸ hsid) ht) (fun _ _ h => h) fun l u hu => ?_
      exact Prog.total_ret hu ⟨hu, .inl trivial⟩
    · have hothers : ∀ mid ∈ (s.tick (.glob sid .envelopes) c).ids sid .envelopes,
          (sid, mid) ≠ k := fun _ _ heq => hk (heq ▸ rfl)
      refine fine_bind (J := (sends k · ≤ n)) ((flushEntries_quiet hothers h₁).mono
        (fun _ ht => Nat.le_succ_of_le ht) fun _ _ _ ht => ht) (fun _ _ h => Nat.le_succ_of_le h)
        fun m t ht => ?_
      refine fine_bind (ih hnodup ht) (fun _ _ h => h) fun l u hu => ?_
      exact Prog.total_ret hu ⟨hu, .inl trivial⟩

/-- `flush` gives a message to a transport at most once. -/
theorem flush_once (s : Site) (sessionId : Option String) :
    (flush cfg sessionId).Total world 0 P (fun t => sends k t ≤ sends k s + 1) s fun _ _ => True := by
  refine bind_returning (J := (sends k · ≤ sends k s)) ((sweepTtlLazy_total
    (I := (sends k · ≤ sends k s)) (fun _ h => h) ?_ ?_ ?_ le_rfl).mono
      (fun _ h => Nat.le_succ_of_le h) fun _ _ _ hr => hr) fun _ t ht => ?_
  · intro t o c _ ho ht
    refine sends_next_quiet ht ?_
    cases o <;> first | rfl | exact ho.elim
  · intro cutoff k' t ht
    exact returning (sweepMarker_total (fun _ _ h => sends_next_quiet h rfl)
      (fun _ _ _ h _ _ => sends_next_quiet h rfl)
      (fun _ _ _ _ _ h _ _ => sends_next_quiet (sends_next_quiet (sends_next_quiet h rfl) rfl) rfl) ht)
  · intro cutoff k' t ht
    refine returning (sweepStatus_total (fun _ _ h => sends_next_quiet h rfl) ?_ ht)
    exact fun u d hu _ _ => (rmtree_total (J := (sends k · ≤ sends k s))
      (fun _ _ _ h => sends_next_quiet h rfl) (fun _ _ h => sends_next_quiet h rfl) d hu).mono
      (fun _ h => h) fun _ _ _ hr => ⟨(), hr.1⟩
  · unfold retryAll
    split
    · exact (flushSessions_once (List.nodup_singleton _) ht).mono (fun _ h => h)
        fun _ _ _ _ => trivial
    · refine op_total (Nat.le_succ_of_le ht) fun c _ => ?_
      exact (flushSessions_once (sessionDirs_nodup _) (sends_next_quiet ht rfl)).mono (fun _ h => h)
        fun _ _ _ _ => trivial

end Once

/-! ## Outboxes that deliveries leave -/

section Laid

variable {s : Site} {T : Set Key} {k : Key} {w : Option HostSpec} {o : Op} {c : Choice}
  {P : Choice → Prop}

theorem Op.Delivers.deadNested (ho : o.Delivers k w) (k' : Key) :
    ((s.next o c).entry k').deadNested = (s.entry k').deadNested := by
  have hset (t : Site) (k₁ : Key) (e : Entry) (he : e.deadNested = (t.entry k₁).deadNested) :
      ((t.setEntry k₁ e).entry k').deadNested = (t.entry k').deadNested := by
    rw [Site.entry_setEntry]
    split
    · next heq => rw [he, heq]
    · rfl
  cases o with
  | file k₁ f =>
    refine hset (s.tick _ c) k₁ _ ?_
    rcases ho with ⟨-, hf | rfl⟩ | ⟨-, env, rfl⟩
    · cases f <;> first | exact hf.elim | rfl
    · rfl
    · rfl
  | openTmp k₁ =>
    rw [Site.next, Site.effect]
    split
    · exact hset (s.tick _ c) (tmpKey k₁) _ rfl
    · rfl
  | publish k₁ =>
    rw [Site.next, Site.effect, Site.publish]
    dsimp only
    rw [hset _ k₁ _ (by rfl), hset _ (tmpKey k₁) _ (by rfl)]
    rfl
  | _ => rfl

theorem Laid.tidy (h : Laid s T) : Tidy s := by
  have hlaid : NoTerminal s ∧ ∀ k, (s.entry k).deadNested = none := by
    induction h with
    | start hentries =>
      refine ⟨fun k => ?_, fun k => ?_⟩
      all_goals
        rw [Site.entry, hentries, Table.get_empty]
        rfl
    | step _ c ho _ ih => exact ⟨ih.1.delivers ho, fun k' => (ho.deadNested k').trans (ih.2 k')⟩
    | @written s T k _ x hfile ih =>
      refine ⟨ih.1.setEntry (ih.1 k), fun k' => ?_⟩
      rw [Site.entry_setEntry]
      split
      · exact ih.2 k
      · exact ih.2 k'
    | elsewhere _ m d ih => exact ih
  exact ⟨hlaid.1, fun k _ hboth => by rw [hlaid.2 k] at hboth; cases hboth.2⟩

/-- Some files of the site are temporary, and deliveries have written the others. -/
def IsLaid (s : Site) : Prop := ∃ T, Laid s T

theorem IsLaid.step (h : IsLaid s) (ho : o.Delivers k w) (hfinds : o.Finds s) :
    IsLaid (s.next o c) := by
  obtain ⟨T, hT⟩ := h
  exact ⟨_, hT.step c ho hfinds⟩

theorem laid_total {α : Type} {p : Call α} {φ : Op → Prop} (hp : p.Bounded φ)
    (hφ : ∀ o, φ o → o.Delivers k w ∧ ∀ s, o.Finds s) (h : IsLaid s) :
    p.Total world 0 P IsLaid s fun _ t => IsLaid t :=
  bounded_total (J := IsLaid) hp (fun _ _ t ho _ ht => ht.step (hφ _ ho).1 ((hφ _ ho).2 t)) h

theorem Op.Sends.finds (h : o.Sends k w) (s : Site) : o.Finds s := by
  cases o <;> first | exact h.elim | trivial

theorem sends_laid {α : Type} {p : Call α} (hp : p.Bounded (Op.Sends k w)) (h : IsLaid s) :
    p.Total world 0 P IsLaid s fun _ t => IsLaid t :=
  laid_total hp (fun _ ho => ⟨ho.delivers, ho.finds⟩) h

theorem Op.Reports.finds (h : o.Reports k) (s : Site) : o.Finds s := by
  cases o with
  | file k' f => cases f <;> first | exact h.2.elim | trivial
  | _ => first | exact h.elim | trivial

theorem reports_laid {α : Type} {p : Call α} (hp : p.Bounded (Op.Reports k)) (h : IsLaid s) :
    p.Total world 0 P IsLaid s fun _ t => IsLaid t :=
  laid_total (w := none) hp (fun _ ho => ⟨ho.delivers, ho.finds⟩) h

theorem replaceEnvelope_laid (env : Envelope) (h : IsLaid s) :
    (replaceEnvelope k env).Total world 0 P IsLaid s fun _ t => IsLaid t := by
  refine op_total h fun c _ => ?_
  have h₁ : IsLaid (s.next (.openTmp k) c) := h.step (w := none) rfl trivial
  cases hf : c.fault with
  | some text =>
    simp only [Site.answer, hf]
    exact Prog.total_raise h₁ h₁
  | none =>
    have hthere : ((s.next (.openTmp k) c).entry (tmpKey k)).envelope.isSome := by
      simp only [Site.next, Site.effect, hf, Site.entry_setEntry_self]
      rfl
    simp only [Site.answer, hf]
    generalize s.next (.openTmp k) c = s₁ at h₁ hthere
    refine op_total h₁ fun c _ => ?_
    have h₂ : IsLaid (s₁.next (.file (tmpKey k) (.putEnvelope env)) c) :=
      h₁.step (k := k) (w := none) (.inr ⟨rfl, env, rfl⟩) hthere
    refine last_total h₂ fun c' _ => ?_
    have h₃ := h₂.step (o := .publish k) (c := c') (k := k) (w := none) rfl (by
      show ((s₁.next _ c).entry (tmpKey k)).envelope.isSome
      rw [file_entry]
      rfl)
    exact ⟨h₃, h₃⟩

theorem writeOutbox_laid (env : Envelope) (h : IsLaid s) :
    (writeOutbox k env).Total world 0 P IsLaid s fun _ t => IsLaid t := by
  refine op_total h fun c _ => ?_
  have h₁ : IsLaid (s.next (.look k) c) := h.step (w := none) rfl trivial
  split
  · exact Prog.total_ret h₁ h₁
  · exact replaceEnvelope_laid env h₁

theorem stamp_laid (h : IsLaid s) :
    (stampOutboxTargetHost k).Total world 0 P IsLaid s fun _ t => IsLaid t := by
  refine op_total h fun c _ => ?_
  have h₁ : IsLaid (s.next (.look k) c) := h.step (w := none) rfl trivial
  split
  · split
    · exact Prog.total_ret h₁ h₁
    · exact replaceEnvelope_laid _ h₁
  · exact Prog.total_ret h₁ h₁

theorem remember_laid (r : SendReceipt) (h : IsLaid s) :
    (remember k.2 r).Total world 0 P IsLaid s fun _ t => IsLaid t :=
  laid_total (k := k) (w := none) (φ := fun o => ∃ r, o = .upd (.remember k.2 r))
    (remember_bounded ⟨r, rfl⟩) (fun _ ⟨_, ho⟩ => by subst ho; exact ⟨rfl, fun _ => trivial⟩) h

theorem laid_bind {α β : Type} {p : Call α} {f : α → Call β}
    (hp : p.Total world 0 P IsLaid s fun _ t => IsLaid t)
    (hf : ∀ a t, IsLaid t → (f a).Total world 0 P IsLaid t fun _ u => IsLaid u) :
    (p >>= f).Total world 0 P IsLaid s fun _ t => IsLaid t :=
  hp.bind (fun a t ht _ => hf a t ht) fun _ _ ht _ => ht

theorem sendFirst_laid (cfg : Config) (env : Envelope) (h : IsLaid s) :
    (sendFirst cfg k env w).Total world 0 P IsLaid s fun _ t => IsLaid t := by
  have hmark (t : Site) (c : Choice) (ht : IsLaid t) : IsLaid (t.next (.file k .mark) c) :=
    ht.step (k := k) (w := none) (.inl ⟨rfl, .inr rfl⟩) trivial
  cases w with
  | none =>
    refine attempt_bind_total (sends_laid (localSend_bounded k env) h) fun r t ht _ => ?_
    cases r with
    | ok _ => exact op_total ht fun c _ => remember_laid _ (hmark t c ht)
    | error text =>
      refine laid_bind (reports_laid (writeStatus_bounded k _ text) ht) fun _ u hu => ?_
      exact laid_bind (stamp_laid hu) fun _ _ hv => Prog.total_ret hv hv
  | some host =>
    refine attempt_bind_total (sends_laid (remoteSend_bounded cfg k host env) h) fun r t ht _ => ?_
    cases r with
    | ok _ =>
      refine op_total ht fun c _ => op_total (hmark t c ht) fun c' _ => remember_laid _ ?_
      exact (hmark t c ht).step (k := k) (w := none) rfl trivial
    | error text =>
      exact laid_bind (reports_laid (writeStatus_bounded k _ text) ht)
        fun _ _ hu => Prog.total_ret hu hu

/-- **A delivery from an outbox that deliveries have left leaves one, wherever it is cut
off.** -/
theorem deliver_laid (cfg : Config) (sid : String) (target : Dest) (env : Envelope)
    (h : IsLaid s) :
    (deliver cfg sid target env).Total world 0 P IsLaid s fun _ t => IsLaid t := by
  unfold deliver
  split
  · exact Prog.total_ret h h
  · have hcheck : (checkIdempotency (deliverKey sid env)).Total world 0 P IsLaid s
        fun _ t => IsLaid t := by
      refine (checkIdempotency_total (I := IsLaid) ?_ h).mono (fun _ h => h) fun _ _ ht _ => ht
      intro o c t ho _ ht
      cases o with
      | mem => exact ht.step (k := deliverKey sid env) (w := none) trivial trivial
      | look k' => exact ht.step (k := deliverKey sid env) (w := none) ho trivial
      | upd u =>
        cases u with
        | remember mid r => exact ht.step (k := deliverKey sid env) (w := none) ho trivial
        | _ => exact ho.elim
      | _ => exact ho.elim
    refine laid_bind hcheck fun known t ht => ?_
    cases known with
    | some cached =>
      show (replay _ _ _).Total world 0 P IsLaid t _
      unfold replay
      split
      · exact laid_bind (stamp_laid ht) fun _ _ hu => Prog.total_ret hu hu
      · exact Prog.total_ret ht ht
    | none =>
      refine attempt_bind_total (writeOutbox_laid _ ht) fun r u hu _ => ?_
      cases r with
      | ok _ => exact laid_bind (remember_laid _ hu) fun _ _ hv => sendFirst_laid cfg _ hv
      | error text => exact remember_laid _ hu

end Laid

/-! ## The exact condition -/

section Exact

variable {s : Site} {T : Set Key}

theorem OnlyCommitted.noWholeTemp (h : OnlyCommitted T s) : NoWholeTemp T s := by
  intro k hk hsid
  rw [← pending?_eq_none]
  by_contra hwaits
  have hsome : (s.entry k).pending?.isSome := Option.isSome_iff_ne_none.mpr hwaits
  have hvisit : Visits (some k.1) k s := by
    unfold Visits
    rw [Option.filter_some, if_pos (by simpa using hsid)]
    rfl
  obtain ⟨r, t, hrun⟩ := (pending_total (P := fun _ => True) (s := s) (some k.1)).runs
    (c := {}) trivial
  have hr := (pending_total (P := fun _ => True) (some k.1)).ends r t hrun
  obtain ⟨ks, hnodup, hmem, hks⟩ := h.listed (some k.1) r t hrun
  -- two lists of as many envelopes, one of fewer entries
  generalize hall : pendingKeys s (sessionsOf (some k.1) s) = all at hr
  have hmem' (k' : Key) : k' ∈ all ↔ Visits (some k.1) k' s ∧ (s.entry k').pending?.isSome := by
    rw [← hall, mem_pendingKeys, mem_sessionsOf]
  have hlength (l : List Key) (hl : ∀ k' ∈ l, (s.entry k').pending?.isSome) :
      (l.filterMap fun k' => (s.entry k').pending?).length = l.length := by
    induction l with
    | nil => rfl
    | cons k' l ih =>
      obtain ⟨env, henv⟩ := Option.isSome_iff_exists.mp (hl k' List.mem_cons_self)
      rw [List.filterMap_cons, henv, List.length_cons, List.length_cons,
        ih fun k₁ hk₁ => hl k₁ (List.mem_cons_of_mem _ hk₁)]
  have heq := Except.ok.inj (hks.symm.trans hr)
  have hlen : ks.length = all.length := by
    rw [← hlength ks fun k' hk' => ((hmem k').mp hk').2.2,
      ← hlength all fun k' hk' => ((hmem' k').mp hk').2, heq]
  have hsub : ks ⊆ all := fun k' hk' =>
    (hmem' k').mpr ⟨((hmem k').mp hk').1, ((hmem k').mp hk').2.2⟩
  have hperm := (hnodup.subperm hsub).perm_of_length_le hlen.ge
  have hin : k ∈ ks := hperm.mem_iff.mpr ((hmem' k).mpr ⟨hvisit, hsome⟩)
  exact ((hmem k).mp hin).2.1 hk

theorem NoWholeTemp.onlyCommitted (h : NoWholeTemp T s) (htidy : Tidy s) : OnlyCommitted T s where
  listed sessionId r t hrun := by
    refine ⟨pendingKeys s (sessionsOf sessionId s), pendingKeys_nodup (sessionsOf_nodup _ s),
      fun k => ?_, (pending_total sessionId).ends r t hrun⟩
    rw [mem_pendingKeys, mem_sessionsOf]
    refine and_congr_right fun hvisit => ⟨fun hsome => ⟨fun hk => ?_, hsome⟩, And.right⟩
    have hsid : k.1 ≠ "" := by
      unfold Visits at hvisit
      cases hfilter : sessionId.filter (· ≠ "") with
      | none =>
        rw [hfilter] at hvisit
        exact ne_of_mem_sessionDirs hvisit
      | some sid =>
        rw [hfilter] at hvisit
        have hne : sid ≠ "" := by simpa using (Option.filter_eq_some_iff.mp hfilter).2
        have heq : sid = k.1 := hvisit
        exact heq ▸ hne
    rw [pending?_eq_none.mpr (h k hk hsid)] at hsome
    cases hsome
  spared cfg sessionId t hreach :=
    (flush_spares (P := fun _ => True) (fun k hk hsid => pending?_eq_none.mpr (h k hk hsid))
      sessionId).reaches hreach
  once cfg sessionId t k hreach :=
    (flush_once (P := fun _ => True) (k := k) s sessionId).reaches hreach
  served cfg sessionId r t k hrun _ hwait hvisit :=
    (flush_serves htidy hwait hvisit).ends r t hrun

end Exact

/-- The outbox of a delivery that was cut off before the rename. -/
def unrenamed : Site :=
  (({} : Site).next (.openTmp ("s", "m")) {}).next (.file ("s", ".tmp-m") (.putEnvelope letter)) {}

theorem unrenamed_laid : Laid unrenamed {("s", ".tmp-m")} := by
  have hopen : Laid (({} : Site).next (.openTmp ("s", "m")) {}) (insert ("s", ".tmp-m") ∅) :=
    (Laid.start rfl).step (k := ("s", "m")) (w := none) {} rfl trivial
  have hput := hopen.step (o := .file ("s", ".tmp-m") (.putEnvelope letter)) (k := ("s", "m"))
    (w := none) {} (.inr ⟨rfl, letter, rfl⟩) (by
      show ((({} : Site).next (.openTmp ("s", "m")) {}).entry ("s", ".tmp-m")).envelope.isSome
      decide +kernel)
  rw [insert_empty_eq] at hput
  exact hput

end AiMeshChat.Swarm
