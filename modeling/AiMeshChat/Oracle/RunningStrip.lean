import AiMeshChat.Lib.Rows
import Mathlib.Data.Int.Notation
import Mathlib.Data.List.Sort

/-!
# Stripping a running session

`_strip_running_session` of `oracle.py`: the table `event` of OpenCode keeps one row for each
event of a session, numbered by `seq`. While a session runs, the rows of its older turns are
deleted: those before the start of the `keep_recent`-th last turn. A turn starts with the first
event, and with each marker that stands more than `_TURN_MARKER_DEDUP_GAP` behind the marker or
the first event before it.

What is kept begins with the start of a turn, and from there on the turns are the same
(`startRows_cut`). So the deletion takes exactly what is older (`strip_keeps_recent`), and two
strips are one (`strips_keep_recent`).

The query and the deletion are two statements, and others may add events between them.
-/

namespace AiMeshChat.Oracle

open Lib

/-- A row of the table `event`, without its data. -/
structure EventRow where
  aggregateId : String
  seq : ℤ
  type : String
  deriving DecidableEq

def EventRow.key (r : EventRow) : String × ℤ := (r.aggregateId, r.seq)

/-- The sequence numbers of a session are distinct. -/
abbrev EventTable := Rows (String × ℤ) EventRow EventRow.key

def TURN_START_EVENT_TYPES : List String :=
  ["session.next.agent.switched.1", "session.next.model.switched.1"]

def TURN_MARKER_DEDUP_GAP : ℤ := 3

/-- `ev["type"] in _TURN_START_EVENT_TYPES`. -/
def EventRow.isMarker (ev : EventRow) : Bool := ev.type ∈ TURN_START_EVENT_TYPES

/-- `ORDER BY seq ASC`. -/
def EventRow.Before (r r' : EventRow) : Prop := r.seq ≤ r'.seq

instance : DecidableRel EventRow.Before := fun r r' => inferInstanceAs (Decidable (r.seq ≤ r'.seq))
instance : Std.Total EventRow.Before := ⟨fun r r' => Int.le_total r.seq r'.seq⟩
instance : IsTrans EventRow EventRow.Before := ⟨fun _ _ _ h h' => Int.le_trans h h'⟩

/-! ## The function -/

/-- `SELECT seq, type FROM event WHERE aggregate_id = ? ORDER BY seq ASC`. -/
def selectEvents (t : EventTable) (sid : String) : List EventRow :=
  (t.select (·.aggregateId = sid)).insertionSort EventRow.Before

/-- The loop over the events behind the first: `i` is the place of the next one. -/
def turnStartsFrom : ℕ → ℤ → List EventRow → List ℕ
  | _, _, [] => []
  | i, lastMarkerSeq, ev :: evs =>
    if ev.isMarker then
      if ev.seq - lastMarkerSeq > TURN_MARKER_DEDUP_GAP then i :: turnStartsFrom (i + 1) ev.seq evs
      else turnStartsFrom (i + 1) ev.seq evs
    else turnStartsFrom (i + 1) lastMarkerSeq evs

/-- `turn_starts`. -/
def turnStarts : List EventRow → List ℕ
  | [] => []
  | ev :: evs => 0 :: turnStartsFrom 1 ev.seq evs

/-- `_is_turn_completed`. -/
def isTurnCompleted (events : List EventRow) (idx : ℕ) : Bool :=
  if idx ≥ events.length then false else (events.drop (idx + 1)).any EventRow.isMarker

/-- `cutoff_seq`, if there is something to delete. -/
def cutoffSeq (events : List EventRow) (keepRecent : ℕ) : Option ℤ := do
  let starts := turnStarts events
  if starts.length ≤ keepRecent then none
  else
    let keepFrom ← starts[starts.length - keepRecent]?
    let toTrim := starts.take (starts.length - keepRecent)
    if !toTrim.all (isTurnCompleted events) then none
    else events[keepFrom]?.map EventRow.seq

/-- `DELETE FROM event WHERE aggregate_id = ? AND seq < ?`. -/
def deleteBefore (t : EventTable) (sid : String) (cutoff : ℤ) : EventTable :=
  t.delete fun r => r.aggregateId = sid ∧ r.seq < cutoff

structure StripReport where
  trimmed : ℤ := 0
  kept : ℤ := 0
  error : Option String := none
  deriving DecidableEq

/-- `_strip_running_session`; `none` is a missing database. The query sees the table as it is,
and `others` make of it what the deletion finds. -/
def stripRunningSession (db : Option EventTable) (others : EventTable → EventTable)
    (backendSessionId : String) (keepRecent : ℤ) : StripReport × Option EventTable :=
  let keepRecent := (max 1 keepRecent).toNat
  match db with
  | none => ({ error := some "opencode.db not found" }, none)
  | some t =>
    if backendSessionId = "" then
      ({ error := some "empty backend_session_id" }, some (others t))
    else
      let events := selectEvents t backendSessionId
      if events = [] then ({}, some (others t))
      else match cutoffSeq events keepRecent with
        | none => ({ kept := events.length }, some (others t))
        | some cutoff =>
          let left := deleteBefore (others t) backendSessionId cutoff
          let trimmed : ℤ := (others t).list.length - left.list.length
          ({ trimmed := trimmed, kept := events.length - trimmed }, some left)

/-! ## The events of a session -/

/-- In the order of their numbers. -/
abbrev InOrder (evs : List EventRow) : Prop := evs.Pairwise fun r r' => r.seq < r'.seq

theorem mem_selectEvents {t : EventTable} {sid : String} {r : EventRow} :
    r ∈ selectEvents t sid ↔ r ∈ t.list ∧ r.aggregateId = sid := by
  rw [selectEvents, List.mem_insertionSort, Rows.mem_select, decide_eq_true_eq]

theorem inOrder_selectEvents (t : EventTable) (sid : String) : InOrder (selectEvents t sid) := by
  have hsorted := List.pairwise_insertionSort EventRow.Before (t.select (·.aggregateId = sid))
  have hkeys : ((selectEvents t sid).map EventRow.key).Nodup :=
    (((List.perm_insertionSort EventRow.Before _).map EventRow.key).nodup_iff).mpr
      (t.select_nodup _)
  have hdistinct := List.pairwise_map.mp hkeys
  refine (hsorted.and hdistinct).imp_of_mem ?_
  intro r r' hr hr' h
  have hid := (mem_selectEvents.mp hr).2.trans (mem_selectEvents.mp hr').2.symm
  have hne : r.seq ≠ r'.seq := fun heq => h.2 (Prod.ext hid heq)
  have hle : r.seq ≤ r'.seq := h.1
  omega

theorem InOrder.eq_of_mem {evs evs' : List EventRow} (h : InOrder evs) (h' : InOrder evs')
    (hmem : ∀ r, r ∈ evs ↔ r ∈ evs') : evs = evs' := by
  have hnodup {l : List EventRow} (hl : InOrder l) : l.Nodup := by
    refine hl.imp fun {r r'} hlt heq => ?_
    rw [heq] at hlt
    omega
  refine ((List.perm_ext_iff_of_nodup (hnodup h) (hnodup h')).mpr hmem).eq_of_pairwise ?_ h h'
  intro a b _ _ hab hba
  omega

theorem selectEvents_deleteBefore (t : EventTable) (sid : String) (cutoff : ℤ) :
    selectEvents (deleteBefore t sid cutoff) sid =
      (selectEvents t sid).filter fun r => cutoff ≤ r.seq := by
  refine (inOrder_selectEvents _ _).eq_of_mem ((inOrder_selectEvents t sid).filter _) ?_
  intro r
  rw [List.mem_filter, mem_selectEvents, mem_selectEvents, deleteBefore, Rows.mem_delete]
  simp only [decide_eq_true_eq, decide_eq_false_iff_not, not_and, not_lt]
  constructor
  · intro h
    exact ⟨⟨h.1.1, h.2⟩, h.1.2 h.2⟩
  · intro h
    exact ⟨⟨h.1.1, fun _ => h.2⟩, h.1.2⟩

/-! ## The starts of the turns -/

/-- The events behind the first that start a turn. -/
def startRowsFrom : ℤ → List EventRow → List EventRow
  | _, [] => []
  | lastMarkerSeq, ev :: evs =>
    if ev.isMarker then
      if ev.seq - lastMarkerSeq > TURN_MARKER_DEDUP_GAP then ev :: startRowsFrom ev.seq evs
      else startRowsFrom ev.seq evs
    else startRowsFrom lastMarkerSeq evs

/-- The events that start a turn. -/
def startRows : List EventRow → List EventRow
  | [] => []
  | ev :: evs => ev :: startRowsFrom ev.seq evs

theorem turnStartsFrom_rows (evs : List EventRow) :
    ∀ (i : ℕ) (last : ℤ) (events : List EventRow), events.drop i = evs →
      (turnStartsFrom i last evs).map (events[·]?) = (startRowsFrom last evs).map some := by
  induction evs with
  | nil =>
    intro i last events _
    rfl
  | cons ev evs ih =>
    intro i last events hdrop
    have hnext : events.drop (i + 1) = evs := by
      rw [← List.drop_drop, hdrop]
      rfl
    have hev : events[i]? = some ev := by
      rw [← List.head?_drop, hdrop]
      rfl
    rw [turnStartsFrom, startRowsFrom]
    by_cases hm : ev.isMarker = true
    · rw [if_pos hm, if_pos hm]
      by_cases hgap : ev.seq - last > TURN_MARKER_DEDUP_GAP
      · rw [if_pos hgap, if_pos hgap, List.map_cons, List.map_cons, hev, ih _ _ _ hnext]
      · rw [if_neg hgap, if_neg hgap, ih _ _ _ hnext]
    · rw [if_neg hm, if_neg hm, ih _ _ _ hnext]

theorem turnStarts_rows (events : List EventRow) :
    (turnStarts events).map (events[·]?) = (startRows events).map some := by
  cases events with
  | nil => rfl
  | cons ev evs =>
    rw [turnStarts, startRows, List.map_cons, List.map_cons, turnStartsFrom_rows evs 1 _ _ rfl]
    rfl

theorem length_turnStarts (events : List EventRow) :
    (turnStarts events).length = (startRows events).length := by
  have h := congrArg List.length (turnStarts_rows events)
  simpa only [List.length_map] using h

theorem startRowsFrom_sub {last : ℤ} {evs : List EventRow} {r : EventRow}
    (h : r ∈ startRowsFrom last evs) : r ∈ evs ∧ r.isMarker = true := by
  induction evs generalizing last with
  | nil => cases h
  | cons ev evs ih =>
    have htail {last : ℤ} (h : r ∈ startRowsFrom last evs) : r ∈ ev :: evs ∧ r.isMarker = true :=
      ⟨List.mem_cons_of_mem _ (ih h).1, (ih h).2⟩
    rw [startRowsFrom] at h
    split at h
    · next hm =>
      split at h
      · rcases List.mem_cons.mp h with rfl | h
        · exact ⟨List.mem_cons_self, hm⟩
        · exact htail h
      · exact htail h
    · exact htail h

theorem startRows_sub {evs : List EventRow} {r : EventRow} (h : r ∈ startRows evs) : r ∈ evs := by
  cases evs with
  | nil => cases h
  | cons ev evs =>
    rcases List.mem_cons.mp h with rfl | h
    · exact List.mem_cons_self
    · exact List.mem_cons_of_mem _ (startRowsFrom_sub h).1

theorem le_of_mem_turnStartsFrom {evs : List EventRow} {i j : ℕ} {last : ℤ}
    (h : j ∈ turnStartsFrom i last evs) : i ≤ j := by
  induction evs generalizing i last with
  | nil => cases h
  | cons ev evs ih =>
    have htail {last : ℤ} (h : j ∈ turnStartsFrom (i + 1) last evs) : i ≤ j := by
      have := ih h
      omega
    rw [turnStartsFrom] at h
    split at h
    · split at h
      · rcases List.mem_cons.mp h with rfl | h
        · exact Nat.le_refl _
        · exact htail h
      · exact htail h
    · exact htail h

theorem turnStartsFrom_increasing (evs : List EventRow) :
    ∀ (i : ℕ) (last : ℤ), (turnStartsFrom i last evs).Pairwise (· < ·) := by
  induction evs with
  | nil =>
    intro i last
    exact .nil
  | cons ev evs ih =>
    intro i last
    rw [turnStartsFrom]
    split
    · split
      · refine .cons (fun j hj => ?_) (ih _ _)
        have := le_of_mem_turnStartsFrom hj
        omega
      · exact ih _ _
    · exact ih _ _

theorem turnStarts_increasing (events : List EventRow) :
    (turnStarts events).Pairwise (· < ·) := by
  cases events with
  | nil => exact .nil
  | cons ev evs =>
    refine .cons (fun j hj => ?_) (turnStartsFrom_increasing _ _ _)
    have := le_of_mem_turnStartsFrom hj
    omega

theorem isTurnCompleted_of_lt {events : List EventRow} {p q idx : ℕ} (hpq : p < q)
    (hp : (turnStarts events)[p]? = some idx) {r : EventRow} (hr : (startRows events)[q]? = some r) :
    isTurnCompleted events idx = true := by
  have hrow : ((turnStarts events)[q]?).map (events[·]?) = some (some r) := by
    rw [← List.getElem?_map, turnStarts_rows, List.getElem?_map, hr]
    rfl
  obtain ⟨j, hj, hjr⟩ := Option.map_eq_some_iff.mp hrow
  have hlt : idx < j := by
    obtain ⟨hp', rfl⟩ := List.getElem?_eq_some_iff.mp hp
    obtain ⟨hq', rfl⟩ := List.getElem?_eq_some_iff.mp hj
    exact List.pairwise_iff_getElem.mp (turnStarts_increasing events) p q hp' hq' hpq
  have hmarker : r.isMarker = true := by
    cases events with
    | nil => cases hr
    | cons ev evs =>
      obtain ⟨q, rfl⟩ : ∃ q', q = q' + 1 := ⟨q - 1, by omega⟩
      rw [startRows, List.getElem?_cons_succ] at hr
      exact (startRowsFrom_sub (List.mem_of_getElem? hr)).2
  have hlen : j < events.length := (List.getElem?_eq_some_iff.mp hjr).1
  have hlater : (events.drop (idx + 1))[j - (idx + 1)]? = some r := by
    rw [List.getElem?_drop, show idx + 1 + (j - (idx + 1)) = j by omega]
    exact hjr
  rw [isTurnCompleted, if_neg (by omega), List.any_eq_true]
  exact ⟨r, List.mem_of_getElem? hlater, hmarker⟩

/-- The cut is at the start of the `keepRecent`-th last turn, if there are more. -/
theorem cutoffSeq_eq (events : List EventRow) {keepRecent : ℕ} (hkeep : 0 < keepRecent) :
    cutoffSeq events keepRecent =
      if (startRows events).length ≤ keepRecent then none
      else ((startRows events)[(startRows events).length - keepRecent]?).map EventRow.seq := by
  unfold cutoffSeq
  simp only [length_turnStarts]
  split
  · rfl
  · next hmore =>
    have hlt : (startRows events).length - keepRecent < (startRows events).length := by omega
    have hrow := List.getElem?_eq_getElem hlt
    have hstart : ((turnStarts events)[(startRows events).length - keepRecent]?).map (events[·]?) =
        some (some (startRows events)[(startRows events).length - keepRecent]) := by
      rw [← List.getElem?_map, turnStarts_rows, List.getElem?_map, hrow]
      rfl
    obtain ⟨j, hj, hjr⟩ := Option.map_eq_some_iff.mp hstart
    have hall : ((turnStarts events).take ((startRows events).length - keepRecent)).all
        (isTurnCompleted events) = true := by
      rw [List.all_eq_true]
      intro idx hidx
      obtain ⟨p, hp⟩ := List.mem_iff_getElem?.mp hidx
      rw [List.getElem?_take] at hp
      split at hp
      · next hpq => exact isTurnCompleted_of_lt hpq hp hrow
      · cases hp
    rw [hj, hrow, Option.bind_eq_bind, Option.bind_some, hall, hjr]
    rfl

/-! ## The cut -/

theorem startRowsFrom_split {evs : List EventRow} {last : ℤ} {r : EventRow}
    (h : r ∈ startRowsFrom last evs) : ∃ older newer kept, evs = older ++ r :: newer ∧
      startRowsFrom last evs = kept ++ r :: startRowsFrom r.seq newer := by
  induction evs generalizing last with
  | nil => cases h
  | cons ev evs ih =>
    have htail {last : ℤ} (h : r ∈ startRowsFrom last evs) (pre : List EventRow) :
        ∃ older newer kept, ev :: evs = older ++ r :: newer ∧
          pre ++ startRowsFrom last evs = kept ++ r :: startRowsFrom r.seq newer := by
      obtain ⟨older, newer, kept, heq, hrows⟩ := ih h
      exact ⟨ev :: older, newer, pre ++ kept, by rw [heq]; rfl, by rw [hrows, List.append_assoc]⟩
    rw [startRowsFrom] at h ⊢
    split at h
    · next hm =>
      rw [if_pos hm]
      split at h
      · next hgap =>
        rw [if_pos hgap]
        rcases List.mem_cons.mp h with rfl | h
        · exact ⟨[], evs, [], rfl, rfl⟩
        · exact htail h [ev]
      · next hgap =>
        rw [if_neg hgap]
        exact htail h []
    · next hm =>
      rw [if_neg hm]
      exact htail h []

theorem startRows_split {evs : List EventRow} {r : EventRow} (h : r ∈ startRows evs) :
    ∃ older newer kept, evs = older ++ r :: newer ∧
      startRows evs = kept ++ startRows (r :: newer) := by
  cases evs with
  | nil => cases h
  | cons ev evs =>
    rcases List.mem_cons.mp h with rfl | h
    · exact ⟨[], evs, [], rfl, rfl⟩
    · obtain ⟨older, newer, kept, heq, hrows⟩ := startRowsFrom_split h
      exact ⟨ev :: older, newer, ev :: kept, by rw [heq]; rfl, by rw [startRows, hrows]; rfl⟩

theorem startRows_sublist (evs : List EventRow) : (startRows evs).Sublist evs := by
  have hfrom (evs : List EventRow) : ∀ last, (startRowsFrom last evs).Sublist evs := by
    induction evs with
    | nil => exact fun _ => .slnil
    | cons ev evs ih =>
      intro last
      rw [startRowsFrom]
      split
      · split
        · exact (ih _).cons_cons _
        · exact (ih _).cons _
      · exact (ih _).cons _
  cases evs with
  | nil => exact .slnil
  | cons ev evs => exact (hfrom evs _).cons_cons _

/-- **From the start of a turn on, the turns are the same** when the older events are gone. -/
theorem startRows_cut {evs : List EventRow} (hin : InOrder evs) {p : ℕ} {r : EventRow}
    (hr : (startRows evs)[p]? = some r) :
    startRows (evs.filter fun ev => r.seq ≤ ev.seq) = (startRows evs).drop p := by
  obtain ⟨older, newer, kept, heq, hrows⟩ := startRows_split (List.mem_of_getElem? hr)
  have hsorted : InOrder (startRows evs) := hin.sublist (startRows_sublist evs)
  rw [heq] at hin
  obtain ⟨-, hnewer, holder⟩ := List.pairwise_append.mp hin
  have hcut : evs.filter (fun ev => r.seq ≤ ev.seq) = r :: newer := by
    rw [heq, List.filter_append]
    have hout : older.filter (fun ev => r.seq ≤ ev.seq) = [] := by
      refine List.filter_eq_nil_iff.mpr fun ev hev => ?_
      have := holder ev hev r List.mem_cons_self
      simp only [decide_eq_true_eq, not_le]
      exact this
    have hall : (r :: newer).filter (fun ev => r.seq ≤ ev.seq) = r :: newer := by
      refine List.filter_eq_self.mpr fun ev hev => ?_
      rw [decide_eq_true_eq]
      rcases List.mem_cons.mp hev with rfl | hev
      · exact Int.le_refl _
      · have := (List.pairwise_cons.mp hnewer).1 ev hev
        omega
    rw [hout, hall, List.nil_append]
  -- `r` stands at one place only
  have hplace : p = kept.length := by
    have hkept : (startRows evs)[kept.length]? = some r := by
      rw [hrows, startRows, List.getElem?_append_right (Nat.le_refl _), Nat.sub_self]
      rfl
    obtain ⟨hp, hpr⟩ := List.getElem?_eq_some_iff.mp hr
    obtain ⟨hk, hkr⟩ := List.getElem?_eq_some_iff.mp hkept
    by_contra hne
    rcases Nat.lt_or_gt_of_ne hne with h | h
    · have := List.pairwise_iff_getElem.mp hsorted _ _ hp hk h
      rw [hpr, hkr] at this
      omega
    · have := List.pairwise_iff_getElem.mp hsorted _ _ hk hp h
      rw [hpr, hkr] at this
      omega
  rw [hcut, hrows, hplace, List.drop_left]

/-! ## Turns of the table -/

/-- A turn of the session starts at the number `s`: with the first event, or with a marker that
stands more than the gap behind the first event and behind every marker before it. -/
def TurnStart (t : EventTable) (sid : String) (s : ℤ) : Prop :=
  ∃ r ∈ t.list, r.aggregateId = sid ∧ r.seq = s ∧
    ((∀ r' ∈ t.list, r'.aggregateId = sid → s ≤ r'.seq) ∨
      r.isMarker = true ∧ ∀ r' ∈ t.list, r'.aggregateId = sid → r'.seq < s →
        (r'.isMarker = true ∨ ∀ r'' ∈ t.list, r''.aggregateId = sid → r'.seq ≤ r''.seq) →
          s - r'.seq > TURN_MARKER_DEDUP_GAP)

/-- The `k`-th last turn starts at `s`: `k` turns start at `s` or later. -/
def KthLastStart (t : EventTable) (sid : String) (k : ℕ) (s : ℤ) : Prop :=
  TurnStart t sid s ∧
    ∃ l : List ℤ, l.Nodup ∧ l.length = k ∧ ∀ x, x ∈ l ↔ TurnStart t sid x ∧ s ≤ x

theorem mem_startRowsFrom {evs : List EventRow} (hin : InOrder evs) {last : ℤ}
    (hlast : ∀ ev ∈ evs, last < ev.seq) {r : EventRow} :
    r ∈ startRowsFrom last evs ↔ r ∈ evs ∧ r.isMarker = true ∧
      r.seq - last > TURN_MARKER_DEDUP_GAP ∧
      ∀ r' ∈ evs, r'.isMarker = true → r'.seq < r.seq → r.seq - r'.seq > TURN_MARKER_DEDUP_GAP := by
  induction evs generalizing last with
  | nil => simp [startRowsFrom]
  | cons ev evs ih =>
    obtain ⟨hafter, hin'⟩ := List.pairwise_cons.mp hin
    have hev := hlast ev List.mem_cons_self
    have hmarker := @ih hin' ev.seq hafter
    have hother := @ih hin' last fun e he => hlast e (List.mem_cons_of_mem _ he)
    -- an event behind `ev` is judged by the same events, and by `ev` if this is a marker
    have hbehind (hr : r ∈ evs) (hm : ev.isMarker = true) :
        (r.seq - last > TURN_MARKER_DEDUP_GAP ∧ ∀ r' ∈ ev :: evs, r'.isMarker = true →
          r'.seq < r.seq → r.seq - r'.seq > TURN_MARKER_DEDUP_GAP) ↔
        (r.seq - ev.seq > TURN_MARKER_DEDUP_GAP ∧ ∀ r' ∈ evs, r'.isMarker = true →
          r'.seq < r.seq → r.seq - r'.seq > TURN_MARKER_DEDUP_GAP) := by
      constructor
      · intro h
        exact ⟨h.2 ev List.mem_cons_self hm (hafter r hr),
          fun r' hr' => h.2 r' (List.mem_cons_of_mem _ hr')⟩
      · intro h
        refine ⟨by omega, fun r' hr' hm' hlt => ?_⟩
        rcases List.mem_cons.mp hr' with rfl | hr'
        · exact h.1
        · exact h.2 r' hr' hm' hlt
    have hfirst : r = ev → ∀ r' ∈ ev :: evs, ¬ r'.seq < r.seq := by
      intro heq r' hr' hlt
      rw [heq] at hlt
      rcases List.mem_cons.mp hr' with rfl | hr'
      · omega
      · have := hafter r' hr'
        omega
    have hnot : r ∈ evs → r ≠ ev := by
      intro hr heq
      have := hafter r hr
      rw [heq] at this
      omega
    rw [startRowsFrom]
    by_cases hm : ev.isMarker = true
    · rw [if_pos hm]
      by_cases hgap : ev.seq - last > TURN_MARKER_DEDUP_GAP
      · rw [if_pos hgap, List.mem_cons, hmarker]
        constructor
        · rintro (rfl | ⟨hr, hrm, hrest⟩)
          · exact ⟨List.mem_cons_self, hm, hgap,
              fun r' hr' _ hlt => absurd hlt (hfirst rfl r' hr')⟩
          · exact ⟨List.mem_cons_of_mem _ hr, hrm, (hbehind hr hm).mpr hrest⟩
        · intro h
          rcases List.mem_cons.mp h.1 with rfl | hr
          · exact .inl rfl
          · exact .inr ⟨hr, h.2.1, (hbehind hr hm).mp h.2.2⟩
      · rw [if_neg hgap, hmarker]
        constructor
        · intro h
          exact ⟨List.mem_cons_of_mem _ h.1, h.2.1, (hbehind h.1 hm).mpr h.2.2⟩
        · intro h
          rcases List.mem_cons.mp h.1 with rfl | hr
          · exact absurd h.2.2.1 hgap
          · exact ⟨hr, h.2.1, (hbehind hr hm).mp h.2.2⟩
    · rw [if_neg hm, hother]
      constructor
      · intro h
        refine ⟨List.mem_cons_of_mem _ h.1, h.2.1, h.2.2.1, fun r' hr' hm' hlt => ?_⟩
        rcases List.mem_cons.mp hr' with rfl | hr'
        · exact absurd hm' hm
        · exact h.2.2.2 r' hr' hm' hlt
      · intro h
        rcases List.mem_cons.mp h.1 with rfl | hr
        · exact absurd h.2.1 hm
        · exact ⟨hr, h.2.1, h.2.2.1, fun r' hr' => h.2.2.2 r' (List.mem_cons_of_mem _ hr')⟩

theorem turnStart_iff (t : EventTable) (sid : String) (s : ℤ) :
    TurnStart t sid s ↔ s ∈ (startRows (selectEvents t sid)).map EventRow.seq := by
  have hall {p : EventRow → Prop} : (∀ r ∈ t.list, r.aggregateId = sid → p r) ↔
      ∀ r ∈ selectEvents t sid, p r := by
    constructor
    · intro h r hr
      exact h r (mem_selectEvents.mp hr).1 (mem_selectEvents.mp hr).2
    · intro h r hr hid
      exact h r (mem_selectEvents.mpr ⟨hr, hid⟩)
  have hstart : TurnStart t sid s ↔ ∃ r ∈ selectEvents t sid, r.seq = s ∧
      ((∀ r' ∈ selectEvents t sid, s ≤ r'.seq) ∨
        r.isMarker = true ∧ ∀ r' ∈ selectEvents t sid, r'.seq < s →
          (r'.isMarker = true ∨ ∀ r'' ∈ selectEvents t sid, r'.seq ≤ r''.seq) →
            s - r'.seq > TURN_MARKER_DEDUP_GAP) := by
    unfold TurnStart
    simp only [hall, mem_selectEvents, and_assoc]
  rw [hstart, List.mem_map]
  have hin := inOrder_selectEvents t sid
  generalize selectEvents t sid = evs at hin ⊢
  cases evs with
  | nil => simp [startRows]
  | cons ev evs =>
    obtain ⟨hafter, hin'⟩ := List.pairwise_cons.mp hin
    have hleast : ∀ r ∈ ev :: evs, ev.seq ≤ r.seq := by
      intro r hr
      rcases List.mem_cons.mp hr with rfl | hr
      · exact Int.le_refl _
      · exact Int.le_of_lt (hafter r hr)
    have hmem := fun r => @mem_startRowsFrom evs hin' ev.seq hafter r
    refine exists_congr fun r => ?_
    rw [startRows, List.mem_cons, List.mem_cons, hmem]
    constructor
    · rintro ⟨hr, rfl, hcase⟩
      refine ⟨?_, rfl⟩
      rcases hr with rfl | hr
      · exact .inl rfl
      · right
        have hlt := hafter r hr
        rcases hcase with hle | ⟨hm, hgap⟩
        · have := hle ev List.mem_cons_self
          omega
        · exact ⟨hr, hm, hgap ev List.mem_cons_self hlt (.inr hleast),
            fun r' hr' hm' hlt => hgap r' (List.mem_cons_of_mem _ hr') hlt (.inl hm')⟩
    · rintro ⟨hr, rfl⟩
      rcases hr with rfl | ⟨hr, hm, hgap, hrest⟩
      · exact ⟨.inl rfl, rfl, .inl hleast⟩
      · refine ⟨.inr hr, rfl, .inr ⟨hm, fun r' hr' hlt hor => ?_⟩⟩
        rcases List.mem_cons.mp hr' with rfl | hr'
        · exact hgap
        · rcases hor with hm' | hfirst
          · exact hrest r' hr' hm' hlt
          · have h1 := hfirst ev List.mem_cons_self
            have h2 := hafter r' hr'
            omega

/-- The `k`-th last turn by its place in the list. -/
theorem kthLastStart_iff (t : EventTable) (sid : String) {k : ℕ} (hk : 0 < k) (s : ℤ) :
    KthLastStart t sid k s ↔ k ≤ (startRows (selectEvents t sid)).length ∧
      ((startRows (selectEvents t sid))[(startRows (selectEvents t sid)).length - k]?).map
        EventRow.seq = some s := by
  unfold KthLastStart
  simp only [turnStart_iff]
  have hin : ((startRows (selectEvents t sid)).map EventRow.seq).Pairwise (· < ·) :=
    List.pairwise_map.mpr ((inOrder_selectEvents t sid).sublist (startRows_sublist _))
  rw [← List.getElem?_map, ← @List.length_map _ _ (startRows (selectEvents t sid)) EventRow.seq]
  generalize (startRows (selectEvents t sid)).map EventRow.seq = starts at hin ⊢
  -- the starts from the `p`-th on are those that are not less
  have hfrom {p : ℕ} {x : ℤ} (hp : starts[p]? = some x) (y : ℤ) :
      y ∈ starts.drop p ↔ y ∈ starts ∧ x ≤ y := by
    obtain ⟨hlt, rfl⟩ := List.getElem?_eq_some_iff.mp hp
    have hsplit := List.take_append_drop p starts
    rw [← hsplit] at hin
    obtain ⟨-, hlate, hcross⟩ := List.pairwise_append.mp hin
    have hhead : starts.drop p = starts[p] :: starts.drop (p + 1) :=
      List.drop_eq_getElem_cons hlt
    rw [hhead] at hlate hcross
    constructor
    · intro hy
      refine ⟨List.mem_of_mem_drop hy, ?_⟩
      rw [hhead] at hy
      rcases List.mem_cons.mp hy with rfl | hy
      · exact Int.le_refl _
      · exact Int.le_of_lt ((List.pairwise_cons.mp hlate).1 y hy)
    · intro h
      have hy := h.1
      rw [← hsplit] at hy
      rcases List.mem_append.mp hy with hy | hy
      · have := hcross y hy _ List.mem_cons_self
        omega
      · exact hy
  have hnodup : starts.Nodup := hin.imp fun h => Int.ne_of_lt h
  constructor
  · rintro ⟨hs, l, hl, hlen, hmem⟩
    obtain ⟨p, hp⟩ := List.mem_iff_getElem?.mp hs
    have hperm : l.Perm (starts.drop p) := by
      refine (List.perm_ext_iff_of_nodup hl (hnodup.sublist (List.drop_sublist _ _))).mpr ?_
      intro y
      rw [hmem, hfrom hp]
    have hlen' := hperm.length_eq
    rw [hlen, List.length_drop] at hlen'
    have hplt := (List.getElem?_eq_some_iff.mp hp).1
    refine ⟨by omega, ?_⟩
    rw [show starts.length - k = p by omega]
    exact hp
  · rintro ⟨hle, hs⟩
    refine ⟨List.mem_of_getElem? hs, starts.drop (starts.length - k),
      hnodup.sublist (List.drop_sublist _ _), ?_, hfrom hs⟩
    rw [List.length_drop]
    omega

/-! ## What is deleted -/

/-- The table that is left. -/
def strippedTable (t t' : EventTable) (sid : String) (keepRecent : ℕ) : EventTable :=
  match cutoffSeq (selectEvents t sid) keepRecent with
  | none => t'
  | some cutoff => deleteBefore t' sid cutoff

theorem stripRunningSession_table (t : EventTable) (others : EventTable → EventTable)
    {sid : String} (hsid : sid ≠ "") (keepRecent : ℤ) :
    (stripRunningSession (some t) others sid keepRecent).2 =
      some (strippedTable t (others t) sid (max 1 keepRecent).toNat) := by
  unfold stripRunningSession strippedTable
  dsimp only
  rw [if_neg hsid]
  split
  · next hnone =>
    rw [hnone]
    rfl
  · split <;> rfl

theorem stripRunningSession_empty (t : EventTable) (others : EventTable → EventTable)
    (keepRecent : ℤ) :
    stripRunningSession (some t) others "" keepRecent =
      ({ error := some "empty backend_session_id" }, some (others t)) := rfl

/-- Others have only added events, with larger numbers than those of their session. -/
structure Appends (t t' : EventTable) : Prop where
  kept : ∀ r ∈ t.list, r ∈ t'.list
  larger : ∀ r ∈ t'.list,
    r ∈ t.list ∨ ∀ r' ∈ t.list, r'.aggregateId = r.aggregateId → r'.seq < r.seq

theorem Appends.not_before_first {t t' : EventTable} (h : Appends t t') {sid : String}
    {first : EventRow} (hfirst : (startRows (selectEvents t sid))[0]? = some first)
    {r : EventRow} (hr : r ∈ t'.list) (hid : r.aggregateId = sid) : first.seq ≤ r.seq := by
  have hin := inOrder_selectEvents t sid
  have hsel := mem_selectEvents.mp (startRows_sub (List.mem_of_getElem? hfirst))
  rcases h.larger r hr with hold | hnew
  · have hmem : r ∈ selectEvents t sid := mem_selectEvents.mpr ⟨hold, hid⟩
    generalize selectEvents t sid = evs at hin hfirst hmem
    cases evs with
    | nil => cases hmem
    | cons ev evs =>
      cases hfirst
      rcases List.mem_cons.mp hmem with rfl | hmem
      · exact Int.le_refl _
      · exact Int.le_of_lt ((List.pairwise_cons.mp hin).1 r hmem)
  · exact Int.le_of_lt (hnew first hsel.1 (hsel.2.trans hid.symm))

theorem mem_strippedTable {t t' : EventTable} (h : Appends t t') (sid : String) {k : ℕ}
    (hk : 0 < k) (r : EventRow) :
    r ∈ (strippedTable t t' sid k).list ↔ r ∈ t'.list ∧
      ¬ (r.aggregateId = sid ∧ ∃ s, KthLastStart t sid k s ∧ r.seq < s) := by
  unfold strippedTable
  simp only [kthLastStart_iff t sid hk, cutoffSeq_eq _ hk]
  by_cases hmore : (startRows (selectEvents t sid)).length ≤ k
  · rw [if_pos hmore]
    constructor
    · intro hr
      refine ⟨hr, ?_⟩
      rintro ⟨hid, s, ⟨hle, hs⟩, hlt⟩
      rw [show (startRows (selectEvents t sid)).length - k = 0 by omega] at hs
      obtain ⟨first, hfirst, rfl⟩ := Option.map_eq_some_iff.mp hs
      have := h.not_before_first hfirst hr hid
      omega
    · exact fun h => h.1
  · rw [if_neg hmore]
    have hplace : (startRows (selectEvents t sid)).length - k <
        (startRows (selectEvents t sid)).length := by omega
    rw [List.getElem?_eq_getElem hplace, Option.map_some]
    dsimp only [deleteBefore]
    rw [Rows.mem_delete, decide_eq_false_iff_not]
    refine and_congr_right fun _ => not_congr (and_congr_right fun _ => ?_)
    constructor
    · intro h
      exact ⟨_, ⟨by omega, rfl⟩, h⟩
    · rintro ⟨s, ⟨-, hs⟩, hlt⟩
      cases hs
      exact hlt

theorem deleteBefore_twice (t : EventTable) (sid : String) {c c' : ℤ} (h : c ≤ c') :
    deleteBefore (deleteBefore t sid c) sid c' = deleteBefore t sid c' := by
  refine Rows.ext ?_
  dsimp only [deleteBefore, Rows.delete]
  rw [List.filter_filter]
  refine List.filter_congr fun r _ => ?_
  by_cases hid : r.aggregateId = sid
  · by_cases hlt : r.seq < c'
    · simp [hid, hlt]
    · have hnot : ¬ r.seq < c := by omega
      simp [hid, hlt, hnot]
  · simp [hid]

/-- **Two strips are the one that keeps less.** -/
theorem strippedTable_twice (t : EventTable) (sid : String) {j k : ℕ} (hj : 0 < j) (hk : 0 < k) :
    strippedTable (strippedTable t t sid j) (strippedTable t t sid j) sid k =
      strippedTable t t sid (min j k) := by
  have hin := inOrder_selectEvents t sid
  have hsorted := hin.sublist (startRows_sublist (selectEvents t sid))
  by_cases hmore : (startRows (selectEvents t sid)).length ≤ j
  · have hsame : strippedTable t t sid j = t := by
      rw [strippedTable, cutoffSeq_eq _ hj, if_pos hmore]
    rw [hsame]
    rcases Nat.le_total k j with hkj | hjk
    · rw [Nat.min_eq_right hkj]
    · rw [Nat.min_eq_left hjk, hsame, strippedTable, cutoffSeq_eq _ hk, if_pos (by omega)]
  · -- the first strip leaves the last `j` turns
    have hplace : (startRows (selectEvents t sid)).length - j <
        (startRows (selectEvents t sid)).length := by omega
    have hrow := List.getElem?_eq_getElem hplace
    have hfirst : strippedTable t t sid j = deleteBefore t sid
        (startRows (selectEvents t sid))[(startRows (selectEvents t sid)).length - j].seq := by
      rw [strippedTable, cutoffSeq_eq _ hj, if_neg hmore, hrow]
      rfl
    have hleft := startRows_cut hin hrow
    rw [hfirst, strippedTable, selectEvents_deleteBefore, cutoffSeq_eq _ hk, hleft,
      List.length_drop, List.getElem?_drop]
    rcases Nat.lt_or_ge k j with hkj | hjk
    · have hkplace : (startRows (selectEvents t sid)).length - k <
          (startRows (selectEvents t sid)).length := by omega
      rw [Nat.min_eq_right (Nat.le_of_lt hkj), if_neg (by omega), strippedTable,
        cutoffSeq_eq _ hk, if_neg (by omega),
        show (startRows (selectEvents t sid)).length - j +
          ((startRows (selectEvents t sid)).length - ((startRows (selectEvents t sid)).length - j) -
            k) = (startRows (selectEvents t sid)).length - k by omega,
        List.getElem?_eq_getElem hkplace]
      have hlt := List.pairwise_iff_getElem.mp hsorted _ _ hplace hkplace (by omega)
      exact deleteBefore_twice t sid (Int.le_of_lt hlt)
    · rw [Nat.min_eq_left hjk, if_pos (by omega)]
      exact hfirst.symm

/-- The strip left `u` of the table `t'`: no event of another session is deleted, none that is
not before the `k`-th last turn, and every earlier one if the session has a name. -/
structure KeepsRecent (t t' : EventTable) (sid : String) (k : ℕ) (u : EventTable) : Prop where
  only : ∀ r ∈ u.list, r ∈ t'.list
  others : ∀ r ∈ t'.list, r.aggregateId ≠ sid → r ∈ u.list
  recent : ∀ r ∈ t'.list, r.aggregateId = sid → (∀ s, KthLastStart t sid k s → s ≤ r.seq) →
    r ∈ u.list
  earlier : sid ≠ "" → ∀ r ∈ t'.list, r.aggregateId = sid → ∀ s, KthLastStart t sid k s →
    r.seq < s → r ∉ u.list

/-- **A strip keeps the recent turns** of a running session, whatever is appended meanwhile; and
without appends two strips are the one that keeps less, so that repeating one changes nothing. -/
theorem strip_keeps_recent (sid : String) :
    (∀ (t : EventTable) (others : EventTable → EventTable) (keepRecent : ℤ),
      Appends t (others t) →
        ∃ u, (stripRunningSession (some t) others sid keepRecent).2 = some u ∧
          KeepsRecent t (others t) sid (max 1 keepRecent).toNat u) ∧
    ∀ (db : Option EventTable) (j k : ℤ),
      (stripRunningSession (stripRunningSession db id sid j).2 id sid k).2 =
          (stripRunningSession db id sid (min (max j 1) (max k 1))).2 ∧
        (stripRunningSession (stripRunningSession db id sid k).2 id sid k).2 =
          (stripRunningSession db id sid k).2 := by
  constructor
  · intro t others keepRecent happ
    by_cases hsid : sid = ""
    · subst hsid
      rw [stripRunningSession_empty]
      exact ⟨_, rfl, fun _ h => h, fun _ h _ => h, fun _ h _ _ => h, fun h => absurd rfl h⟩
    · rw [stripRunningSession_table t others hsid]
      have hmem := mem_strippedTable happ sid (k := (max 1 keepRecent).toNat) (by omega)
      refine ⟨_, rfl, fun r hr => ((hmem r).mp hr).1, fun r hr hne => ?_,
        fun r hr hid hle => ?_, fun _ r _ hid s hs hlt hr => ?_⟩
      · exact (hmem r).mpr ⟨hr, fun h => hne h.1⟩
      · refine (hmem r).mpr ⟨hr, ?_⟩
        rintro ⟨-, s, hs, hlt⟩
        have := hle s hs
        omega
      · exact ((hmem r).mp hr).2 ⟨hid, s, hs, hlt⟩
  · intro db j k
    cases db with
    | none => exact ⟨rfl, rfl⟩
    | some t =>
      by_cases hsid : sid = ""
      · subst hsid
        exact ⟨rfl, rfl⟩
      · have htwice (j k : ℤ) :
            (stripRunningSession (stripRunningSession (some t) id sid j).2 id sid k).2 =
              some (strippedTable t t sid (min (max 1 j).toNat (max 1 k).toNat)) := by
          rw [stripRunningSession_table t id hsid, stripRunningSession_table _ id hsid, id, id,
            strippedTable_twice t sid (by omega) (by omega)]
        rw [htwice, htwice, stripRunningSession_table t id hsid,
          stripRunningSession_table t id hsid, Nat.min_self,
          show (max 1 (min (max j 1) (max k 1))).toNat = min (max 1 j).toNat (max 1 k).toNat by
            omega]
        exact ⟨rfl, rfl⟩

/-- Three turns, the second of which starts with two markers. -/
def threeTurns : EventTable :=
  ⟨[⟨"ses_1", 1, "session.created.1"⟩, ⟨"ses_1", 2, "message.part.updated.1"⟩,
    ⟨"ses_1", 10, "session.next.agent.switched.1"⟩, ⟨"ses_1", 11, "session.next.model.switched.1"⟩,
    ⟨"ses_2", 3, "session.created.1"⟩, ⟨"ses_1", 20, "session.next.agent.switched.1"⟩], by decide⟩

/-- An event is appended. -/
def withAppend (t : EventTable) : EventTable := t.put ⟨"ses_1", 30, "message.part.updated.1"⟩

theorem strip_keeps_recent_three : ∃ u,
    (stripRunningSession (some threeTurns) withAppend "ses_1" 2).2 = some u ∧
      KeepsRecent threeTurns (withAppend threeTurns) "ses_1" 2 u :=
  (strip_keeps_recent "ses_1").1 threeTurns withAppend 2 ⟨by decide, by decide⟩

end AiMeshChat.Oracle
