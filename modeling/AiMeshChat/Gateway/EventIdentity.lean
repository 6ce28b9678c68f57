import AiMeshChat.Gateway.Events
import AiMeshChat.Lib.History

/-!
# The identity of events

Events are appended to one store, which is swept from time to time, and shipped to
another one in any order and any number of times. The next sequence of a stream is one
more than the greatest in the table, so it repeats one that was given before as soon as
the newest event of the stream has been pruned; and the other store takes the new event
for the old one and drops it.

`lossless_iff` says that nothing else can go wrong, short of a host without a name.
-/

namespace AiMeshChat.Gateway

open Lib EventStore

/-! ## Two stores -/

/-- The two stores, the events that were appended to the first, and those that were shipped
to the second. -/
structure Feed where
  source : EventStore
  dest : EventStore
  appended : List RuntimeEvent := []
  shipped : List RuntimeEvent := []

inductive FeedStep
  | append (d : RuntimeEventDraft)
  | sweep (now : ℕ)
  | ship (n : ℕ)

namespace Feed

def start (host destHost : String) : Feed :=
  { source := { sourceHost := host }, dest := { sourceHost := destHost } }

/-- Ship an event. What the second store answers is not looked at. -/
def ship (f : Feed) (e : RuntimeEvent) : Feed :=
  match f.dest.ingestRemote e with
  | .ok (_, dest) => { f with dest := dest, shipped := f.shipped ++ [e] }
  | .error _ => { f with shipped := f.shipped ++ [e] }

def step (f : Feed) : FeedStep → Feed
  | .append d =>
    match f.source.appendLocal d with
    | .ok (e, source) => { f with source := source, appended := f.appended ++ [e] }
    | .error _ => f
  | .sweep now => { f with source := (f.source.sweep now).2 }
  | .ship n =>
    match f.appended[n]? with
    | some e => f.ship e
    | none => f

def run (f : Feed) (steps : List FeedStep) : Feed := History.after step f steps

/-- No two events have the same identity, and each that was shipped is in the second store
exactly once, with everything but its number there. -/
structure Lossless (f : Feed) : Prop where
  distinct : (f.appended.map RuntimeEvent.identity).Nodup
  stored : ∀ e ∈ f.shipped, ∃ r, f.dest.events.list.filter (·.identity = e.identity) = [r] ∧
    { r with eventId := e.eventId } = e

/-- The events that were appended to a stream of the first store. -/
def stream (f : Feed) (runtimeId : String) (generation : ℤ) : List RuntimeEvent :=
  f.appended.filter (·.inStream f.source.sourceHost runtimeId generation)

/-- An accepted draft finds the newest event of its stream still in the table, and an event
is shipped from a host that has a name. -/
def Meets (f : Feed) : FeedStep → Prop
  | .append d => d.validate = .ok () → ∀ e, (f.stream d.runtimeId d.generation).getLast? = some e →
      e ∈ f.source.events.list
  | .sweep _ => True
  | .ship n => n < f.appended.length → f.source.sourceHost ≠ ""

def Admits (f : Feed) (steps : List FeedStep) : Prop := History.Admits step Meets f steps

/-! ## The invariant -/

structure Inv (f : Feed) : Prop where
  sub : ∀ e ∈ f.source.events.list, e ∈ f.appended
  made : ∀ e ∈ f.appended, e.sourceHost = f.source.sourceHost ∧ e.runtimeId ≠ "" ∧
    e.kind ∈ EVENT_KINDS ∧ e.payload.isDict = true
  /-- The events of a stream are numbered from one on. -/
  counted : ∀ runtimeId generation,
    (f.stream runtimeId generation).map (·.sourceSequence) =
      (List.range (f.stream runtimeId generation).length).map fun k : ℕ => (k : ℤ) + 1
  origin : ∀ r ∈ f.dest.events.list, ∃ e ∈ f.appended, { r with eventId := e.eventId } = e
  lossless : f.Lossless

theorem inv_start (host destHost : String) : (start host destHost).Inv :=
  ⟨fun _ h => absurd h List.not_mem_nil, fun _ h => absurd h List.not_mem_nil, fun _ _ => rfl,
    fun _ h => absurd h List.not_mem_nil, List.nodup_nil, fun _ h => absurd h List.not_mem_nil⟩

variable {f : Feed}

variable {e : RuntimeEvent} {runtimeId : String} {generation : ℤ} {d : RuntimeEventDraft}

theorem mem_stream :
    e ∈ f.stream runtimeId generation ↔ e ∈ f.appended ∧ e.sourceHost = f.source.sourceHost ∧
      e.runtimeId = runtimeId ∧ e.generation = generation := by
  simp [stream, RuntimeEvent.inStream, and_assoc]

theorem Inv.sequence_iff (h : f.Inv) {n : ℤ} :
    (∃ e ∈ f.stream runtimeId generation, e.sourceSequence = n) ↔
      1 ≤ n ∧ n ≤ (f.stream runtimeId generation).length := by
  rw [← List.mem_map, h.counted]
  simp only [List.mem_map, List.mem_range]
  constructor
  · rintro ⟨k, hk, rfl⟩
    omega
  · rintro ⟨h1, hn⟩
    exact ⟨(n - 1).toNat, by omega, by omega⟩

theorem Inv.newest (h : f.Inv) (he : (f.stream runtimeId generation).getLast? = some e) :
    e.sourceSequence = (f.stream runtimeId generation).length := by
  have hlast := congrArg List.getLast? (h.counted runtimeId generation)
  rw [List.getLast?_map, he, List.getLast?_map, List.getLast?_range] at hlast
  have hpos : 0 < (f.stream runtimeId generation).length :=
    List.length_pos_of_mem (List.mem_of_getLast? he)
  rw [if_neg (by omega)] at hlast
  simp only [Option.map_some, Option.some.injEq] at hlast
  omega

theorem Inv.maxSequence_le (h : f.Inv) (runtimeId : String) (generation : ℤ) :
    0 ≤ maxSequence f.source.events f.source.sourceHost runtimeId generation ∧
      maxSequence f.source.events f.source.sourceHost runtimeId generation ≤
        (f.stream runtimeId generation).length := by
  rcases maxSequence_cases f.source.events f.source.sourceHost runtimeId generation with
    hzero | ⟨e, he, hstream, hseq⟩
  · omega
  · have hmem : e ∈ f.stream runtimeId generation := List.mem_filter.mpr ⟨h.sub e he, hstream⟩
    have hbound := h.sequence_iff.mp ⟨e, hmem, hseq⟩
    omega

/-! ### Appending -/

/-- The stores after an accepted draft. -/
def accept (f : Feed) (d : RuntimeEventDraft) : Feed :=
  { f with
    source := f.source.insert (f.source.numbered d)
    appended := f.appended ++ [f.source.numbered d] }

theorem step_append (hd : d.validate = .ok ()) : f.step (.append d) = f.accept d := by
  have h := (@appendLocal_eq_ok f.source _ d _).mpr ⟨hd, rfl, rfl⟩
  simp only [step, h, accept]

theorem step_append_error (hd : d.validate ≠ .ok ()) : f.step (.append d) = f := by
  unfold step
  dsimp only
  split
  · next h => exact absurd (appendLocal_eq_ok.mp h).1 hd
  · rfl

theorem stream_accept (d : RuntimeEventDraft) (runtimeId : String) (generation : ℤ) :
    (f.accept d).stream runtimeId generation =
      if d.runtimeId = runtimeId ∧ d.generation = generation then
        f.stream runtimeId generation ++ [f.source.numbered d]
      else f.stream runtimeId generation := by
  have hin : (f.source.numbered d).inStream f.source.sourceHost runtimeId generation =
      decide (d.runtimeId = runtimeId ∧ d.generation = generation) := by
    simp only [RuntimeEvent.inStream, numbered, decide_true, Bool.true_and, Bool.decide_and]
    rfl
  show (f.appended ++ [f.source.numbered d]).filter _ = _
  rw [List.filter_append, List.filter_cons, List.filter_nil]
  show f.stream runtimeId generation ++ (if (f.source.numbered d).inStream f.source.sourceHost
    runtimeId generation = true then _ else _) = _
  rw [hin]
  by_cases h : d.runtimeId = runtimeId ∧ d.generation = generation
  · simp only [h, and_self, decide_true, if_true]
  · simp only [h, decide_false, Bool.false_eq_true, if_false, List.append_nil]

theorem Inv.numbered_sequence (h : f.Inv) {d : RuntimeEventDraft}
    (hkept : ∀ e, (f.stream d.runtimeId d.generation).getLast? = some e →
      e ∈ f.source.events.list) :
    (f.source.numbered d).sourceSequence = (f.stream d.runtimeId d.generation).length + 1 := by
  obtain ⟨hle, hle'⟩ := h.maxSequence_le d.runtimeId d.generation
  show maxSequence f.source.events f.source.sourceHost d.runtimeId d.generation + 1 = _
  cases hlast : (f.stream d.runtimeId d.generation).getLast? with
  | none =>
    have hnil : f.stream d.runtimeId d.generation = [] := List.getLast?_eq_none_iff.mp hlast
    rw [hnil] at hle' ⊢
    simp only [List.length_nil] at hle' ⊢
    omega
  | some e =>
    have hseq := h.newest hlast
    obtain ⟨-, hhost, hrid, hgen⟩ := mem_stream.mp (List.mem_of_getLast? hlast)
    have hmax := le_maxSequence (hkept e hlast)
    rw [hhost, hrid, hgen] at hmax
    omega

theorem Inv.eq_of_identity (h : f.Inv) {e' : RuntimeEvent} (he : e ∈ f.appended)
    (he' : e' ∈ f.appended) (heq : e.identity = e'.identity) : e = e' :=
  List.inj_on_of_nodup_map h.lossless.distinct he he' heq

theorem inv_append (h : f.Inv) (hG : f.Meets (.append d)) : (f.step (.append d)).Inv := by
  by_cases hd : d.validate = .ok ()
  · rw [step_append hd]
    have hseq := h.numbered_sequence (hG hd)
    obtain ⟨⟨hrid, -⟩, hkind, hpayload⟩ := validate_eq_ok.mp hd
    have hfresh : (f.source.numbered d).identity ∉ f.appended.map RuntimeEvent.identity := by
      intro hmem
      obtain ⟨e, he, heq⟩ := List.mem_map.mp hmem
      obtain ⟨hhost, hrid', hgen, hs⟩ := Identity.mk.inj heq
      have hstream : e ∈ f.stream d.runtimeId d.generation := mem_stream.mpr ⟨he, hhost, hrid', hgen⟩
      have hbound := h.sequence_iff.mp ⟨e, hstream, rfl⟩
      omega
    refine ⟨?_, ?_, ?_, ?_, ?_, ?_⟩
    · intro e he
      rcases Rows.mem_put.mp he with rfl | ⟨he, -⟩
      · exact List.mem_append_right _ (List.mem_singleton_self _)
      · exact List.mem_append_left _ (h.sub e he)
    · intro e he
      rcases List.mem_append.mp he with he | he
      · exact h.made e he
      · obtain rfl := List.mem_singleton.mp he
        exact ⟨rfl, hrid, hkind, hpayload⟩
    · intro rid g
      rw [stream_accept]
      split
      · next hin =>
        obtain ⟨rfl, rfl⟩ := hin
        rw [List.map_append, h.counted, List.length_append, List.length_singleton,
          List.range_succ, List.map_append, List.map_singleton, List.map_singleton, hseq]
      · exact h.counted rid g
    · intro r hr
      obtain ⟨e, he, heq⟩ := h.origin r hr
      exact ⟨e, List.mem_append_left _ he, heq⟩
    · show ((f.appended ++ [f.source.numbered d]).map RuntimeEvent.identity).Nodup
      rw [List.map_append, List.map_singleton]
      exact h.lossless.distinct.append (List.nodup_singleton _)
        (List.disjoint_singleton.mpr hfresh)
    · exact h.lossless.stored
  · rw [step_append_error hd]
    exact h

/-! ### Sweeping and shipping -/

theorem inv_sweep {now : ℕ} (h : f.Inv) : (f.step (.sweep now)).Inv :=
  ⟨fun e he => h.sub e (mem_of_mem_swept he), h.made, h.counted, h.origin, h.lossless.distinct,
    h.lossless.stored⟩

theorem payload_of_isDict {p : Json} (h : p.isDict = true) :
    (if p.truthy then p else .obj []) = p := by
  cases p with
  | obj fields =>
    cases fields with
    | nil => rfl
    | cons x xs => rfl
  | _ => cases h

theorem ingest_made {s : EventStore} {e : RuntimeEvent} (hhost : e.sourceHost ≠ "")
    (hrid : e.runtimeId ≠ "") (hseq : 0 < e.sourceSequence) (hkind : e.kind ∈ EVENT_KINDS)
    (hpayload : e.payload.isDict = true) :
    ∃ answer s', s.ingestRemote e = .ok (answer, s') ∧
      match s.events.get? e.identity with
      | some _ => s' = s
      | none => s' = s.insert { e with eventId := s.lastId + 1 } := by
  unfold ingestRemote
  rw [if_neg (by tauto), if_neg (by omega), if_neg (by tauto), payload_of_isDict hpayload]
  dsimp only
  cases s.events.get? e.identity with
  | some r => exact ⟨_, _, rfl, rfl⟩
  | none => exact ⟨_, _, rfl, rfl⟩

theorem Inv.sequence_pos (h : f.Inv) (he : e ∈ f.appended) : 0 < e.sourceSequence := by
  have hstream : e ∈ f.stream e.runtimeId e.generation :=
    mem_stream.mpr ⟨he, (h.made e he).1, rfl, rfl⟩
  have hbound := h.sequence_iff.mp ⟨e, hstream, rfl⟩
  omega

theorem inv_ship_event (h : f.Inv) (he : e ∈ f.appended)
    (hhost : f.source.sourceHost ≠ "") : (f.ship e).Inv := by
  obtain ⟨hsame, hrid, hkind, hpayload⟩ := h.made e he
  obtain ⟨answer, dest, hingest, hdest⟩ := @ingest_made f.dest e (hsame ▸ hhost) hrid
    (h.sequence_pos he) hkind hpayload
  have hship : f.ship e = { f with dest := dest, shipped := f.shipped ++ [e] } := by
    simp only [ship, hingest]
  rw [hship]
  cases hget : f.dest.events.get? e.identity with
  | some r =>
    rw [hget] at hdest
    subst hdest
    refine ⟨h.sub, h.made, h.counted, h.origin, h.lossless.distinct, fun e' he' => ?_⟩
    rcases List.mem_append.mp he' with he' | he'
    · exact h.lossless.stored e' he'
    · obtain rfl := List.mem_singleton.mp he'
      -- the row is there under the number of an event that was appended, and that is this one
      obtain ⟨e₁, he₁, heq⟩ := h.origin r (Rows.mem_of_get? hget)
      have hrow : r.identity = e'.identity := Rows.key_of_get? hget
      have hidentity : e₁.identity = e'.identity := by
        rw [← heq]
        exact hrow
      obtain rfl := h.eq_of_identity he₁ he hidentity
      exact ⟨r, by rw [Rows.filter_key, hget]; rfl, heq⟩
  | none =>
    rw [hget] at hdest
    subst hdest
    have hlist : (f.dest.events.put { e with eventId := f.dest.lastId + 1 }).list =
        f.dest.events.list ++ [{ e with eventId := f.dest.lastId + 1 }] := Rows.put_list_of_none hget
    refine ⟨h.sub, h.made, h.counted, fun r hr => ?_, h.lossless.distinct, fun e' he' => ?_⟩
    · rcases Rows.mem_put.mp hr with rfl | ⟨hr, -⟩
      · exact ⟨e, he, rfl⟩
      · exact h.origin r hr
    · show ∃ r, (f.dest.events.put _).list.filter _ = [r] ∧ _
      rw [hlist, List.filter_append]
      rcases List.mem_append.mp he' with he' | he'
      · obtain ⟨r, hr, heq⟩ := h.lossless.stored e' he'
        have hne : e.identity ≠ e'.identity := by
          intro hid
          have hmem : r ∈ f.dest.events.list.filter (·.identity = e'.identity) := by
            rw [hr]
            exact List.mem_singleton_self r
          rw [Rows.filter_key, ← hid, hget] at hmem
          cases hmem
        refine ⟨r, ?_, heq⟩
        rw [hr]
        have hnew : [{ e with eventId := f.dest.lastId + 1 }].filter
            (·.identity = e'.identity) = [] := by
          refine List.filter_eq_nil_iff.mpr fun r' hr' => ?_
          obtain rfl := List.mem_singleton.mp hr'
          exact fun hid => hne (of_decide_eq_true hid)
        rw [hnew, List.append_nil]
      · obtain rfl := List.mem_singleton.mp he'
        refine ⟨{ e' with eventId := f.dest.lastId + 1 }, ?_, rfl⟩
        rw [Rows.filter_key, hget]
        simp [RuntimeEvent.identity]

/-- **One step keeps the invariant**, if it meets the condition. -/
theorem inv_step {s : FeedStep} (h : f.Inv) (hG : f.Meets s) : (f.step s).Inv := by
  cases s with
  | append d => exact inv_append h hG
  | sweep now => exact inv_sweep h
  | ship n =>
    show (match f.appended[n]? with | some e => f.ship e | none => f).Inv
    cases hn : f.appended[n]? with
    | none => exact h
    | some e =>
      obtain ⟨hlt, heq⟩ := List.getElem?_eq_some_iff.mp hn
      exact inv_ship_event h (heq ▸ List.getElem_mem hlt) (hG hlt)

/-! ## The other direction -/

/-- Every row of the second store comes from a host with a name. -/
def Named (f : Feed) : Prop := ∀ r ∈ f.dest.events.list, r.sourceHost ≠ ""

/-- What cannot be made good again: two events of one identity, or an event shipped from a
host without a name. -/
def Lossy (f : Feed) : Prop :=
  ¬ (f.appended.map RuntimeEvent.identity).Nodup ∨ ∃ e ∈ f.shipped, e.sourceHost = ""

theorem not_lossless (h : f.Lossy) (hnamed : f.Named) : ¬ f.Lossless := by
  intro hless
  rcases h with hdup | ⟨e, he, hhost⟩
  · exact hdup hless.distinct
  · obtain ⟨r, hr, heq⟩ := hless.stored e he
    have hmem : r ∈ f.dest.events.list := List.mem_of_mem_filter (hr ▸ List.mem_singleton_self r)
    refine hnamed r hmem ?_
    rw [← hhost, ← heq]

theorem ship_shipped (e : RuntimeEvent) : (f.ship e).shipped = f.shipped ++ [e] := by
  unfold ship
  split <;> rfl

theorem ship_appended (e : RuntimeEvent) : (f.ship e).appended = f.appended := by
  unfold ship
  split <;> rfl

theorem named_ship (h : f.Named) : (f.ship e).Named := by
  unfold ship
  split
  · next answer dest hingest =>
    unfold ingestRemote at hingest
    split at hingest
    · cases hingest
    · next hnames =>
      split at hingest
      · cases hingest
      · split at hingest
        · cases hingest
          exact h
        · dsimp only at hingest
          split at hingest
          · cases hingest
            exact h
          · cases hingest
            intro r hr
            rcases Rows.mem_put.mp hr with rfl | ⟨hr, -⟩
            · exact fun hhost => hnames (.inl hhost)
            · exact h r hr
  · exact h

theorem step_ship (n : ℕ) : f.step (.ship n) = f ∨
    ∃ e ∈ f.appended, f.step (.ship n) = f.ship e := by
  show (match f.appended[n]? with | some e => f.ship e | none => f) = f ∨ _
  cases hn : f.appended[n]? with
  | none => exact .inl rfl
  | some e =>
    refine .inr ⟨e, List.mem_of_getElem? hn, ?_⟩
    simp only [step, hn]

theorem named_step (s : FeedStep) (h : f.Named) : (f.step s).Named := by
  cases s with
  | append d =>
    by_cases hd : d.validate = .ok ()
    · rw [step_append hd]
      exact h
    · rw [step_append_error hd]
      exact h
  | sweep now => exact h
  | ship n =>
    rcases f.step_ship n with heq | ⟨e, -, heq⟩ <;> rw [heq]
    · exact h
    · exact named_ship h

theorem step_grows (s : FeedStep) :
    f.appended <+: (f.step s).appended ∧ f.shipped <+: (f.step s).shipped := by
  cases s with
  | append d =>
    by_cases hd : d.validate = .ok ()
    · rw [step_append hd]
      exact ⟨List.prefix_append _ _, List.prefix_rfl⟩
    · rw [step_append_error hd]
      exact ⟨List.prefix_rfl, List.prefix_rfl⟩
  | sweep now => exact ⟨List.prefix_rfl, List.prefix_rfl⟩
  | ship n =>
    rcases f.step_ship n with heq | ⟨e, -, heq⟩ <;> rw [heq]
    · exact ⟨List.prefix_rfl, List.prefix_rfl⟩
    · rw [ship_shipped, ship_appended]
      exact ⟨List.prefix_rfl, List.prefix_append _ _⟩

theorem lossy_step (s : FeedStep) (h : f.Lossy) : (f.step s).Lossy := by
  obtain ⟨happ, hship⟩ := f.step_grows s
  rcases h with hdup | ⟨e, he, hhost⟩
  · exact .inl fun hnodup => hdup (hnodup.sublist (happ.sublist.map _))
  · exact .inr ⟨e, hship.subset he, hhost⟩

theorem Inv.lossy_of_not_meets (h : f.Inv) {s : FeedStep} (hG : ¬ f.Meets s) :
    (f.step s).Lossy := by
  cases s with
  | sweep now => exact absurd trivial hG
  | append d =>
    simp only [Meets, not_forall] at hG
    obtain ⟨hd, e, hlast, hgone⟩ := hG
    have hstream := List.mem_of_getLast? hlast
    obtain ⟨hmem, hhost, hrid, hgen⟩ := mem_stream.mp hstream
    obtain ⟨hnonneg, hle⟩ := h.maxSequence_le d.runtimeId d.generation
    -- the greatest number in the table is not that of the newest event, which is gone
    have hne : maxSequence f.source.events f.source.sourceHost d.runtimeId d.generation ≠
        (f.stream d.runtimeId d.generation).length := by
      intro heq
      have hpos : 0 < (f.stream d.runtimeId d.generation).length := List.length_pos_of_mem hstream
      rcases maxSequence_cases f.source.events f.source.sourceHost d.runtimeId d.generation with
        hzero | ⟨r, hr, hin, hseq⟩
      · omega
      · have hr' := h.sub r hr
        obtain ⟨-, hhost', hrid', hgen'⟩ := mem_stream.mp (List.mem_filter.mpr ⟨hr', hin⟩)
        have hidentity : r.identity = e.identity := by
          simp only [RuntimeEvent.identity, hhost, hhost', hrid, hrid', hgen, hgen', hseq, heq,
            h.newest hlast]
        obtain rfl := h.eq_of_identity hr' hmem hidentity
        exact hgone hr
    have hgiven : ∃ e' ∈ f.stream d.runtimeId d.generation,
        e'.sourceSequence = (f.source.numbered d).sourceSequence :=
      h.sequence_iff.mpr ⟨by
        show 1 ≤ maxSequence f.source.events f.source.sourceHost d.runtimeId d.generation + 1
        omega, by
        show maxSequence f.source.events f.source.sourceHost d.runtimeId d.generation + 1 ≤ _
        omega⟩
    obtain ⟨e', he', hseq⟩ := hgiven
    obtain ⟨hmem', hhost', hrid', hgen'⟩ := mem_stream.mp he'
    have hidentity : (f.source.numbered d).identity = e'.identity := by
      simp only [RuntimeEvent.identity, hhost', hrid', hgen', hseq]
      rfl
    rw [step_append hd]
    left
    show ¬ ((f.appended ++ [f.source.numbered d]).map RuntimeEvent.identity).Nodup
    rw [List.map_append, List.map_singleton, hidentity]
    intro hnodup
    exact (List.disjoint_of_nodup_append hnodup) (List.mem_map_of_mem hmem')
      (List.mem_singleton_self _)
  | ship n =>
    simp only [Meets, not_forall, not_not] at hG
    obtain ⟨hlt, hhost⟩ := hG
    have hn : f.appended[n]? = some f.appended[n] := List.getElem?_eq_getElem hlt
    have hstep : f.step (.ship n) = f.ship f.appended[n] := by
      simp only [step, hn]
    rw [hstep]
    right
    rw [ship_shipped]
    refine ⟨f.appended[n], List.mem_append_right _ (List.mem_singleton_self _), ?_⟩
    rw [(h.made _ (List.getElem_mem hlt)).1, hhost]

/-- **No identity is used twice, and every shipped event is stored once with its payload**,
exactly when every append finds the newest event of its stream and the host has a name. -/
theorem lossless_iff (host destHost : String) (ss : List FeedStep) :
    ((start host destHost).run ss).Lossless ↔ (start host destHost).Admits ss := by
  have hgood (f : Feed) (h : f.Inv ∧ f.Named) : f.Lossless := h.1.lossless
  have hstep (f : Feed) (s : FeedStep) (h : f.Inv ∧ f.Named) (hs : f.Meets s) :
      (f.step s).Inv ∧ (f.step s).Named := ⟨inv_step h.1 hs, named_step s h.2⟩
  have hdamage (f : Feed) (s : FeedStep) (h : f.Inv ∧ f.Named) (hs : ¬ f.Meets s) :
      (f.step s).Lossy ∧ (f.step s).Named := ⟨h.1.lossy_of_not_meets hs, named_step s h.2⟩
  have hstays (f : Feed) (s : FeedStep) (h : f.Lossy ∧ f.Named) :
      (f.step s).Lossy ∧ (f.step s).Named := ⟨lossy_step s h.1, named_step s h.2⟩
  have hbad (f : Feed) (h : f.Lossy ∧ f.Named) : ¬ f.Lossless := not_lossless h.1 h.2
  exact History.good_iff_admits hgood hstep hdamage hstays hbad
    ⟨inv_start host destHost, fun _ h => absurd h List.not_mem_nil⟩

/-! ## The newest event is pruned -/

/-- A tool update of the first of January. -/
def toolUpdate (text : String) : RuntimeEventDraft where
  runtimeId := "r"
  generation := 1
  sessionId := "s"
  kind := "TOOL_UPDATED"
  createdAt := "2026-01-01T00:00:00Z"
  payload := .obj [("text", .str text)]

/-- An update, a sweep a month later, another update; both are shipped. -/
def prunedBetween : List FeedStep :=
  [.append (toolUpdate "a"), .ship 0, .sweep 1769904000000000, .append (toolUpdate "b"), .ship 1]

theorem sequence_reused : ¬ ∀ (host destHost : String) (ss : List FeedStep),
    ((start host destHost).run ss).Lossless := by
  intro h
  have hdup : ¬ (((start "h" "d").run prunedBetween).appended.map RuntimeEvent.identity).Nodup := by
    decide +kernel
  exact hdup (h "h" "d" prunedBetween).distinct

end Feed

end AiMeshChat.Gateway
