import AiMeshChat.Gateway.Idempotency

/-!
# What is posted is on record

A message of a command is written only by the call that inserted the row, and no update
changes the columns that the insert took from that call. So the row says which call wrote
the message, also when calls with other bodies or for other runtimes use its `request_id`.
-/

namespace AiMeshChat.Gateway

open Lib

/-- The columns that say where a row comes from. -/
structure RowOrigin where
  requestId : String
  runtimeId : String
  generation : ℤ
  payloadHash : String

def CommandRow.origin (row : CommandRow) : RowOrigin :=
  ⟨row.requestId, row.runtimeId, row.generation, row.payloadHash⟩

/-- What a call records that found the runtime as `record`. -/
def SendParams.origin (sha256 : String → String) (p : SendParams) (record : RuntimeRecord) :
    RowOrigin := ⟨p.requestId, p.runtimeId, record.generation, p.hash sha256⟩

/-- No step removes a row or changes where it comes from, and a message comes from its write. -/
theorem Control.perform_keeps {s s' : Control} {i : ℕ} {o : GateOp} {c : GateChoice} {a : GateAns o}
    (hw : s.perform i o c = some (a, s')) :
    (∀ r row, s.commands r = some row →
      ∃ row', s'.commands r = some row' ∧ row'.origin = row.origin) ∧
    ∀ m ∈ s'.posted, m ∈ s.posted ∨ o = .mail m.args := by
  cases o with
  | enqueue new =>
    simp only [Control.perform] at hw
    split at hw
    · cases hw
      exact ⟨fun r row h => ⟨row, h, rfl⟩, fun m hm => .inl hm⟩
    · next hnone =>
      cases hw
      refine ⟨fun r row h => ⟨row, ?_, rfl⟩, fun m hm => .inl hm⟩
      refine (Function.update_of_ne ?_ _ _).trans h
      rintro rfl
      rw [hnone] at h
      cases h
  | update r' ch basis =>
    simp only [Control.perform] at hw
    split at hw
    · next row' hrow' =>
      cases hw
      refine ⟨fun r row h => ?_, fun m hm => .inl hm⟩
      by_cases hr : r = r'
      · subst hr
        rw [hrow'] at h
        cases h
        exact ⟨row'.apply ch, Function.update_self .., rfl⟩
      · exact ⟨row, (Function.update_of_ne hr _ _).trans h, rfl⟩
    · cases hw
      exact ⟨fun r row h => ⟨row, h, rfl⟩, fun m hm => .inl hm⟩
  | mail args =>
    simp only [Control.perform, Option.some.injEq, Prod.mk.injEq] at hw
    obtain ⟨-, rfl⟩ := hw
    refine ⟨fun r row h => ⟨row, h, rfl⟩, fun m hm => ?_⟩
    dsimp only at hm
    split at hm
    · rcases List.mem_cons.mp hm with rfl | hold
      · exact .inr rfl
      · exact .inl hold
    · exact .inl hm
  | _ =>
    simp only [Control.perform, Option.some.injEq, Prod.mk.injEq] at hw
    obtain ⟨-, rfl⟩ := hw
    exact ⟨fun r row h => ⟨row, h, rfl⟩, fun m hm => .inl hm⟩

section

variable (sha256 : String → String) (reqs : ℕ → Option GateRequest)

/-- The message is that of one of the calls, and this is what the call records. -/
def Due (a : Mailbox.SendArgs) (origin : RowOrigin) : Prop :=
  ∃ i p record, reqs i = some (.send p) ∧ a = mailArgs p record ∧ origin = p.origin sha256 record

/-- The state is the origin of the row that the call has inserted; only with one it writes. -/
abbrev recordRole : Role GateOp GateAns where
  St := Option RowOrigin
  allows := fun q o => match o with
    | .mail a => ∃ origin, q = some origin ∧ Due sha256 reqs a origin
    | _ => True
  assumes := fun _ _ _ => True
  next := fun q o a => match o, a with
    | .enqueue row, true => some row.origin
    | _, _ => q

/-- The command has a row, whose origin is in `P`. -/
def Control.Has (s : Control) (r : String) (P : RowOrigin → Prop) : Prop :=
  ∃ row, s.commands r = some row ∧ P row.origin

/-- Inserted rows are there, and every message is one that its row records. -/
structure OnRecord (s : Control) (q : ℕ → Option RowOrigin) : Prop where
  inserted : ∀ i origin, q i = some origin → s.Has origin.requestId (· = origin)
  posted : ∀ m ∈ s.posted, s.Has m.args.commandId (Due sha256 reqs m.args)

theorem recordRole_ignores {q : Option RowOrigin} {r : String} {o : GateOp}
    (ho : Follows r o ∨ Acks r o) : (recordRole sha256 reqs).Ignores q o := by
  cases o with
  | enqueue row => exact ho.elim False.elim False.elim
  | mail a => exact ho.elim False.elim False.elim
  | _ => exact ⟨trivial, fun _ => rfl⟩

theorem runtimeSend_records (fuel : ℕ) {i : ℕ} {p : SendParams} (hp : reqs i = some (.send p)) :
    (runtimeSend sha256 fuel p).Keeps (recordRole sha256 reqs) none fun _ _ => True := by
  have hrest {q : Option RowOrigin} {t : GateCall CommandResult} (ht : t.Only (Follows p.requestId)) :
      t.Keeps (recordRole sha256 reqs) q fun _ _ => True :=
    (ht.keeps fun _ ho => recordRole_ignores sha256 reqs (.inl ho)).mono fun _ _ _ => trivial
  refine require_keeps (fun _ => trivial) fun _ => ⟨trivial, fun record _ => ?_⟩
  cases record with
  | none => trivial
  | some record =>
    refine require_keeps (fun _ => trivial) fun _ => ⟨trivial, fun row _ => ?_⟩
    cases row with
    | some existing => exact hrest (replayCommand_only _ _ _)
    | none =>
      refine ⟨trivial, fun uid _ => ⟨trivial, fun created _ => ?_⟩⟩
      cases created with
      | false => exact hrest (finish_only _)
      | true =>
        show (dispatch fuel p record).Keeps (recordRole sha256 reqs)
          (some (p.origin sha256 record)) _
        unfold dispatch
        split_ifs
        · exact hrest (refusal_only _ _ _)
        · obtain ⟨k, hk, hafter, -⟩ := mailAndGate_eq fuel p record
          rw [hk]
          exact ⟨⟨_, rfl, i, p, record, hp, rfl, rfl⟩, fun answer _ => hrest (hafter answer)⟩

theorem call_records (fuel : ℕ) {i : ℕ} {q : GateRequest} (hq : reqs i = some q) :
    (q.call sha256 fuel).Keeps (recordRole sha256 reqs) none fun _ _ => True := by
  cases q with
  | send p => exact runtimeSend_records sha256 reqs fuel hq
  | ack a =>
    exact ((runtimeCommandAck_only a).keeps fun _ ho =>
      recordRole_ignores sha256 reqs (.inr ho)).mono fun _ _ _ => trivial

/-- **One step** of a call that keeps its role. -/
theorem onRecord_op : Pool.OpKeeps gateWorld (recordRole sha256 reqs) (fun _ _ _ _ => True)
    (OnRecord sha256 reqs) := by
  intro s q i o c a s' h ho _ hw
  obtain ⟨hrows, hmessages⟩ := Control.perform_keeps (i := i) hw
  have hkept {r : String} {P : RowOrigin → Prop} (hr : s.Has r P) : s'.Has r P := by
    obtain ⟨row, hrow, hP⟩ := hr
    obtain ⟨row', hrow', horigin⟩ := hrows r row hrow
    exact ⟨row', hrow', by rwa [horigin]⟩
  refine ⟨trivial, fun j origin hj => ?_, fun m hm => ?_⟩
  · by_cases hold : q j = some origin
    · exact hkept (h.inserted j origin hold)
    · have hji : j = i := by
        by_contra hne
        rw [Function.update_of_ne hne] at hj
        exact hold hj
      subst hji
      rw [Function.update_self] at hj
      cases o with
      | enqueue row =>
        cases a with
        | false => exact absurd hj hold
        | true =>
          cases hj
          simp only [gateWorld, Control.perform] at hw
          split at hw
          · cases hw
          · cases hw
            exact ⟨row, Function.update_self .., rfl⟩
      | _ => exact absurd hj hold
  · rcases hmessages m hm with hold | rfl
    · exact hkept (h.posted m hold)
    · obtain ⟨origin, hq, hdue⟩ := ho
      obtain ⟨row, hrow, rfl⟩ := hkept (h.inserted i origin hq)
      obtain ⟨_, p, record, -, hargs, horigin⟩ := id hdue
      have hid : m.args.commandId = row.origin.requestId := by
        rw [hargs, horigin]
        rfl
      rw [hid]
      exact ⟨row, hrow, hdue⟩

end

end AiMeshChat.Gateway
