import AiMeshChat.Swarm.Rules
import Mathlib.Logic.Basic

/-!
# Every accepted message has one envelope

An envelope lies in the outbox or in the dead letter. The engine decides from its
cache and from the outbox whether a message is known, and neither knows the dead
letter, nor the session of an id in the cache. So a message that was given up can be
accepted a second time, and an id that was used in one session counts as accepted in
another (`conserved_run` says when all is well).
-/

namespace AiMeshChat.Swarm

open Lib

/-! ## Mail -/

/-- The envelope of each message in the outbox, and in the dead letter. -/
abbrev Mail := Key → Option Content × Option Content

def Site.mail (s : Site) : Mail := fun k => ((s.entry k).envelope, (s.entry k).dead)

/-- Whether the message `k` lies in the dead letter after one more operation. -/
def buriedStep (k : Key) (b : Bool) (x : ℕ × Op) : Bool :=
  match x.2 with
  | .file k' .bury => b || k' = k
  | .file k' .exhume => b && k' ≠ k
  | _ => b

/-- The message `k` was moved to the dead letter and not back. -/
def buried (k : Key) (L : Trace) : Bool := L.foldl (buriedStep k) false

/-- No transport was contacted for the message `k` while it lay in the dead letter. -/
def NeverWhileBuried (k : Key) (L : Trace) : Prop :=
  ∀ L₁ t o L₂, L = L₁ ++ (t, o) :: L₂ → o.attempts k = true → buried k L₁ = false

theorem buried_concat (k : Key) (L : Trace) (x : ℕ × Op) :
    buried k (L ++ [x]) = buriedStep k (buried k L) x := by
  rw [buried, List.foldl_append]
  rfl

theorem NeverWhileBuried.concat {k : Key} {L : Trace} {t : ℕ} {o : Op} (h : NeverWhileBuried k L)
    (ho : o.attempts k = true → buried k L = false) : NeverWhileBuried k (L ++ [(t, o)]) := by
  intro L₁ t' o' L₂ hL hatt
  rcases List.eq_nil_or_concat L₂ with rfl | ⟨L₃, x, rfl⟩
  · obtain ⟨rfl, hx⟩ := List.append_inj' hL rfl
    cases hx
    exact ho hatt
  · rw [List.concat_eq_append, ← List.cons_append, ← List.append_assoc] at hL
    exact h L₁ t' o' L₃ (List.append_inj' hL rfl).1 hatt

/-- Conservation: each accepted message has exactly one envelope, and a
message in the dead letter is left alone. -/
structure Conserved (accepted : List Key) (s : Site) : Prop where
  once : ∀ k ∈ accepted, Xor ((s.entry k).envelope.isSome = true) ((s.entry k).dead.isSome = true)
  quiet : ∀ k, NeverWhileBuried k s.trace

/-- The invariant. -/
structure Accounted (accepted : List Key) (s : Site) : Prop where
  present : ∀ k ∈ accepted, (s.mail k).1.isSome ∨ (s.mail k).2.isSome
  once : ∀ k, (s.mail k).1.isSome → (s.mail k).2 = none
  buried : ∀ k, buried k s.trace = (s.mail k).2.isSome
  quiet : ∀ k, NeverWhileBuried k s.trace

theorem Accounted.conserved {acc : List Key} {s : Site} (h : Accounted acc s) :
    Conserved acc s where
  once k hk := by
    rcases h.present k hk with hp | hp
    · have hd : (s.entry k).dead = none := h.once k hp
      exact .inl ⟨hp, by simp [hd]⟩
    · refine .inr ⟨hp, fun he => ?_⟩
      have hd : (s.entry k).dead = none := h.once k he
      have hp : (s.entry k).dead.isSome := hp
      rw [hd] at hp
      cases hp
  quiet := h.quiet

/-! ## One operation -/

section Operation

variable {acc : List Key} {s : Site} {o : Op} {c : Choice}

theorem Accounted.step (h : Accounted acc s)
    (hdead : ∀ k, ((s.next o c).mail k).2 = (s.mail k).2)
    (hnew : ∀ k, ((s.next o c).mail k).1.isSome → (s.mail k).1.isSome ∨ (s.mail k).2 = none)
    (hkeep : ∀ k ∈ acc, (s.mail k).1.isSome → ((s.next o c).mail k).1.isSome)
    (hbury : ∀ k b t, buriedStep k b (t, o) = b)
    (hquiet : ∀ k, o.attempts k = true → (s.mail k).2 = none) : Accounted acc (s.next o c) where
  present k hk := (h.present k hk).imp (hkeep k hk) fun hd => by rwa [hdead]
  once k hk := by
    rw [hdead]
    exact (hnew k hk).elim (h.once k) id
  buried k := by rw [Site.trace_next, buried_concat, hbury, h.buried, hdead]
  quiet k := by
    rw [Site.trace_next]
    refine (h.quiet k).concat fun hatt => ?_
    rw [h.buried, hquiet k hatt]
    rfl

/-- A file operation that moves no envelope. -/
def FileOp.Calm : FileOp → Prop
  | .openEnvelope => False
  | .putEnvelope _ => False
  | .unlinkEnvelope => False
  | .bury => False
  | .exhume => False
  | _ => True

/-- An operation that moves no envelope and contacts no transport. -/
def Op.Calm : Op → Prop
  | .file _ f => f.Calm
  | .openTmp _ => False
  | .publish _ => False
  | .getTransport _ _ => False
  | .getCapabilities _ _ => False
  | .mailbox _ _ _ => False
  | .localMailbox _ _ => False
  | _ => True

theorem FileOp.Calm.apply {f : FileOp} (h : f.Calm) (now : ℕ) (e : Entry) :
    (f.apply now e).envelope = e.envelope ∧ (f.apply now e).dead = e.dead := by
  cases f <;> first | exact h.elim | exact ⟨rfl, rfl⟩ | skip
  rw [FileOp.apply, Entry.buryStatus]
  split
  · split <;> exact ⟨rfl, rfl⟩
  · exact ⟨rfl, rfl⟩

theorem mail_next_file (k : Key) (f : FileOp) : (s.next (.file k f) c).mail =
    Function.update s.mail k ((f.apply (s.clock + c.delay) (s.entry k)).envelope,
      (f.apply (s.clock + c.delay) (s.entry k)).dead) := by
  funext k'
  simp only [Site.mail, Site.entry_next_file, Function.update_apply]
  split <;> rfl

theorem mail_next_calm (h : o.Calm) : (s.next o c).mail = s.mail := by
  cases o with
  | file k f =>
    obtain ⟨he, hd⟩ := FileOp.Calm.apply h (s.clock + c.delay) (s.entry k)
    rw [mail_next_file, he, hd]
    exact Function.update_eq_self k s.mail
  | openTmp k => exact h.elim
  | publish k => exact h.elim
  | _ => rfl

theorem Op.Calm.buriedStep (h : o.Calm) (k : Key) (b : Bool) (t : ℕ) :
    Swarm.buriedStep k b (t, o) = b := by
  cases o with
  | file k' f => cases f <;> first | exact h.elim | rfl
  | _ => rfl

theorem Op.Calm.attempts (h : o.Calm) (k : Key) : o.attempts k = false := by
  cases o <;> first | exact h.elim | rfl

theorem Accounted.calm (h : Accounted acc s) (ho : o.Calm) : Accounted acc (s.next o c) :=
  h.step (fun k => by rw [mail_next_calm ho])
    (fun k hk => .inl (by rwa [mail_next_calm ho] at hk)) (fun k _ hk => by rwa [mail_next_calm ho])
    (fun k b t => ho.buriedStep k b t) (fun k hatt => by rw [ho.attempts] at hatt; cases hatt)

variable {k : Key} {dest : Option HostSpec}

theorem mail_next_sends (h : o.Sends k dest) : (s.next o c).mail = s.mail := by
  cases o <;> first | exact h.elim | rfl

theorem Op.Sends.attempts {k' : Key} (h : o.Sends k dest)
    (hatt : o.attempts k' = true) : k' = k := by
  cases o <;> first | cases hatt | exact (of_decide_eq_true hatt).symm.trans h.1

theorem Op.Sends.buriedStep (h : o.Sends k dest) (k' : Key) (b : Bool)
    (t : ℕ) : Swarm.buriedStep k' b (t, o) = b := by
  cases o <;> first | exact h.elim | rfl

theorem Accounted.sends (h : Accounted acc s) (ho : o.Sends k dest)
    (hk : (s.mail k).2 = none) : Accounted acc (s.next o c) :=
  h.step (fun k => by rw [mail_next_sends ho])
    (fun k hk => .inl (by rwa [mail_next_sends ho] at hk))
    (fun k _ hk => by rwa [mail_next_sends ho]) ho.buriedStep
    (fun k' hatt => ho.attempts hatt ▸ hk)

end Operation

/-! ## Methods -/

section Methods

variable {acc : List Key} {s : Site} {P : Choice → Prop} {α : Type}

theorem calm_total {p : Call α} (hp : p.Bounded Op.Calm) (h : Accounted acc s) :
    p.Total world 0 P (Accounted acc) s fun _ s' => s'.mail = s.mail := by
  refine (bounded_total (J := fun t => Accounted acc t ∧ t.mail = s.mail) hp ?_ ⟨h, rfl⟩).mono
    (fun _ ht => ht.1) (fun _ _ _ ht => ht.2)
  rintro o c t ho - ⟨ht, hm⟩
  exact ⟨ht.calm ho, by rw [mail_next_calm ho, hm]⟩

variable {k : Key} {o : Op} {c : Choice}

theorem sends_total {p : Call α} {dest : Option HostSpec} (hp : p.Bounded (Op.Sends k dest))
    (h : Accounted acc s) (hk : (s.mail k).2 = none) :
    p.Total world 0 P (Accounted acc) s fun _ s' => s'.mail = s.mail := by
  refine (bounded_total (J := fun t => Accounted acc t ∧ t.mail = s.mail) hp ?_ ⟨h, rfl⟩).mono
    (fun _ ht => ht.1) (fun _ _ _ ht => ht.2)
  rintro o c t ho - ⟨ht, hm⟩
  exact ⟨ht.sends ho (by rw [hm, hk]), by rw [mail_next_sends ho, hm]⟩

theorem tmpKey_ne (k : Key) : tmpKey k ≠ k := by
  intro h
  have hlen := congrArg (fun k' : Key => k'.2.length) h
  have h5 : (".tmp-" : String).length = 5 := rfl
  simp only [tmpKey, String.length_append, h5] at hlen
  omega

/-! ### Writing an envelope -/

theorem Accounted.drafting (h : Accounted acc s) (htmp : (s.mail (tmpKey k)).2 = none) {x : Content}
    (hcalm : ∀ k b t, buriedStep k b (t, o) = b) (hatt : ∀ k, o.attempts k = false)
    (hmail : (s.next o c).mail = Function.update s.mail (tmpKey k) (some x, none)) :
    Accounted acc (s.next o c) := by
  have hother {k' : Key} (hk' : k' ≠ tmpKey k) : (s.next o c).mail k' = s.mail k' := by
    rw [hmail, Function.update_of_ne hk']
  refine h.step (fun k' => ?_) (fun k' hk' => ?_) (fun k' _ hk' => ?_) hcalm (fun k' h' => ?_)
  · by_cases hk' : k' = tmpKey k
    · rw [hk', hmail, Function.update_self, htmp]
    · rw [hother hk']
  · by_cases ht : k' = tmpKey k
    · exact .inr (by rw [ht, htmp])
    · rw [hother ht] at hk'
      exact .inl hk'
  · by_cases ht : k' = tmpKey k
    · rw [ht, hmail, Function.update_self]
      rfl
    · rwa [hother ht]
  · rw [hatt] at h'
    cases h'

theorem mail_next_publish {x : Content} {m : Mail}
    (hm : s.mail = Function.update m (tmpKey k) (some x, none)) (hk : (m k).2 = none)
    (htmp : m (tmpKey k) = (none, none)) :
    (s.next (.publish k) c).mail = Function.update m k (some x, none) := by
  have hne : tmpKey k ≠ k := tmpKey_ne k
  have hs (k' : Key) : ((s.entry k').envelope, (s.entry k').dead) =
      if k' = tmpKey k then (some x, none) else m k' := by
    rw [← Function.update_apply m, ← hm]
    rfl
  obtain ⟨he, hd⟩ := Prod.mk.inj ((hs (tmpKey k)).trans (if_pos rfl))
  funext k'
  simp only [Site.next, Site.effect, Site.publish, Site.mail, Site.entry_setEntry, Site.entry_tick,
    Function.update_apply]
  by_cases hk' : k' = k
  · subst hk'
    rw [if_pos rfl, if_pos rfl, if_neg hne.symm, he]
    have hdk := congrArg Prod.snd (hs k')
    rw [if_neg hne.symm, hk] at hdk
    exact Prod.ext rfl hdk
  · rw [if_neg hk', if_neg hk']
    by_cases ht : k' = tmpKey k
    · rw [if_pos ht, ht, htmp, hd]
    · rw [if_neg ht, hs, if_neg ht]

/-- The mail after an envelope was written, or could not be. -/
def written (m : Mail) (k : Key) (env : Envelope) : Except String Unit → Mail
  | .ok _ => Function.update m k (some (.json env), none)
  | .error _ => m

theorem replaceEnvelope_total (h : Accounted acc s) (env : Envelope) (hk : (s.mail k).2 = none)
    (htmp : s.mail (tmpKey k) = (none, none)) :
    (replaceEnvelope k env).Total world 0 P (Accounted acc) s fun r s' =>
      s'.mail = written s.mail k env r := by
  have hacc : tmpKey k ∉ acc := by
    intro hmem
    have hp := h.present _ hmem
    rw [htmp] at hp
    rcases hp with hp | hp <;> cases hp
  refine op_total h fun c _ => ?_
  cases hf : c.fault with
  | some text =>
    have hmail : (s.next (.openTmp k) c).mail = s.mail := by
      simp only [Site.next, Site.effect, hf]
      rfl
    have hnext : Accounted acc (s.next (.openTmp k) c) :=
      h.step (fun k => by rw [hmail]) (fun k hk => .inl (by rwa [hmail] at hk))
        (fun k _ hk => by rwa [hmail]) (fun _ _ _ => rfl) (fun _ hatt => by cases hatt)
    simp only [Site.answer, hf]
    exact ⟨hnext, hmail⟩
  | none =>
    have htmp₂ : (s.mail (tmpKey k)).2 = none := by rw [htmp]
    have hopen : (s.next (.openTmp k) c).mail =
        Function.update s.mail (tmpKey k) (some .torn, none) := by
      funext k'
      simp only [Site.next, Site.effect, hf, Site.mail, Site.entry_setEntry, Function.update_apply]
      split
      · exact Prod.ext rfl htmp₂
      · rfl
    have hs₁ : Accounted acc (s.next (.openTmp k) c) :=
      h.drafting htmp₂ (fun _ _ _ => rfl) (fun _ => rfl) hopen
    simp only [Site.answer, hf]
    generalize s.next (.openTmp k) c = s₁ at hopen hs₁
    have hd₁ : (s₁.mail (tmpKey k)).2 = none := by rw [hopen, Function.update_self]
    refine op_total hs₁ fun c _ => ?_
    have hput : (s₁.next (.file (tmpKey k) (.putEnvelope env)) c).mail =
        Function.update s₁.mail (tmpKey k) (some (.json env), none) := by
      rw [mail_next_file]
      exact congrArg _ (Prod.ext rfl hd₁)
    have hs₂ := hs₁.drafting hd₁ (fun _ _ _ => rfl) (fun _ => rfl) hput
    rw [hopen, Function.update_idem] at hput
    generalize s₁.next (.file (tmpKey k) (.putEnvelope env)) c = s₂ at hput hs₂
    refine last_total hs₂ fun c _ => ?_
    have hpub := mail_next_publish (c := c) hput hk htmp
    refine ⟨hs₂.step (fun k' => ?_) (fun k' hk' => ?_) (fun k' hk'acc hk' => ?_) (fun _ _ _ => rfl)
      (fun _ hatt => by cases hatt), hpub⟩
    · rw [hpub, hput]
      by_cases hkk : k' = k
      · rw [hkk, Function.update_self, Function.update_of_ne (tmpKey_ne k).symm, hk]
      · rw [Function.update_of_ne hkk]
        by_cases ht : k' = tmpKey k
        · rw [ht, Function.update_self, htmp]
        · rw [Function.update_of_ne ht]
    · rw [hpub] at hk'
      by_cases hkk : k' = k
      · rw [hput, hkk, Function.update_of_ne (tmpKey_ne k).symm]
        exact .inr hk
      · rw [Function.update_of_ne hkk] at hk'
        refine .inl ?_
        rw [hput]
        by_cases ht : k' = tmpKey k
        · rw [ht, Function.update_self]
          rfl
        · rwa [Function.update_of_ne ht]
    · have ht : k' ≠ tmpKey k := by
        rintro rfl
        exact hacc hk'acc
      rw [hput, Function.update_of_ne ht] at hk'
      rw [hpub]
      by_cases hkk : k' = k
      · rw [hkk, Function.update_self]
        rfl
      · rwa [Function.update_of_ne hkk]

theorem stamp_total (h : Accounted acc s) {k : Key}
    (htmp : ∀ old, (s.mail k).1 = some (.json old) → old.targetHost.getD "" = "" →
      s.mail (tmpKey k) = (none, none)) :
    (stampOutboxTargetHost k).Total world 0 P (Accounted acc) s fun _ s' =>
      ((s.mail k).1.isSome → (s'.mail k).1.isSome) ∧ (s'.mail k).2 = (s.mail k).2 := by
  refine op_total h fun c _ => ?_
  have hcalm : (s.next (.look k) c).mail = s.mail := mail_next_calm (o := .look k) trivial
  have h₁ : Accounted acc (s.next (.look k) c) := h.calm (o := .look k) trivial
  rw [← hcalm] at htmp ⊢
  have hanswer : (s.tick (.look k) c).answer c (.look k) = s.entry k := rfl
  rw [hanswer]
  have henv : (s.entry k).envelope = ((s.next (.look k) c).mail k).1 := rfl
  rw [henv]
  generalize s.next (.look k) c = s₁ at h₁ htmp
  split
  · next env he =>
    split
    · exact Prog.total_ret h₁ ⟨id, rfl⟩
    · next hno =>
      have hd : (s₁.mail k).2 = none := h₁.once k (by rw [he]; rfl)
      refine (replaceEnvelope_total h₁ _ hd (htmp env he (not_not.mp hno))).mono (fun _ h => h) ?_
      intro r s' _ hm
      cases r with
      | ok u =>
        rw [hm, written, Function.update_self, hd]
        exact ⟨fun _ => rfl, rfl⟩
      | error e =>
        rw [hm]
        exact ⟨id, rfl⟩
  · exact Prog.total_ret h₁ ⟨id, rfl⟩

theorem writeOutbox_total (h : Accounted acc s) (env : Envelope) (hk : (s.mail k).2 = none)
    (htmp : (s.mail k).1 = none → s.mail (tmpKey k) = (none, none)) :
    (writeOutbox k env).Total world 0 P (Accounted acc) s fun r s' =>
      (r = .ok () → (s'.mail k).1.isSome) ∧ s'.mail (tmpKey k) = s.mail (tmpKey k) := by
  refine op_total h fun c _ => ?_
  have hcalm : (s.next (.look k) c).mail = s.mail := mail_next_calm (o := .look k) trivial
  have h₁ : Accounted acc (s.next (.look k) c) := h.calm (o := .look k) trivial
  rw [← hcalm] at hk htmp ⊢
  show (if (s.entry k).envelope.isSome then Prog.ret () else replaceEnvelope k env).Total
    world 0 P (Accounted acc) _ _
  have henv : (s.entry k).envelope = ((s.next (.look k) c).mail k).1 := rfl
  rw [henv]
  generalize s.next (.look k) c = s₁ at h₁ hk htmp
  split
  · next hsome => exact Prog.total_ret h₁ ⟨fun _ => hsome, rfl⟩
  · next hnone =>
    have ht := htmp (by simpa using hnone)
    refine (replaceEnvelope_total h₁ env hk ht).mono (fun _ h => h) fun r s' _ hm => ?_
    cases r with
    | ok u =>
      rw [hm, written, Function.update_self, Function.update_of_ne (tmpKey_ne k)]
      exact ⟨fun _ => rfl, rfl⟩
    | error e =>
      rw [hm]
      exact ⟨(fun hr => by cases hr), rfl⟩

theorem Op.Checks.calm (h : o.Checks k) : o.Calm := by
  cases o <;> first | exact h.elim | trivial

theorem FileOp.Notes.calm {f : FileOp} (h : f.Notes) : f.Calm := by
  cases f <;> first | exact h.elim | trivial

theorem Op.Reports.calm (h : o.Reports k) : o.Calm := by
  cases o with
  | file k' f => exact FileOp.Notes.calm h.2
  | now => trivial
  | _ => exact h.elim

theorem remember_calm (mid : String) (r : SendReceipt) : (remember mid r).Bounded Op.Calm :=
  remember_bounded trivial

theorem writeStatus_calm (k : Key) (kind detail : String) :
    (writeStatus k kind detail).Bounded Op.Calm :=
  (writeStatus_bounded k kind detail).mono fun _ h => h.calm

theorem sendFirst_total (h : Accounted acc s) (cfg : Config) (env : Envelope)
    (remote : Option HostSpec) (hk : (s.mail k).1.isSome)
    (htmp : s.mail (tmpKey k) = (none, none)) :
    (sendFirst cfg k env remote).Total world 0 P (Accounted acc) s fun _ s' =>
      (s'.mail k).1.isSome := by
  have hd : (s.mail k).2 = none := h.once k hk
  cases remote with
  | some host =>
    refine attempt_bind_total (sends_total (remoteSend_bounded cfg k host env) h hd) ?_
    intro r s' h' hm
    rw [← hm] at hk
    refine (calm_total ?_ h').mono (fun _ h => h) fun _ _ _ hm' => by rwa [hm']
    cases r with
    | ok u =>
      exact Prog.bounded_op_bind trivial fun _ => Prog.bounded_op_bind trivial fun _ =>
        remember_calm _ _
    | error text => exact (writeStatus_calm k _ _).bind fun _ => trivial
  | none =>
    refine attempt_bind_total (sends_total (localSend_bounded k env) h hd) ?_
    intro r s' h' hm
    rw [← hm] at hk htmp
    cases r with
    | ok u =>
      refine (calm_total ?_ h').mono (fun _ h => h) fun _ _ _ hm' => by rwa [hm']
      exact Prog.bounded_op_bind trivial fun _ => remember_calm _ _
    | error text =>
      refine (calm_total (writeStatus_calm k _ text) h').bind ?_ ?_
      · intro _ s₁ h₁ hm₁
        rw [← hm₁] at hk htmp
        refine (stamp_total h₁ fun _ _ _ => htmp).bind ?_ ?_
        · intro _ s₂ h₂ hin
          exact Prog.total_ret h₂ (hin.1 hk)
        · intro _ s₂ _ hin
          exact hin.1 hk
      · intro _ s₁ _ hm₁
        rwa [hm₁]

/-- `deliver` writes a file: the message is new, or its entry is stamped. -/
def Writes (cfg : Config) (sessionId : String) (target : Dest) (env : Envelope) (s : Site) : Prop :=
  (s.mem.cache env.msgId = none ∧ (s.mail (deliverKey sessionId env)).1 = none) ∨
  ((stored (target.remote? cfg) env).targetHost = some LOCAL_HOST_MARKER ∧
    ∃ old, (s.mail (deliverKey sessionId env)).1 = some (.json old) ∧
      old.targetHost.getD "" = "")

/-- The engine knows of the message what the disk knows: one that it has not seen does
not lie in the dead letter, and one that it remembers as accepted has an envelope. The
temporary file, if it is written, is not another message. -/
structure Clear (cfg : Config) (sessionId : String) (target : Dest) (env : Envelope) (s : Site) :
    Prop where
  unseen : s.mem.cache env.msgId = none → (s.mail (deliverKey sessionId env)).2 = none
  seen : ∀ r, s.mem.cache env.msgId = some r → r.status ≠ .failed →
    (s.mail (deliverKey sessionId env)).1.isSome ∨ (s.mail (deliverKey sessionId env)).2.isSome
  draft : Writes cfg sessionId target env s →
    s.mail (tmpKey (deliverKey sessionId env)) = (none, none)

/-- The message has an envelope somewhere. -/
def Has (m : Mail) (k : Key) : Prop := (m k).1.isSome ∨ (m k).2.isSome

theorem replay_total (h : Accounted acc s) {k : Key} (env : Envelope) (cached : SendReceipt)
    (htmp : env.targetHost = some LOCAL_HOST_MARKER → ∀ old, (s.mail k).1 = some (.json old) →
      old.targetHost.getD "" = "" → s.mail (tmpKey k) = (none, none)) :
    (replay k env cached).Total world 0 P (Accounted acc) s fun r s' =>
      (∀ x, r = .ok x → x = cached) ∧ (Has s.mail k → Has s'.mail k) := by
  unfold replay
  split
  · next hloc =>
    refine (stamp_total h (htmp hloc)).bind ?_ ?_
    · rintro _ s₁ h₁ ⟨hout, hdead⟩
      refine Prog.total_ret h₁ ⟨fun x hx => ?_, fun hin => ?_⟩
      · cases hx
        rfl
      · exact hin.imp hout fun hd => by rwa [hdead]
    · rintro _ s₁ h₁ ⟨hout, hdead⟩
      refine ⟨fun x hx => ?_, fun hin => ?_⟩
      · cases hx
      · exact hin.imp hout fun hd => by rwa [hdead]
  · refine Prog.total_ret h ⟨fun x hx => ?_, id⟩
    cases hx
    rfl

theorem accept_total (h : Accounted acc s) (cfg : Config) (env : Envelope)
    (remote : Option HostSpec) (hdead : (s.mail k).2 = none)
    (htmp : s.mail (tmpKey k) = (none, none)) :
    (accept cfg k env remote).Total world 0 P (Accounted acc) s fun r s' =>
      ∀ x, r = .ok x → x.status ≠ .failed → Has s'.mail k := by
  refine attempt_bind_total (writeOutbox_total h env hdead fun _ => htmp) ?_
  rintro r s₁ h₁ ⟨hwritten, htmp₁⟩
  rw [htmp] at htmp₁
  cases r with
  | ok u =>
    refine (calm_total (remember_calm _ _) h₁).bind ?_ ?_
    · intro _ s₂ h₂ hm₂
      have hin := hwritten rfl
      rw [← hm₂] at hin htmp₁
      exact (sendFirst_total h₂ cfg env remote hin htmp₁).mono (fun _ h => h)
        fun _ _ _ hs _ _ _ => .inl hs
    · intro _ _ _ _ x hx
      cases hx
  | error text =>
    refine op_total h₁ fun c _ => ?_
    refine Prog.total_ret (h₁.calm (o := .upd _) trivial) fun x hx hne => ?_
    cases hx
    exact absurd rfl hne

theorem deliver_total (h : Accounted acc s) {cfg : Config} {sessionId : String} {target : Dest}
    {env : Envelope} (hclear : Clear cfg sessionId target env s) :
    (deliver cfg sessionId target env).Total world 0 P (Accounted acc) s fun r s' =>
      ∀ x, r = .ok x → x.status ≠ .failed → Has s'.mail (deliverKey sessionId env) := by
  unfold deliver
  by_cases hmid : env.msgId = ""
  · rw [if_pos hmid]
    refine Prog.total_ret h fun x hx hne => ?_
    cases hx
    exact absurd rfl hne
  · rw [if_neg hmid]
    have hop (o : Op) (c : Choice) (t : Site) (ho : o.Checks (deliverKey sessionId env)) (_ : P c)
        (ht : Accounted acc t ∧ t.mail = s.mail) :
        Accounted acc (t.next o c) ∧ (t.next o c).mail = s.mail :=
      ⟨ht.1.calm ho.calm, (mail_next_calm ho.calm).trans ht.2⟩
    have hcheck := (checkIdempotency_total hop ⟨h, rfl⟩).mono (fun _ ht => ht.1)
      fun _ _ ht hq => And.intro ht.2 hq
    refine Prog.Total.bind hcheck ?_ ?_
    · rintro known s₁ h₁ ⟨hm, hsome, hnone⟩
      cases known with
      | some cached =>
        refine (replay_total h₁ _ cached ?_).mono (fun _ h => h) ?_
        · intro hloc old hold hempty
          rw [hm] at hold ⊢
          exact hclear.draft (.inr ⟨hloc, old, hold, hempty⟩)
        · rintro r s' - ⟨hx, hhas⟩ x hr hne
          rw [hx x hr] at hne
          refine hhas ?_
          rw [hm]
          rcases hsome cached rfl with hc | hc
          · exact hclear.seen cached hc hne
          · exact .inl hc
      | none =>
        obtain ⟨hcache, hout⟩ := hnone rfl
        have hdead := hclear.unseen hcache
        have htmp := hclear.draft (.inl ⟨hcache, hout⟩)
        rw [← hm] at hdead htmp
        exact accept_total h₁ cfg _ _ hdead htmp
    · intro _ _ _ _ x hx
      cases hx

/-! ### The retries -/

theorem look_calm (k : Key) : (look k).Bounded Op.Calm := Prog.bounded_op trivial

theorem readInfo_calm (k : Key) : (readInfo k).Bounded Op.Calm :=
  (look_calm k).bind fun _ => trivial

theorem replaceInfo_calm (k : Key) (m : RetryMeta) : (replaceInfo k m).Bounded Op.Calm :=
  Prog.bounded_op_bind trivial fun _ => Prog.bounded_op trivial

theorem reached_calm (deadline : Option ℕ) : (reached deadline).Bounded Op.Calm := by
  cases deadline with
  | some t => exact Prog.bounded_op_bind trivial fun _ => trivial
  | none => trivial

theorem isPaused_calm (k : Key) : (isPaused k).Bounded Op.Calm :=
  (readInfo_calm k).bind fun _ => trivial

theorem reprobePaused_calm (k : Key) : (reprobePaused k).Bounded Op.Calm := by
  refine (readInfo_calm k).bind fun m => ?_
  split
  · trivial
  · refine (reached_calm _).bind fun b => ?_
    split
    · exact replaceInfo_calm k _
    · trivial

theorem unpaused_calm (k : Key) : (unpaused k).Bounded Op.Calm := by
  refine (isPaused_calm k).bind fun b => ?_
  split
  · exact (reprobePaused_calm k).bind fun _ => (isPaused_calm k).bind fun _ => trivial
  · trivial

theorem attemptDue_calm (k : Key) : (attemptDue k).Bounded Op.Calm := by
  refine (readInfo_calm k).bind fun m => ?_
  split
  · trivial
  · exact reached_calm _

theorem eligible_calm (k : Key) : (eligible k).Bounded Op.Calm := by
  refine (look_calm k).bind fun e => ?_
  split
  · trivial
  · refine (unpaused_calm k).bind fun b => ?_
    split
    · exact attemptDue_calm k
    · trivial

theorem recordAttempt_calm (k : Key) (error : String) (terminal : Bool) :
    (recordAttempt k error terminal).Bounded Op.Calm :=
  Prog.bounded_op_bind trivial fun _ => (readInfo_calm k).bind fun _ =>
    Prog.bounded_op_bind trivial fun _ => (replaceInfo_calm k _).bind fun _ => trivial

theorem pauseForUpgrade_calm (k : Key) (reason : String) :
    (pauseForUpgrade k reason).Bounded Op.Calm :=
  Prog.bounded_op_bind trivial fun _ => (readInfo_calm k).bind fun _ =>
    Prog.bounded_op_bind trivial fun _ => replaceInfo_calm k _

theorem moveStatus_calm (k : Key) : (moveStatus k).Bounded Op.Calm := by
  refine (look_calm k).bind fun e => ?_
  split
  · trivial
  · split
    · trivial
    · exact Prog.bounded_op trivial

theorem Accounted.moved (h : Accounted acc s) {f : FileOp}
    (hf : f = .bury ∧ (s.mail k).1.isSome ∨ f = .exhume ∧ (s.mail k).2.isSome) :
    Accounted acc (s.next (.file k f) c) := by
  have hmail : (s.next (.file k f) c).mail =
      Function.update s.mail k ((s.mail k).2, (s.mail k).1) := by
    rw [mail_next_file]
    refine congrArg _ ?_
    rcases hf with ⟨rfl, hin⟩ | ⟨rfl, hin⟩
    · have hd := h.once k hin
      obtain ⟨x, hx⟩ := Option.isSome_iff_exists.mp hin
      have hx' : (s.entry k).envelope = some x := hx
      have hd' : (s.entry k).dead = none := hd
      simp only [FileOp.apply, Entry.bury, Site.mail, hx', hd']
    · have ho : (s.mail k).1 = none := by
        by_contra hne
        have hd := h.once k (Option.isSome_iff_ne_none.mpr hne)
        rw [hd] at hin
        cases hin
      obtain ⟨x, hx⟩ := Option.isSome_iff_exists.mp hin
      have hx' : (s.entry k).dead = some x := hx
      have ho' : (s.entry k).envelope = none := ho
      simp only [FileOp.apply, Entry.exhume, Site.mail, hx', ho']
  have hatt (k' : Key) : (Op.file k f).attempts k' = false := rfl
  refine ⟨fun k' hk' => ?_, fun k' hk' => ?_, fun k' => ?_, fun k' => ?_⟩
  · rw [hmail]
    by_cases hkk : k' = k
    · subst hkk
      rw [Function.update_self]
      exact (h.present k' hk').symm
    · rw [Function.update_of_ne hkk]
      exact h.present k' hk'
  · rw [hmail] at hk' ⊢
    by_cases hkk : k' = k
    · subst hkk
      rw [Function.update_self] at hk' ⊢
      by_contra hne
      have hd := h.once k' (Option.isSome_iff_ne_none.mpr hne)
      rw [hd] at hk'
      cases hk'
    · rw [Function.update_of_ne hkk] at hk' ⊢
      exact h.once k' hk'
  · rw [Site.trace_next, buried_concat, h.buried, hmail]
    by_cases hkk : k' = k
    · subst hkk
      rw [Function.update_self]
      rcases hf with ⟨rfl, hin⟩ | ⟨rfl, hin⟩
      · rw [h.once k' hin, hin]
        simp [buriedStep]
      · have ho : (s.mail k').1 = none := by
          by_contra hne
          have hd := h.once k' (Option.isSome_iff_ne_none.mpr hne)
          rw [hd] at hin
          cases hin
        simp [buriedStep, ho]
    · rw [Function.update_of_ne hkk]
      rcases hf with ⟨rfl, -⟩ | ⟨rfl, -⟩ <;> simp [buriedStep, Ne.symm hkk]
  · rw [Site.trace_next]
    exact (h.quiet k').concat fun hatt' => by rw [hatt] at hatt'; cases hatt'

theorem deadLetter_total (h : Accounted acc s) (k : Key) (reason : String) :
    (deadLetter k reason).Total world 0 P (Accounted acc) s fun _ _ => True := by
  refine op_total h fun c _ => ?_
  have h₁ : Accounted acc (s.next (.look k) c) := h.calm (o := .look k) trivial
  show (if (s.entry k).envelope.isNone then (Prog.ret () : Call Unit) else _).Total
    world 0 P (Accounted acc) _ _
  split
  · exact Prog.total_ret h₁ trivial
  · next hin =>
    have hin' : ((s.next (.look k) c).mail k).1.isSome := by
      rw [Option.isSome_iff_ne_none]
      exact fun hn => hin (Option.isNone_iff_eq_none.mpr hn)
    refine op_total h₁ fun c' _ => ?_
    refine (calm_total ?_ (h₁.moved (.inl ⟨rfl, hin'⟩))).mono (fun _ h => h) fun _ _ _ _ => trivial
    exact (moveStatus_calm k).bind fun _ => Prog.bounded_op trivial

theorem handleFlushFailure_total (h : Accounted acc s) (k : Key) (text : String) :
    (handleFlushFailure k text).Total world 0 P (Accounted acc) s fun _ _ => True := by
  unfold handleFlushFailure
  split
  · exact (calm_total (pauseForUpgrade_calm k text) h).mono (fun _ h => h) fun _ _ _ _ => trivial
  · refine (calm_total (recordAttempt_calm k text _) h).bind ?_ fun _ _ _ _ => trivial
    intro n s₁ h₁ _
    split
    · exact deadLetter_total h₁ k _
    · split
      · exact deadLetter_total h₁ k _
      · exact Prog.total_ret h₁ trivial

theorem retry_total (h : Accounted acc s) (cfg : Config) (env : Envelope) (hostAlias : String)
    (hk : (s.mail k).1.isSome) :
    (retry cfg k env hostAlias).Total world 0 P (Accounted acc) s fun _ _ => True := by
  refine op_total h fun c _ => ?_
  have h₁ : Accounted acc (s.next .mem c) := h.calm (o := .mem) trivial
  have hd : ((s.next .mem c).mail k).2 = none := h.once k hk
  obtain ⟨dest, hsends⟩ := resend_bounded cfg k env hostAlias _
  refine attempt_bind_total (sends_total hsends h₁ hd) ?_
  intro r s₂ h₂ _
  cases r with
  | ok u =>
    refine (calm_total ?_ h₂).mono (fun _ h => h) fun _ _ _ _ => trivial
    exact Prog.bounded_op_bind trivial fun _ => Prog.bounded_op_bind trivial fun _ =>
      (remember_calm _ _).bind fun _ => trivial
  | error text =>
    refine op_total h₂ fun c' _ => ?_
    have h₃ := h₂.calm (o := .failed k text) (c := c') trivial
    refine (handleFlushFailure_total h₃ k text).bind ?_ fun _ _ _ _ => trivial
    exact fun _ _ h₄ _ => Prog.total_ret h₄ trivial

theorem flushEntry_total (h : Accounted acc s) (cfg : Config) (k : Key) :
    (flushEntry cfg k).Total world 0 P (Accounted acc) s fun _ _ => True := by
  refine (calm_total (eligible_calm k) h).bind ?_ fun _ _ _ _ => trivial
  intro b s₁ h₁ _
  cases b with
  | false => exact Prog.total_ret h₁ trivial
  | true =>
    refine op_total h₁ fun c _ => ?_
    have h₂ : Accounted acc (s₁.next (.look k) c) := h₁.calm (o := .look k) trivial
    have hanswer : (s₁.tick (.look k) c).answer c (.look k) = s₁.entry k := rfl
    rw [hanswer]
    have htarget : (s₁.entry k).target? ≠ none → ((s₁.next (.look k) c).mail k).1.isSome := by
      intro hne
      show (s₁.entry k).envelope.isSome
      rw [Option.isSome_iff_ne_none]
      intro hnone
      exact hne (by rw [Entry.target?, hnone])
    cases ht : (s₁.entry k).target? with
    | none => exact Prog.total_ret h₂ trivial
    | some x => exact retry_total h₂ cfg x.1 x.2 (htarget (by rw [ht]; simp))

theorem flush_total (h : Accounted acc s) (cfg : Config) (sessionId : Option String) :
    (retryAll cfg sessionId).Total world 0 P (Accounted acc) s fun _ _ => True := by
  refine (retryAll_total (J := Accounted acc) (F := True) (fun _ h => h) ?_ ?_ ?_ sessionId h).mono
    (fun _ h => h) fun _ _ _ _ => trivial
  · exact fun s sid c h => h.calm (o := .glob sid .envelopes) trivial
  · exact fun s c h => h.calm (o := .sessions) trivial
  · intro k s _ h
    exact (flushEntry_total h cfg k).mono (fun _ h => h) fun _ _ hI _ => ⟨hI, .inl trivial⟩

theorem deadLetterRequeue_total (h : Accounted acc s) (k : Key) :
    (deadLetterRequeue k).Total world 0 P (Accounted acc) s fun _ _ => True := by
  refine op_total h fun c _ => ?_
  have h₁ : Accounted acc (s.next (.look k) c) := h.calm (o := .look k) trivial
  show (if (s.entry k).dead.isNone then (Prog.ret false : Call Bool) else _).Total
    world 0 P (Accounted acc) _ _
  split
  · exact Prog.total_ret h₁ trivial
  · next hin =>
    have hin' : ((s.next (.look k) c).mail k).2.isSome := by
      rw [Option.isSome_iff_ne_none]
      exact fun hn => hin (Option.isNone_iff_eq_none.mpr hn)
    refine op_total h₁ fun c' _ => ?_
    refine (calm_total ?_ (h₁.moved (.inr ⟨rfl, hin'⟩))).mono (fun _ h => h) fun _ _ _ _ => trivial
    refine Prog.bounded_op_bind trivial fun _ => Prog.bounded_op_bind trivial fun _ => ?_
    refine Prog.bounded_op_bind trivial fun _ => (readInfo_calm k).bind fun m => ?_
    exact Prog.bounded_op_bind trivial fun _ => Prog.bounded_op_bind trivial fun _ => trivial

end Methods

/-! ## Runs -/

/-- A call of the engine. -/
inductive Command
  | deliver (sessionId : String) (target : Dest) (env : Envelope)
  | flush (sessionId : Option String)
  | requeue (k : Key)

/-- The call and the receipt that it returns, if it is a delivery. -/
def Command.call (cfg : Config) : Command → Call (Option SendReceipt)
  | .deliver sid target env => do return some (← Swarm.deliver cfg sid target env)
  | .flush sid => do
    let _ ← retryAll cfg sid
    return none
  | .requeue k => do
    let _ ← deadLetterRequeue k
    return none

/-- The message that a call has accepted. -/
def Command.accepts : Command → Except String (Option SendReceipt) → List Key
  | .deliver sid _ env, .ok (some r) => if r.status = .failed then [] else [deliverKey sid env]
  | _, _ => []

/-- Calls one after the other, each of which meets `H`, and restarts, from an empty
outbox; with the messages that were accepted. -/
inductive History (cfg : Config) (H : Command → Site → Prop) : List Key → Site → Prop
  | start {s : Site} (hentries : s.entries = .empty) (htrace : s.trace = []) : History cfg H [] s
  | call {acc : List Key} {s s' : Site} {cmd : Command} {r : Except String (Option SendReceipt)}
      (h : History cfg H acc s) (hcmd : H cmd s)
      (hrun : (cmd.call cfg).Runs world 0 (fun _ => True) s r s') :
      History cfg H (cmd.accepts r ++ acc) s'
  | restart {acc : List Key} {s : Site} (h : History cfg H acc s) :
      History cfg H acc { s with mem := {} }

/-- Only a delivery has a condition. -/
def ClearFor (cfg : Config) : Command → Site → Prop
  | .deliver sid target env, s => Clear cfg sid target env s
  | _, _ => True

theorem accounted_start {s : Site} (hentries : s.entries = .empty) (htrace : s.trace = []) :
    Accounted [] s := by
  have hmail (k : Key) : s.mail k = (none, none) := by
    simp only [Site.mail, Site.entry, hentries, Table.get_empty]
    rfl
  refine ⟨fun k hk => absurd hk List.not_mem_nil, fun k _ => by rw [hmail], fun k => ?_,
    fun k => ?_⟩
  · rw [htrace, hmail]
    rfl
  · intro L₁ t o L₂ hL
    rw [htrace] at hL
    exact absurd hL.symm (List.append_ne_nil_of_right_ne_nil _ (List.cons_ne_nil _ _))

theorem call_total {acc : List Key} {s : Site} {cfg : Config} {cmd : Command} (h : Accounted acc s)
    (hclear : ClearFor cfg cmd s) : (cmd.call cfg).Total world 0 (fun _ => True) (Accounted acc) s
      fun r s' => ∀ k ∈ cmd.accepts r, Has s'.mail k := by
  cases cmd with
  | deliver sid target env =>
    refine (deliver_total h hclear).bind ?_ ?_
    · intro x s₁ h₁ hx
      refine Prog.total_ret h₁ fun k hk => ?_
      simp only [Command.accepts] at hk
      split at hk
      · cases hk
      · next hne => exact List.mem_singleton.mp hk ▸ hx x rfl hne
    · intro e s₁ _ _ k hk
      cases hk
  | flush sid =>
    refine (flush_total h cfg sid).bind ?_ ?_
    · exact fun _ _ h₁ _ => Prog.total_ret h₁ fun k hk => absurd hk List.not_mem_nil
    · exact fun _ _ _ _ k hk => absurd hk List.not_mem_nil
  | requeue k =>
    refine (deadLetterRequeue_total h k).bind ?_ ?_
    · exact fun _ _ h₁ _ => Prog.total_ret h₁ fun k hk => absurd hk List.not_mem_nil
    · exact fun _ _ _ _ k hk => absurd hk List.not_mem_nil

theorem History.accounted {cfg : Config} {acc : List Key} {s : Site}
    (h : History cfg (ClearFor cfg) acc s) : Accounted acc s := by
  induction h with
  | start hentries htrace => exact accounted_start hentries htrace
  | call h hcmd hrun ih =>
    have htotal := call_total ih hcmd
    have hlast := (htotal.mono (fun _ h => h) fun _ _ hI hQ => And.intro hI hQ).ends _ _ hrun
    refine ⟨fun k hk => ?_, hlast.1.once, hlast.1.buried, hlast.1.quiet⟩
    rcases List.mem_append.mp hk with hk | hk
    · exact hlast.2 k hk
    · exact hlast.1.present k hk
  | restart h ih => exact ⟨ih.present, ih.once, ih.buried, ih.quiet⟩

/-- **Conservation.**  In a run whose deliveries are all clear, each accepted message
has exactly one envelope, and no message is sent while it lies in the dead letter:
between the calls and at every moment of a call. -/
theorem conserved_run {cfg : Config} {acc : List Key} {s : Site}
    (h : History cfg (ClearFor cfg) acc s) :
    Conserved acc s ∧ ∀ cmd, ClearFor cfg cmd s → ∀ t,
      (cmd.call cfg).Reaches world 0 (fun _ => True) s t → Conserved acc t :=
  ⟨h.accounted.conserved, fun _ hcmd _ ht =>
    ((call_total h.accounted hcmd).reaches ht).conserved⟩

/-! ### A message that was given up -/

/-- Runs of commands with the same choice throughout; `none` is a restart. -/
def play (cfg : Config) (c : Choice) : List (Option Command) → List Key × Site →
    Option (List Key × Site)
  | [], x => some x
  | none :: cmds, x => play cfg c cmds (x.1, { x.2 with mem := {} })
  | some cmd :: cmds, x =>
    match Prog.exec world 0 c 200 (cmd.call cfg) x.2 with
    | some (r, s') => play cfg c cmds (cmd.accepts r ++ x.1, s')
    | none => none

theorem history_play {cfg : Config} {c : Choice} {cmds : List (Option Command)}
    {x y : List Key × Site} (hx : History cfg (fun _ _ => True) x.1 x.2)
    (h : play cfg c cmds x = some y) : History cfg (fun _ _ => True) y.1 y.2 := by
  induction cmds generalizing x with
  | nil => cases h; exact hx
  | cons cmd cmds ih =>
    cases cmd with
    | none => exact ih hx.restart h
    | some cmd =>
      simp only [play] at h
      split at h
      · next r s' he => exact ih (hx.call trivial (Prog.runs_of_exec trivial he)) h
      · cases h

def bare : Config := { hostname := "here", repoMap := .empty }

/-- Every mailbox command is refused. -/
def refused : Choice := { reply := .ok ⟨2, "", "invalid kind"⟩ }

def far : HostSpec := { name := "far", sshAlias := "far" }

def letter : Envelope := { sessionId := some "s", msgId := "m", targetHost := some "far" }

def first : Command := .deliver "s" (.host far) letter

/-- A delivery, a retry, a restart and the same delivery again. -/
def again : List (Option Command) := [some first, some (.flush none), none, some first]

/-- The first delivery fails, the retry gives the message up, and a new process accepts
it once more: now it has two envelopes. -/
theorem given_up_and_accepted_again : ¬ ∀ cfg acc s, History cfg (fun _ _ => True) acc s →
    Conserved acc s := by
  intro h
  have hplay : ((play bare refused again ([], {})).map fun x => decide (("s", "m") ∈ x.1) &&
      (x.2.entry ("s", "m")).envelope.isSome && (x.2.entry ("s", "m")).dead.isSome) =
      some true := by
    decide +kernel
  obtain ⟨⟨acc, s⟩, hx, hboth⟩ := Option.map_eq_some_iff.mp hplay
  simp only [Bool.and_eq_true, decide_eq_true_eq] at hboth
  rcases (h _ _ _ (history_play (.start rfl rfl) hx)).once _ hboth.1.1 with ⟨-, hno⟩ | ⟨-, hno⟩
  · exact hno hboth.2
  · exact hno hboth.1.2

theorem clear_start {s : Site} (hentries : s.entries = .empty) (hmem : s.mem = {}) (cfg : Config)
    (sid : String) (target : Dest) (env : Envelope) : Clear cfg sid target env s := by
  have hmail (k : Key) : s.mail k = (none, none) := by
    simp only [Site.mail, Site.entry, hentries, Table.get_empty]
    rfl
  refine ⟨fun _ => by rw [hmail], fun r hr => ?_, fun _ => hmail _⟩
  rw [hmem] at hr
  cases hr

/-- The first delivery of a message. -/
theorem conserved_run_first : ∃ acc s, Conserved acc s ∧ ("s", "m") ∈ acc := by
  have hexec : ((Prog.exec world 0 refused 200 (first.call bare) {}).map fun x =>
      first.accepts x.1) = some [("s", "m")] := by
    decide +kernel
  obtain ⟨⟨r, s⟩, hx, hacc⟩ := Option.map_eq_some_iff.mp hexec
  have hclear : ClearFor bare first {} := clear_start rfl rfl bare "s" (.host far) letter
  have hist := (History.start rfl rfl).call hclear (Prog.runs_of_exec trivial hx)
  refine ⟨_, _, (conserved_run hist).1, ?_⟩
  rw [List.append_nil]
  simp only at hacc
  rw [hacc]
  exact List.mem_singleton_self _

end AiMeshChat.Swarm
