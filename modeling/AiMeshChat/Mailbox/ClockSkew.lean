import AiMeshChat.Calendar
import AiMeshChat.Mailbox.Unfinished

/-!
# Clocks that disagree

A claim is stamped by the clock of one host and judged by the clock of another. The three
functions that judge a claim (`recover_stale`, `_reap_expired_claim` and the test for
unfinished work) allow for a difference of `LEASE_CLOCK_TOLERANCE_S`, but with the wrong sign:
the cutoff is moved later, so a lease runs out that much earlier instead of later.

`skew_tolerated_iff` says when a claim that should be safe is: if its true age, the skew and
the part of a second that the stamp leaves out make up at most `LEASE_TIMEOUT_S` less the
tolerance.
-/

namespace AiMeshChat.Mailbox.ClockSkew

open Lib Recovery ReadLoop Unfinished

/-! ## A claim and two clocks -/

/-- When a claim was stamped and when it is judged, in true time and by the clocks of the two
hosts, in microseconds. -/
structure Sighting where
  stampedAt : ℤ
  judgedAt : ℤ
  stampClock : ℕ
  judgeClock : ℕ
  inRange : stampClock < END_OF_TIME

namespace Sighting

variable (x : Sighting)

/-- The true age of the claim. -/
def age : ℤ := x.judgedAt - x.stampedAt

/-- How far the clock of the judge is ahead of the clock that stamped the claim. -/
def skew : ℤ := (x.judgeClock - x.judgedAt) - (x.stampClock - x.stampedAt)

/-- The second that is written down. -/
def stamp : ℤ := (x.stampClock / 1000000 : ℕ) * second

/-- The part of a second that is not. -/
def fraction : ℤ := (x.stampClock % 1000000 : ℕ)

/-- The clocks differ by no more than the tolerance and the lease has not run out. -/
def Live : Prop := |x.skew| ≤ LEASE_CLOCK_TOLERANCE_S * second ∧ x.age < LEASE_TIMEOUT_S * second

/-- The age that the judge makes out is within the lease less the tolerance. -/
def InTime : Prop :=
  x.age + x.skew + x.fraction ≤ (LEASE_TIMEOUT_S - LEASE_CLOCK_TOLERANCE_S) * second

instance : Decidable x.InTime := inferInstanceAs (Decidable (_ ≤ _))

theorem inTime_iff : x.InTime ↔ leaseCutoff x.judgeClock ≤ x.stamp := by
  have hsplit := Nat.div_add_mod x.stampClock 1000000
  unfold InTime age skew fraction stamp leaseCutoff LEASE_TIMEOUT_S LEASE_CLOCK_TOLERANCE_S second
  omega

end Sighting

/-! ## The claim on the disk -/

/-- The claim says what the stamping host wrote, and is on the message. -/
structure Stamped (x : Sighting) (msgId name : String) (j : Json) : Prop where
  dict : j.isDict = true
  written : j.get? "claimed_at" = some (.str (isoFormat x.stampClock))
  on : claimMsgId j name = msgId

theorem Stamped.claimTime {x : Sighting} {msgId name : String} {j : Json}
    (h : Stamped x msgId name j) : claimTime j = some x.stamp := by
  have hread := fromIsoFormat_isoFormat x.inRange
  unfold Mailbox.claimTime Sighting.stamp
  rw [h.written, Option.bind_some, Json.str?, Option.bind_some]
  exact hread

/-- A message in `processing` with a claim of its own, on a disk that nobody else is at. -/
structure Claimed (x : Sighting) (s : Disk) (sid agent msgId name : String) : Prop where
  session : agentIdOk sid = true
  member : agentIdOk agent = true
  ident : msgIdOk msgId = true
  glob : globMatch ".claim-" ".json" name = true
  message : (s.files.get? ⟨.box sid agent .processing, jsonName msgId⟩).isSome = true
  claim : ∃ j t n, s.files.get? ⟨.box sid agent .processing, name⟩ = some ⟨.json j, t, n⟩ ∧
    Stamped x msgId name j
  processing : Dir.box sid agent .processing ∈ s.dirs
  inbox : Dir.box sid agent .inbox ∈ s.dirs
  free : s.locks = []

/-- The claim file is a claim on the message `m` that has run out. -/
def Expired (s : Disk) (processing : Dir) (cutoff : ℤ) (name m : String) : Prop :=
  ∃ j t n ts, s.files.get? ⟨processing, name⟩ = some ⟨.json j, t, n⟩ ∧ j.isDict = true ∧
    claimTime j = some ts ∧ ts < cutoff ∧ claimMsgId j name = m

/-! ## `_reap_expired_claim` -/

section Judges

variable {i T : ℕ} {ρ : String → ℕ} {s : Disk} {inbox processing : Dir}

theorem unlink_total {p : MPath} :
    (unlink p).Total world i (Still T ρ) (fun _ => True) s fun r t =>
      t = { s with files := s.files.del p } ∧
        (r = .ok () ∨ ∃ e, r = .error (.os e)) := by
  refine Prog.total_op_bind trivial fun c hc => ?_
  cases hp : s.files.get? p with
  | none =>
    refine ⟨.error .notFound, s, by simp [world, Disk.perform, hc.fault, hp], ?_⟩
    refine Prog.total_raise trivial ⟨?_, .inr ⟨_, rfl⟩⟩
    rw [Files.del_of_none hp]
  | some g =>
    exact ⟨.ok (), { s with files := s.files.del p }, by simp [world, Disk.perform, hc.fault, hp],
      Prog.total_ret trivial ⟨rfl, .inl rfl⟩⟩

theorem unlink_last_total {p : MPath} {b : Bool} {M : Disk → Prop}
    (h : M { s with files := s.files.del p }) :
    (unlink p >>= fun _ => return b).Total world i (Still T ρ) (fun _ => True) s fun r t =>
      ((∃ b, r = .ok b) ∨ ∃ e, r = .error (.os e)) ∧ M t := by
  refine unlink_total.bind (fun _ t _ ht => ?_) fun e t _ ht => ?_
  · obtain ⟨rfl, -⟩ := ht
    exact Prog.total_ret trivial ⟨.inl ⟨_, rfl⟩, h⟩
  · obtain ⟨rfl, ht⟩ := ht
    refine ⟨.inr ?_, h⟩
    rcases ht with ht | ⟨e', he'⟩
    · cases ht
    · cases he'
      exact ⟨e', rfl⟩

variable {j : Json} {t n : ℕ} {ts cutoff : ℤ} {name : String} {names : List String}

theorem currentTime_still {claim : MPath} {α : Type} {f : ℤ → Call α}
    {Q : Except PyErr α → Disk → Prop} (hclaim : s.files.get? claim = some ⟨.json j, t, n⟩)
    (hdict : j.isDict = true) (hts : claimTime j = some ts)
    (h : (f ts).Total world i (Still T ρ) (fun _ => True) s Q) :
    (currentTime claim ts >>= f).Total world i (Still T ρ) (fun _ => True) s Q := by
  unfold currentTime
  rw [Prog.bind_assoc]
  refine loadClaim_total (fun j' t' n' h' => ?_) (fun hno => absurd hclaim (hno j t n)) ?_
  · cases hclaim.symm.trans h'
    exact hdict
  · intro j' t' n' h'
    cases hclaim.symm.trans h'
    dsimp only
    rw [hts]
    exact h

theorem reapLocked_total {msgId : String}
    (hclaim : s.files.get? ⟨processing, name⟩ = some ⟨.json j, t, n⟩) (hdict : j.isDict = true)
    (hts : claimTime j = some ts) (hold : ts < cutoff) (hinbox : inbox ∈ s.dirs)
    (hne : inbox ≠ processing) :
    (reapLocked inbox processing ⟨processing, name⟩ msgId ts cutoff).Total world i (Still T ρ)
      (fun _ => True) s fun r u => r = .ok true ∧ u.locks = s.locks ∧
        u.files.get? ⟨processing, jsonName msgId⟩ = none := by
  refine currentTime_still hclaim hdict hts ?_
  rw [if_neg (not_le.mpr hold)]
  refine Prog.Total.bind (M := fun r u => r = .ok () ∧ u.locks = s.locks ∧
    u.files.get? ⟨processing, jsonName msgId⟩ = none) ?_ ?_ fun e u _ h => by cases h.1
  · refine fileExists_total trivial ?_
    split_ifs with hmsg
    · refine (replace_still hmsg hinbox).mono (fun _ h => h) fun r u _ h => ?_
      obtain ⟨hr, rfl⟩ := h
      obtain ⟨f, hf⟩ := Option.isSome_iff_exists.mp hmsg
      refine ⟨hr, rfl, ?_⟩
      rw [Files.get?_move hf, if_neg fun h => hne (congrArg Path.dir h).symm, if_pos rfl]
    · exact Prog.total_ret trivial ⟨rfl, rfl, by simpa using hmsg⟩
  · rintro _ u - ⟨-, hlocks, hgone⟩
    refine unlink_still (Prog.total_ret trivial ⟨rfl, hlocks, ?_⟩)
    rw [Files.get?_del]
    split_ifs
    · rfl
    · exact hgone

/-- `_reap_expired_claim` leaves a claim alone, or takes the message out of `processing`. -/
theorem reapExpiredClaim_total (hclaim : s.files.get? ⟨processing, name⟩ = some ⟨.json j, t, n⟩)
    (hdict : j.isDict = true) (hts : claimTime j = some ts) (hinbox : inbox ∈ s.dirs)
    (hne : inbox ≠ processing) (hfree : s.locks = []) :
    (reapExpiredClaim inbox processing ⟨processing, name⟩).Total world i (Still T ρ)
      (fun _ => True) s fun r u =>
        (leaseCutoff T ≤ ts ∧ r = .ok false ∧ u = s) ∨
        (ts < leaseCutoff T ∧ r = .ok true ∧
          u.files.get? ⟨processing, jsonName (claimMsgId j name)⟩ = none) := by
  refine clock_still (loadClaim_total (fun j' t' n' h' => ?_)
    (fun hno => absurd hclaim (hno j t n)) fun j' t' n' h' => ?_)
  · cases hclaim.symm.trans h'
    exact hdict
  · cases hclaim.symm.trans h'
    dsimp only
    rw [hts]
    dsimp only
    split_ifs with hfresh
    · exact Prog.total_ret trivial (.inl ⟨hfresh, rfl, rfl⟩)
    · have hold := not_le.mp hfresh
      refine claimLock_still hfree fun locks => ?_
      have hclaim' : ({ s with locks := locks } : Disk).files.get? ⟨processing, name⟩ =
          some ⟨.json j, t, n⟩ := hclaim
      refine (reapLocked_total hclaim' hdict hts hold hinbox hne).mono (fun _ h => h) ?_
      rintro r u - ⟨rfl, hlocks, hgone⟩
      exact ⟨hlocks, .inr ⟨hold, rfl, hgone⟩⟩

/-! ## `recover_stale` -/

/-- What one turn of the loop does to `processing`: the claim and the message of one that has
run out may go, and the message goes if it was there. -/
structure Turn (s t : Disk) (processing : Dir) (cutoff : ℤ) (name : String) : Prop where
  dirs : t.dirs = s.dirs
  rest : ∀ q, t.files.get? ⟨processing, q⟩ = s.files.get? ⟨processing, q⟩ ∨
    (t.files.get? ⟨processing, q⟩ = none ∧
      (q = name ∨ ∃ m, Expired s processing cutoff name m ∧ q = jsonName m))
  moved : ∀ m, Expired s processing cutoff name m → t.files.get? ⟨processing, jsonName m⟩ = none

theorem Turn.refl
    (h : ∀ m, Expired s processing cutoff name m → s.files.get? ⟨processing, jsonName m⟩ = none) :
    Turn s s processing cutoff name :=
  ⟨rfl, fun _ => .inl rfl, h⟩

theorem recoverLocked_total {gate : ℤ}
    (hclaim : s.files.get? ⟨processing, name⟩ = some ⟨.json j, t, n⟩) (hdict : j.isDict = true)
    (hts : claimTime j = some ts) (hinbox : inbox ∈ s.dirs) (hne : inbox ≠ processing) :
    (recoverLocked inbox processing ⟨processing, name⟩ (claimMsgId j name) ts cutoff gate).Total
      world i (Still T ρ) (fun _ => True) s fun r u =>
        ((∃ b, r = .ok b) ∨ ∃ e, r = .error (.os e)) ∧ u.locks = s.locks ∧
          Turn s u processing cutoff name := by
  have hmine {m : String} (h : Expired s processing cutoff name m) :
      ts < cutoff ∧ m = claimMsgId j name := by
    obtain ⟨j', t', n', ts', hclaim', -, hts', hold, rfl⟩ := h
    cases hclaim.symm.trans hclaim'
    cases hts.symm.trans hts'
    exact ⟨hold, rfl⟩
  refine currentTime_still hclaim hdict hts (fileExists_total trivial ?_)
  split_ifs with hmsg hfresh hyoung
  · refine Prog.total_ret trivial ⟨.inl ⟨_, rfl⟩, rfl, Turn.refl fun m hm => ?_⟩
    exact absurd (hmine hm).1 (not_lt.mpr hfresh)
  · have hexpired : Expired s processing cutoff name (claimMsgId j name) :=
      ⟨j, t, n, ts, hclaim, hdict, hts, not_le.mp hfresh, rfl⟩
    obtain ⟨f, hf⟩ := Option.isSome_iff_exists.mp hmsg
    -- the message goes first, then the claim
    have hturn : Turn s { s with files := (s.files.move ⟨processing, jsonName (claimMsgId j name)⟩
        ⟨inbox, jsonName (claimMsgId j name)⟩).del ⟨processing, name⟩ } processing cutoff name := by
      have hget (q : String) : ((s.files.move ⟨processing, jsonName (claimMsgId j name)⟩
          ⟨inbox, jsonName (claimMsgId j name)⟩).del ⟨processing, name⟩).get? ⟨processing, q⟩ =
          if q = name ∨ q = jsonName (claimMsgId j name) then none
          else s.files.get? ⟨processing, q⟩ := by
        rw [Files.get?_del, Files.get?_move hf]
        simp only [Lib.Path.mk.injEq, true_and, hne.symm, false_and, if_false]
        split_ifs <;> simp_all
      refine ⟨rfl, fun q => ?_, fun m hm => ?_⟩
      · by_cases hq : q = name ∨ q = jsonName (claimMsgId j name)
        · refine .inr ⟨(hget q).trans (if_pos hq), ?_⟩
          exact hq.imp id fun hq => ⟨_, hexpired, hq⟩
        · exact .inl ((hget q).trans (if_neg hq))
      · rw [(hmine hm).2]
        exact (hget _).trans (if_pos (.inr rfl))
    refine (replace_still hmsg hinbox).bind (fun _ u _ h => ?_) fun e u _ h => by cases h.1
    obtain ⟨-, rfl⟩ := h
    exact unlink_last_total ⟨rfl, hturn⟩
  · have hnone : s.files.get? ⟨processing, jsonName (claimMsgId j name)⟩ = none := by
      simpa using hmsg
    refine Prog.total_ret trivial ⟨.inl ⟨_, rfl⟩, rfl, Turn.refl fun m hm => ?_⟩
    rw [(hmine hm).2]
    exact hnone
  · have hnone : s.files.get? ⟨processing, jsonName (claimMsgId j name)⟩ = none := by
      simpa using hmsg
    have hturn : Turn s { s with files := s.files.del ⟨processing, name⟩ } processing cutoff name := by
      have hget (q : String) : (s.files.del ⟨processing, name⟩).get? ⟨processing, q⟩ =
          if q = name then none else s.files.get? ⟨processing, q⟩ := by
        rw [Files.get?_del]
        simp only [Lib.Path.mk.injEq, true_and]
      refine ⟨rfl, fun q => ?_, fun m hm => ?_⟩
      · by_cases hq : q = name
        · exact .inr ⟨(hget q).trans (if_pos hq), .inl hq⟩
        · exact .inl ((hget q).trans (if_neg hq))
      · rw [(hmine hm).2]
        refine (hget _).trans ?_
        split_ifs
        · rfl
        · exact hnone
    exact unlink_last_total ⟨rfl, hturn⟩

theorem recoverClaim_total {gate : ℤ} (hinbox : inbox ∈ s.dirs) (hne : inbox ≠ processing)
    (hfree : s.locks = []) :
    (passErrors (recoverClaim inbox processing cutoff gate ⟨processing, name⟩)).Total world i
      (Still T ρ) (fun _ => True) s fun r u =>
        u.locks = [] ∧ Turn s u processing cutoff name ∧
        ((∃ b, r = .ok b) ∨ ∃ j t n, s.files.get? ⟨processing, name⟩ = some ⟨.json j, t, n⟩ ∧
          j.isDict = false) := by
  have hnothing (h : ∀ m, ¬ Expired s processing cutoff name m) :
      Turn s s processing cutoff name := Turn.refl fun m hm => absurd hm (h m)
  by_cases hread : ∃ j t n, s.files.get? ⟨processing, name⟩ = some ⟨.json j, t, n⟩ ∧
      j.isDict = false
  · obtain ⟨j, t, n, hclaim, hdict⟩ := hread
    have hno (m : String) : ¬ Expired s processing cutoff name m := by
      rintro ⟨j', t', n', ts, hclaim', hdict', -⟩
      cases hclaim.symm.trans hclaim'
      rw [hdict] at hdict'
      cases hdict'
    refine Prog.Total.tryCatch (M := fun r u => u = s ∧ r = .error .attribute) ?_ ?_ ?_
    · refine Prog.Total.bind (M := fun r u => u = s ∧ r = .error .attribute) ?_ ?_ ?_
      · refine readBytes_still ?_
        rw [hclaim]
        dsimp only
        rw [hdict]
        exact Prog.total_raise trivial ⟨rfl, rfl⟩
      · rintro x u - ⟨-, h⟩
        cases h
      · rintro e u - ⟨rfl, h⟩
        cases h
        exact ⟨rfl, rfl⟩
    · rintro b u - ⟨-, h⟩
      cases h
    · rintro e u - ⟨rfl, h⟩
      cases h
      exact Prog.total_raise trivial ⟨hfree, hnothing hno, .inr ⟨j, t, n, hclaim, hdict⟩⟩
  · have hdict : ∀ j t n, s.files.get? ⟨processing, name⟩ = some ⟨.json j, t, n⟩ →
        j.isDict = true := by
      intro j t n hclaim
      by_contra hno
      exact hread ⟨j, t, n, hclaim, eq_false_of_ne_true hno⟩
    refine Prog.Total.tryCatch (M := fun r u => ((∃ b, r = .ok b) ∨ ∃ e, r = .error (.os e)) ∧
      u.locks = [] ∧ Turn s u processing cutoff name) ?_ ?_ ?_
    · refine loadClaim_total hdict (fun hnone => ?_) fun j t n hclaim => ?_
      · refine Prog.total_ret trivial ⟨.inl ⟨_, rfl⟩, hfree, hnothing ?_⟩
        rintro m ⟨j, t, n, ts, hclaim, -⟩
        exact hnone j t n hclaim
      · dsimp only
        cases hts : claimTime j with
        | none =>
          refine Prog.total_ret trivial ⟨.inl ⟨_, rfl⟩, hfree, hnothing ?_⟩
          rintro m ⟨j', t', n', ts, hclaim', -, hts', -⟩
          cases hclaim.symm.trans hclaim'
          cases hts.symm.trans hts'
        | some ts =>
          refine claimLock_still hfree fun locks => ?_
          have hclaim' : ({ s with locks := locks } : Disk).files.get? ⟨processing, name⟩ =
              some ⟨.json j, t, n⟩ := hclaim
          refine (recoverLocked_total hclaim' (hdict j t n hclaim) hts hinbox hne).mono
            (fun _ h => h) ?_
          rintro r u - ⟨hr, hlocks, hturn⟩
          exact ⟨hlocks, hr, rfl, hturn.dirs, hturn.rest, hturn.moved⟩
    · rintro b u - ⟨-, hlocks, hturn⟩
      exact ⟨hlocks, hturn, .inl ⟨b, rfl⟩⟩
    · rintro e u - ⟨h, hlocks, hturn⟩
      rcases h with ⟨b, hb⟩ | ⟨e', he'⟩
      · cases hb
      · cases he'
        exact Prog.total_ret trivial ⟨hlocks, hturn, .inl ⟨_, rfl⟩⟩

/-! ### The loop -/

theorem Turn.expired {u : Disk} {cf m : String} (h : Turn s u processing cutoff cf)
    (hu : Expired u processing cutoff name m) : Expired s processing cutoff name m := by
  obtain ⟨j, t, n, ts, hclaim, hrest⟩ := hu
  rcases h.rest name with hsame | ⟨hnone, -⟩
  · exact ⟨j, t, n, ts, hsame.symm.trans hclaim, hrest⟩
  · rw [hnone] at hclaim
    cases hclaim

variable {cutoff gate : ℤ} {msgId name : String}

theorem recoverClaims_keeps (hinbox : inbox ∈ s.dirs) (hne : inbox ≠ processing)
    (hfree : s.locks = []) (hnames : jsonName msgId ∉ names)
    (hfresh : ∀ cf ∈ names, ¬ Expired s processing cutoff cf msgId) :
    (recoverClaims inbox processing cutoff gate names).Total world i (Still T ρ) (fun _ => True) s
      fun _ u => u.files.get? ⟨processing, jsonName msgId⟩ =
        s.files.get? ⟨processing, jsonName msgId⟩ := by
  induction names generalizing s with
  | nil => exact Prog.total_ret trivial rfl
  | cons cf names ih =>
    have hkept {u : Disk} (hturn : Turn s u processing cutoff cf) :
        u.files.get? ⟨processing, jsonName msgId⟩ = s.files.get? ⟨processing, jsonName msgId⟩ := by
      rcases hturn.rest (jsonName msgId) with hsame | ⟨-, hcf | ⟨m, hm, he⟩⟩
      · exact hsame
      · exact absurd (hcf ▸ List.mem_cons_self) hnames
      · exact absurd (jsonName_inj he ▸ hm) (hfresh cf List.mem_cons_self)
    refine (recoverClaim_total hinbox hne hfree).bind (fun moved u _ hu => ?_) fun e u _ hu => ?_
    · obtain ⟨hlocks, hturn, -⟩ := hu
      have hrest := ih (hturn.dirs ▸ hinbox) hlocks (fun h => hnames (List.mem_cons_of_mem cf h))
        fun cf' hcf' h => hfresh cf' (List.mem_cons_of_mem cf hcf') (hturn.expired h)
      refine hrest.bind (fun n v _ hv => Prog.total_ret trivial ?_) fun e v _ hv => ?_
      · exact hv.trans (hkept hturn)
      · exact hv.trans (hkept hturn)
    · exact hkept hu.2.1

theorem recoverClaims_gone (hinbox : inbox ∈ s.dirs) (hne : inbox ≠ processing)
    (hfree : s.locks = []) (hgone : s.files.get? ⟨processing, jsonName msgId⟩ = none) :
    (recoverClaims inbox processing cutoff gate names).Total world i (Still T ρ) (fun _ => True) s
      fun _ u => u.files.get? ⟨processing, jsonName msgId⟩ = none := by
  induction names generalizing s with
  | nil => exact Prog.total_ret trivial hgone
  | cons cf names ih =>
    have hstill {u : Disk} (hturn : Turn s u processing cutoff cf) :
        u.files.get? ⟨processing, jsonName msgId⟩ = none := by
      rcases hturn.rest (jsonName msgId) with hsame | ⟨hnone, -⟩
      · exact hsame.trans hgone
      · exact hnone
    refine (recoverClaim_total hinbox hne hfree).bind (fun moved u _ hu => ?_) fun e u _ hu => ?_
    · obtain ⟨hlocks, hturn, -⟩ := hu
      refine (ih (hturn.dirs ▸ hinbox) hlocks (hstill hturn)).bind
        (fun n v _ hv => Prog.total_ret trivial hv) fun e v _ hv => hv
    · exact hstill hu.2.1

theorem recoverClaims_moves {names : List String} (hinbox : inbox ∈ s.dirs)
    (hne : inbox ≠ processing) (hfree : s.locks = []) (hname : name ∈ names)
    (hexpired : Expired s processing cutoff name msgId)
    (hread : ∀ cf ∈ names, ∀ j t n, s.files.get? ⟨processing, cf⟩ = some ⟨.json j, t, n⟩ →
      j.isDict = true)
    (hothers : ∀ cf ∈ names, cf ≠ name → ∀ m, Expired s processing cutoff cf m →
      jsonName m ≠ name) :
    (recoverClaims inbox processing cutoff gate names).Total world i (Still T ρ) (fun _ => True) s
      fun _ u => u.files.get? ⟨processing, jsonName msgId⟩ = none := by
  induction names generalizing s with
  | nil => cases hname
  | cons cf names ih =>
    refine (recoverClaim_total hinbox hne hfree).bind (fun moved u _ hu => ?_) fun e u _ hu => ?_
    · obtain ⟨hlocks, hturn, -⟩ := hu
      by_cases hcf : cf = name
      · -- the turn of the claim itself
        subst hcf
        refine (recoverClaims_gone (hturn.dirs ▸ hinbox) hne hlocks (hturn.moved _ hexpired)).bind
          (fun n v _ hv => Prog.total_ret trivial hv) fun e v _ hv => hv
      · have hin : name ∈ names := (List.mem_cons.mp hname).resolve_left fun h => hcf h.symm
        have hsame : u.files.get? ⟨processing, name⟩ = s.files.get? ⟨processing, name⟩ := by
          rcases hturn.rest name with hsame | ⟨-, he | ⟨m, hm, he⟩⟩
          · exact hsame
          · exact absurd he.symm hcf
          · exact absurd he.symm (hothers cf List.mem_cons_self hcf m hm)
        have hexpired' : Expired u processing cutoff name msgId := by
          obtain ⟨j, t, n, ts, hclaim, hrest⟩ := hexpired
          exact ⟨j, t, n, ts, hsame.trans hclaim, hrest⟩
        refine (ih (hturn.dirs ▸ hinbox) hlocks hin hexpired' (fun cf' hcf' j t n h => ?_)
          fun cf' hcf' hne' m hm => ?_).bind
          (fun n v _ hv => Prog.total_ret trivial hv) fun e v _ hv => hv
        · rcases hturn.rest cf' with hsame' | ⟨hnone, -⟩
          · exact hread cf' (List.mem_cons_of_mem cf hcf') j t n (hsame'.symm.trans h)
          · rw [hnone] at h
            cases h
        · exact hothers cf' (List.mem_cons_of_mem cf hcf') hne' m (hturn.expired hm)
    · obtain ⟨-, -, ⟨b, hb⟩ | ⟨j, t, n, hclaim, hdict⟩⟩ := hu
      · cases hb
      · rw [hread cf List.mem_cons_self j t n hclaim] at hdict
        cases hdict

theorem sweepTmpClaims_keeps (hnames : jsonName msgId ∉ names) :
    (sweepTmpClaims processing gate names).Total world i (Still T ρ) (fun _ => True) s fun _ u =>
      u.files.get? ⟨processing, jsonName msgId⟩ = s.files.get? ⟨processing, jsonName msgId⟩ := by
  induction names generalizing s with
  | nil => exact Prog.total_ret trivial rfl
  | cons x names ih =>
    have hrest : jsonName msgId ∉ names := fun h => hnames (List.mem_cons_of_mem x h)
    refine Prog.total_op_bind trivial fun c _ => ?_
    cases hx : s.files.get? ⟨processing, x⟩ with
    | none => exact ⟨.error .notFound, s, by simp [world, Disk.perform, hx], ih hrest⟩
    | some f =>
      refine ⟨.ok (f.mtime, f.data.size), s, by simp [world, Disk.perform, hx], ?_⟩
      dsimp only
      split_ifs with hold
      · refine Prog.total_op_bind trivial fun c hc => ⟨.ok (), { s with files := s.files.del ⟨processing, x⟩ },
          by simp [world, Disk.perform, hc.fault, hx], ?_⟩
        refine (ih hrest).mono (fun _ h => h) fun r u _ hu => hu.trans ?_
        exact Files.get?_del_ne _ fun he => hnames (List.mem_cons.mpr (.inl (congrArg Path.name he)))
      · exact ih hrest

theorem sortedGlob_total {α : Type} {d : Dir} {pre suf : String} {f : List String → Call α}
    {Q : Except PyErr α → Disk → Prop}
    (h : ∀ names, (∀ x, x ∈ names ↔ globMatch pre suf x = true ∧
      (s.files.get? ⟨d, x⟩).isSome = true) →
      (f names).Total world i (Still T ρ) (fun _ => True) s Q) :
    (sortedGlob d pre suf >>= f).Total world i (Still T ρ) (fun _ => True) s Q := by
  refine Prog.total_op_bind trivial fun c _ => ⟨_, s, rfl, h _ fun x => ?_⟩
  rw [List.mem_insertionSort, List.mem_filter, List.mem_insertionSort, Files.mem_names,
    Option.isSome_iff_exists, and_comm]

/-- What the loop of `recover_stale` does to a message, the whole call does. -/
theorem recoverStale_total {sid agent : String} {P : Option MFile → Prop}
    (hsid : agentIdOk sid = true) (hagent : agentIdOk agent = true) (hident : msgIdOk msgId = true)
    (hdir : Dir.box sid agent .processing ∈ s.dirs)
    (hloop : ∀ gate names, (∀ cf, cf ∈ names ↔ globMatch ".claim-" ".json" cf = true ∧
      (s.files.get? ⟨.box sid agent .processing, cf⟩).isSome = true) →
      (recoverClaims (.box sid agent .inbox) (.box sid agent .processing) (leaseCutoff T) gate
        names).Total world i (Still T ρ) (fun _ => True) s fun _ u =>
          P (u.files.get? ⟨.box sid agent .processing, jsonName msgId⟩)) :
    (recoverStale sid agent).Total world i (Still T ρ) (fun _ => True) s fun _ u =>
      P (u.files.get? ⟨.box sid agent .processing, jsonName msgId⟩) := by
  refine agentSubdir_total hagent hsid (agentSubdir_total hagent hsid (isDir_total trivial hdir ?_))
  refine clock_still (clock_still (sortedGlob_total fun names hnames => ?_))
  refine (hloop _ names hnames).bind (fun n u _ hu => ?_) fun e u _ hu => hu
  refine sortedGlob_total fun tmps htmps => ?_
  have hno : jsonName msgId ∉ tmps := by
    intro hin
    have hstart := startsWith_of_globMatch ((htmps _).mp hin).1
    exact jsonName_ne_of_dotted hident (startsWith_trans (by decide) hstart) rfl
  refine (sweepTmpClaims_keeps hno).bind (fun _ v _ hv => Prog.total_ret trivial ?_) fun e v _ hv => ?_
  · rw [hv]
    exact hu
  · rw [hv]
    exact hu

end Judges

/-! ## The three judges -/

section Claim

variable {x : Sighting} {i : ℕ} {ρ : String → ℕ} {s : Disk} {sid agent msgId name : String}

/-- Whatever the call does, the file is afterwards what it was. -/
def LeftBy {α : Type} (x : Sighting) (i : ℕ) (ρ : String → ℕ) (s : Disk) (p : Call α) (m : MPath) :
    Prop :=
  p.Total world i (Still x.judgeClock ρ) (fun _ => True) s fun _ u =>
    u.files.get? m = s.files.get? m

/-- The other claims are no obstacle: each is a JSON object or unreadable, and one that has run
out is on another message and not on the claim. -/
structure Apart (x : Sighting) (s : Disk) (processing : Dir) (msgId name : String) : Prop where
  readable : ∀ cf, cf ≠ name → globMatch ".claim-" ".json" cf = true → ∀ j t n,
    s.files.get? ⟨processing, cf⟩ = some ⟨.json j, t, n⟩ → j.isDict = true
  claims : ∀ cf, cf ≠ name → globMatch ".claim-" ".json" cf = true → ∀ m,
    Expired s processing (leaseCutoff x.judgeClock) cf m → m ≠ msgId ∧ jsonName m ≠ name

/-- A claim of a member of a tidy session. -/
structure Leased (x : Sighting) (s : Disk) (sid agent name : String) (agents : List String) :
    Prop where
  tidy : Tidy s sid agents
  member : agent ∈ agents
  processing : Dir.box sid agent .processing ∈ s.dirs
  glob : globMatch ".claim-" ".json" name = true
  claim : ∃ j t n msgId, s.files.get? ⟨.box sid agent .processing, name⟩ = some ⟨.json j, t, n⟩ ∧
    Stamped x msgId name j

/-- Nothing but the claim may keep the session alive. -/
structure Idle (x : Sighting) (s : Disk) (sid agent name : String) (agents : List String)
    (queued : Bool) : Prop where
  waiting : ∀ a ∈ agents, ¬ Waiting s (.box sid a .inbox) ∧ ¬ Waiting s (.box sid a .processing)
  claims : ∀ a ∈ agents, ∀ cf, FreshClaim x.judgeClock s (.box sid a .processing) cf →
    a = agent ∧ cf = name
  queue : queued = false

theorem not_leftBy {α : Type} {p : Call α} {m : MPath}
    (h : p.Total world i (Still x.judgeClock ρ) (fun _ => True) s fun _ u => u.files.get? m = none)
    (hm : (s.files.get? m).isSome = true) : ¬ LeftBy x i ρ s p m := by
  intro hleft
  have hchoice : Still x.judgeClock ρ { time := x.judgeClock, rank := ρ } := ⟨rfl, rfl, rfl⟩
  obtain ⟨r, u, hrun⟩ := h.runs hchoice
  have hgone := h.ends _ _ hrun
  rw [hleft.ends _ _ hrun] at hgone
  rw [hgone] at hm
  cases hm

theorem box_ne : Dir.box sid agent .inbox ≠ .box sid agent .processing := nofun

theorem reap_left_iff (h : Claimed x s sid agent msgId name) :
    LeftBy x i ρ s (reapExpiredClaim (.box sid agent .inbox) (.box sid agent .processing)
      ⟨.box sid agent .processing, name⟩) ⟨.box sid agent .processing, jsonName msgId⟩ ↔
      x.InTime := by
  obtain ⟨j, t, n, hclaim, hstamped⟩ := h.claim
  have hreap : (reapExpiredClaim (.box sid agent .inbox) (.box sid agent .processing)
      ⟨.box sid agent .processing, name⟩).Total world i (Still x.judgeClock ρ) (fun _ => True) s _ :=
    reapExpiredClaim_total hclaim hstamped.dict hstamped.claimTime h.inbox box_ne h.free
  rw [hstamped.on] at hreap
  rw [x.inTime_iff]
  constructor
  · intro hleft
    by_contra hold
    refine not_leftBy (hreap.mono (fun _ h => h) fun r u _ hu => ?_) h.message hleft
    rcases hu with ⟨hfresh, -⟩ | ⟨-, -, hgone⟩
    · exact absurd hfresh hold
    · exact hgone
  · intro hfresh
    refine hreap.mono (fun _ h => h) fun r u _ hu => ?_
    rcases hu with ⟨-, -, rfl⟩ | ⟨hold, -⟩
    · rfl
    · exact absurd hfresh (not_le.mpr hold)

theorem recover_left_iff (h : Claimed x s sid agent msgId name)
    (hapart : Apart x s (.box sid agent .processing) msgId name) :
    LeftBy x i ρ s (recoverStale sid agent) ⟨.box sid agent .processing, jsonName msgId⟩ ↔
      x.InTime := by
  obtain ⟨j, t, n, hclaim, hstamped⟩ := h.claim
  rw [x.inTime_iff]
  constructor
  · intro hleft
    by_contra hold
    have hexpired : Expired s (.box sid agent .processing) (leaseCutoff x.judgeClock) name msgId :=
      ⟨j, t, n, _, hclaim, hstamped.dict, hstamped.claimTime, not_le.mp hold, hstamped.on⟩
    refine not_leftBy ?_ h.message hleft
    refine recoverStale_total (P := fun f => f = none) h.session h.member h.ident h.processing ?_
    intro gate names hnames
    refine recoverClaims_moves h.inbox box_ne h.free ?_ hexpired (fun cf hcf j' t' n' h' => ?_)
      fun cf hcf hne m hm => (hapart.claims cf hne ((hnames cf).mp hcf).1 m hm).2
    · exact (hnames name).mpr ⟨h.glob, Option.isSome_iff_exists.mpr ⟨_, hclaim⟩⟩
    · by_cases hne : cf = name
      · subst hne
        cases hclaim.symm.trans h'
        exact hstamped.dict
      · exact hapart.readable cf hne ((hnames cf).mp hcf).1 j' t' n' h'
  · intro hfresh
    refine recoverStale_total
      (P := fun f => f = s.files.get? ⟨.box sid agent .processing, jsonName msgId⟩)
      h.session h.member h.ident h.processing fun gate names hnames => ?_
    refine recoverClaims_keeps h.inbox box_ne h.free (fun hin => ?_) fun cf hcf hexpired => ?_
    · have hstart := startsWith_of_globMatch ((hnames _).mp hin).1
      exact jsonName_ne_of_dotted h.ident (startsWith_trans (by decide) hstart) rfl
    · by_cases hne : cf = name
      · subst hne
        obtain ⟨j', t', n', ts, hclaim', -, hts, hold, -⟩ := hexpired
        cases hclaim.symm.trans hclaim'
        cases hstamped.claimTime.symm.trans hts
        exact absurd hfresh (not_le.mpr hold)
      · exact (hapart.claims cf hne ((hnames cf).mp hcf).1 msgId hexpired).1 rfl

/-- The test for unfinished work says yes. -/
def CountedLive (x : Sighting) (i : ℕ) (ρ : String → ℕ) (s : Disk)
    (order : List Json → List Json) (queued : Bool) (sid : String) : Prop :=
  Answers i x.judgeClock ρ s (sessionHasUnfinishedWork order queued sid) True

theorem answers_true_iff {p : Call Bool} {A : Prop} {T : ℕ} (h : Answers i T ρ s p A) :
    Answers i T ρ s p True ↔ A := by
  refine ⟨fun htrue => ?_, fun hA => h.congr (iff_true_intro hA)⟩
  have hchoice : Still T ρ { time := T, rank := ρ } := ⟨rfl, rfl, rfl⟩
  obtain ⟨r, u, hrun⟩ := h.runs hchoice
  obtain ⟨-, b, hb, hA⟩ := h.ends _ _ hrun
  obtain ⟨-, b', hb', hyes⟩ := htrue.ends _ _ hrun
  cases hb.symm.trans hb'
  exact hA.mp (hyes.mpr trivial)

variable {agents : List String} {order : List Json → List Json} {queued : Bool}

theorem Leased.fresh_iff (h : Leased x s sid agent name agents) :
    FreshClaim x.judgeClock s (.box sid agent .processing) name ↔ x.InTime := by
  obtain ⟨j, t, n, msgId, hclaim, hstamped⟩ := h.claim
  rw [x.inTime_iff]
  constructor
  · rintro ⟨-, j', t', n', ts, hclaim', hts, hfresh⟩
    cases hclaim.symm.trans hclaim'
    cases hstamped.claimTime.symm.trans hts
    exact hfresh
  · exact fun hfresh => ⟨h.glob, j, t, n, _, hclaim, hstamped.claimTime, hfresh⟩

theorem counted_of_inTime (h : Leased x s sid agent name agents)
    (horder : ∀ l y, y ∈ order l ↔ y ∈ l) (hin : x.InTime) :
    CountedLive x i ρ s order queued sid := by
  refine (answers_true_iff (sessionHasUnfinishedWork_answers horder queued h.tidy)).mpr (.inl ?_)
  exact ⟨agent, h.member, .inr (.inr ⟨h.processing, name, h.fresh_iff.mpr hin⟩)⟩

theorem counted_iff (h : Leased x s sid agent name agents)
    (hidle : Idle x s sid agent name agents queued) (horder : ∀ l y, y ∈ order l ↔ y ∈ l) :
    CountedLive x i ρ s order queued sid ↔ x.InTime := by
  refine ⟨fun hcounted => ?_, counted_of_inTime h horder⟩
  rcases (answers_true_iff (sessionHasUnfinishedWork_answers horder queued h.tidy)).mp hcounted
    with ⟨a, ha, hbusy⟩ | hqueued
  · obtain ⟨hinbox, hprocessing⟩ := hidle.waiting a ha
    rcases hbusy with hw | hw | ⟨-, cf, hfresh⟩
    · exact absurd hw hinbox
    · exact absurd hw hprocessing
    · obtain ⟨rfl, rfl⟩ := hidle.claims a ha cf hfresh
      exact h.fresh_iff.mp hfresh
  · rw [hidle.queue] at hqueued
    cases hqueued

/-- **When a claim that should be safe is safe.**  `_reap_expired_claim` and `recover_stale`
leave its message, and the test for unfinished work counts it, if and only if its age, the
skew and the fraction of a second that was cut make up at most the lease less the tolerance. -/
theorem skew_tolerated_iff (x : Sighting) (i : ℕ) (ρ : String → ℕ) :
    (∀ s sid agent msgId name, Claimed x s sid agent msgId name →
      ((x.Live → LeftBy x i ρ s (reapExpiredClaim (.box sid agent .inbox)
        (.box sid agent .processing) ⟨.box sid agent .processing, name⟩)
          ⟨.box sid agent .processing, jsonName msgId⟩) ↔ (x.Live → x.InTime))) ∧
    (∀ s sid agent msgId name, Claimed x s sid agent msgId name →
      Apart x s (.box sid agent .processing) msgId name →
      ((x.Live → LeftBy x i ρ s (recoverStale sid agent)
        ⟨.box sid agent .processing, jsonName msgId⟩) ↔ (x.Live → x.InTime))) ∧
    ∀ s sid agent name agents order queued, (∀ l y, y ∈ order l ↔ y ∈ l) →
      Leased x s sid agent name agents →
      (x.InTime → CountedLive x i ρ s order queued sid) ∧
      (Idle x s sid agent name agents queued →
        ((x.Live → CountedLive x i ρ s order queued sid) ↔ (x.Live → x.InTime))) := by
  refine ⟨fun s sid agent msgId name h => ?_, fun s sid agent msgId name h hapart => ?_,
    fun s sid agent name agents order queued horder h => ⟨fun hin => ?_, fun hidle => ?_⟩⟩
  · exact imp_congr_right fun _ => reap_left_iff h
  · exact imp_congr_right fun _ => recover_left_iff h hapart
  · exact counted_of_inTime h horder hin
  · exact imp_congr_right fun _ => counted_iff h hidle horder

end Claim

/-! ### An hour less twenty seconds -/

/-- A session of `a` and `b`. -/
def roomFiles : Files Dir Data :=
  Files.empty.write ⟨.session "s", "session.json"⟩
    (.json (.obj [("manager", .str "a"), ("agents", .arr [.str "b"])])) 0

/-- With a message of `b` in `processing`. -/
def messageFiles : Files Dir Data := roomFiles.write ⟨.box "s" "b" .processing, "m.json"⟩ .junk 0

/-- With the claim of a worker on it. -/
def heldMessage : Disk where
  files := messageFiles.write ⟨.box "s" "b" .processing, ".claim-m-w.json"⟩
    (.json (claimMeta "m" "w" 0)) 0
  dirs := [.box "s" "b" .inbox, .box "s" "b" .processing]
  locks := []
  inoLocks := []

/-- A claim that is judged after some seconds, by a clock that is right. -/
def seenAfter (seconds : ℕ) : Sighting where
  stampedAt := 0
  judgedAt := (seconds * 1000000 : ℕ)
  stampClock := 0
  judgeClock := seconds * 1000000
  inRange := by decide

theorem claimed_heldMessage (n : ℕ) :
    Claimed (seenAfter n) heldMessage "s" "b" "m" ".claim-m-w.json" where
  session := by decide
  member := by decide
  ident := by decide
  glob := by decide +kernel
  message := by decide +kernel
  claim := ⟨claimMeta "m" "w" 0, _, _, rfl, rfl, rfl, by decide +kernel⟩
  processing := by decide
  inbox := by decide
  free := rfl

/-- The claim is the only JSON document in `processing`. -/
theorem heldMessage_json {agent name : String} {j : Json} {t n : ℕ}
    (h : heldMessage.files.get? ⟨.box "s" agent .processing, name⟩ = some ⟨.json j, t, n⟩) :
    name = ".claim-m-w.json" ∧ j = claimMeta "m" "w" 0 := by
  by_cases hclaim : (⟨.box "s" agent .processing, name⟩ : MPath) =
      ⟨.box "s" "b" .processing, ".claim-m-w.json"⟩
  · have hholds : heldMessage.files.get? ⟨.box "s" "b" .processing, ".claim-m-w.json"⟩ =
        some ⟨.json (claimMeta "m" "w" 0), 0, 2⟩ := rfl
    rw [hclaim] at h
    cases hholds.symm.trans h
    exact ⟨congrArg Path.name hclaim, rfl⟩
  have hmessage : messageFiles.get? ⟨.box "s" agent .processing, name⟩ = some ⟨.json j, t, n⟩ :=
    (Files.get?_write_ne messageFiles _ 0 hclaim).symm.trans h
  by_cases hmsg : (⟨.box "s" agent .processing, name⟩ : MPath) = ⟨.box "s" "b" .processing, "m.json"⟩
  · rw [hmsg] at hmessage
    cases hmessage
  · have hroom : roomFiles.get? ⟨.box "s" agent .processing, name⟩ = some ⟨.json j, t, n⟩ :=
      (Files.get?_write_ne roomFiles _ 0 hmsg).symm.trans hmessage
    have hfile : (⟨.box "s" agent .processing, name⟩ : MPath) ≠ ⟨.session "s", "session.json"⟩ := nofun
    cases (Files.get?_write_ne Files.empty _ 0 hfile).symm.trans hroom

theorem apart_heldMessage (x : Sighting) :
    Apart x heldMessage (.box "s" "b" .processing) "m" ".claim-m-w.json" where
  readable cf hne _ j t n h := absurd (heldMessage_json h).1 hne
  claims cf hne _ m hm := by
    obtain ⟨j, t, n, ts, h, -⟩ := hm
    exact absurd (heldMessage_json h).1 hne

theorem leased_heldMessage (n : ℕ) :
    Leased (seenAfter n) heldMessage "s" "b" ".claim-m-w.json" ["b", "a"] where
  tidy :=
    { name := by decide
      info := by
        refine ⟨_, _, _, [.str "b", .str "a"], rfl, rfl, rfl, rfl, fun y => ⟨?_, ?_⟩⟩
        · rintro ⟨hy, -⟩
          rcases List.mem_cons.mp hy with rfl | hy
          · exact ⟨"b", by decide, rfl⟩
          · exact ⟨"a", by decide, List.mem_singleton.mp hy⟩
        · rintro ⟨agent, hagent, rfl⟩
          rcases List.mem_cons.mp hagent with rfl | hagent
          · exact ⟨by decide, by decide⟩
          · cases List.mem_singleton.mp hagent
            exact ⟨by decide, by decide⟩
      names := by decide
      claims := fun agent _ name _ j t n h => (heldMessage_json h).2 ▸ rfl }
  member := by decide
  processing := by decide
  glob := by decide +kernel
  claim := ⟨claimMeta "m" "w" 0, _, _, "m", rfl, rfl, rfl, by decide +kernel⟩

/-- An hour less a minute is in time. -/
theorem left_before_timeout :
    LeftBy (seenAfter 3540) 0 (fun _ => 0) heldMessage
      (reapExpiredClaim (.box "s" "b" .inbox) (.box "s" "b" .processing)
        ⟨.box "s" "b" .processing, ".claim-m-w.json"⟩) ⟨.box "s" "b" .processing, jsonName "m"⟩ ∧
    LeftBy (seenAfter 3540) 0 (fun _ => 0) heldMessage (recoverStale "s" "b")
      ⟨.box "s" "b" .processing, jsonName "m"⟩ ∧
    CountedLive (seenAfter 3540) 0 (fun _ => 0) heldMessage id false "s" := by
  have hlive : (seenAfter 3540).Live := ⟨by decide +kernel, by decide +kernel⟩
  have hin : (seenAfter 3540).InTime := by decide +kernel
  obtain ⟨hreap, hrecover, hcount⟩ := skew_tolerated_iff (seenAfter 3540) 0 fun _ => 0
  refine ⟨?_, ?_, ?_⟩
  · exact (hreap _ _ _ _ _ (claimed_heldMessage 3540)).mpr (fun _ => hin) hlive
  · exact (hrecover _ _ _ _ _ (claimed_heldMessage 3540) (apart_heldMessage _)).mpr (fun _ => hin) hlive
  · exact (hcount _ _ _ _ _ id false (fun _ _ => Iff.rfl) (leased_heldMessage 3540)).1 hin

/-- A lease that has twenty seconds left is reaped by a clock that is right. -/
theorem reaped_before_timeout : ¬ ∀ x : Sighting, x.Live → ∀ s sid agent msgId name,
    Claimed x s sid agent msgId name → Apart x s (.box sid agent .processing) msgId name →
    LeftBy x 0 (fun _ => 0) s (reapExpiredClaim (.box sid agent .inbox)
      (.box sid agent .processing) ⟨.box sid agent .processing, name⟩)
        ⟨.box sid agent .processing, jsonName msgId⟩ ∧
    LeftBy x 0 (fun _ => 0) s (recoverStale sid agent)
      ⟨.box sid agent .processing, jsonName msgId⟩ := by
  intro h
  have hlive : (seenAfter 3580).Live := ⟨by decide +kernel, by decide +kernel⟩
  have hleft := h _ hlive heldMessage "s" "b" "m" ".claim-m-w.json" (claimed_heldMessage 3580)
    (apart_heldMessage _)
  have hin := (reap_left_iff (claimed_heldMessage 3580)).mp hleft.1
  exact absurd hin (by decide +kernel)

end AiMeshChat.Mailbox.ClockSkew
