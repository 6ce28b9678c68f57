import AiMeshChat.Transport.Ssh
import Mathlib.Data.List.Chain

/-!
# When a run request is sent again

The transports do not look at how far a run has come before they repeat it: a
`TransportError` after the helper has accepted the request is answered by a second
request over the fallback alias (`accepted_run_sent_twice`). That is what the
fallback is for, and there is nothing else that sends a request again
(`resend_needs_failure`): the exchange before has failed, the host has a fallback
alias and the request goes there.
-/

namespace AiMeshChat.Transport

open Lib Wire

/-- An exchange that failed in a way that the transports take for one of the
connection: `TransportError`, or 255 with the text of a connection error. -/
def Exchange.Failed (d : ℕ) (request : RunRequest) (workdir : String) (x : Exchange) : Prop :=
  match x.run.result d (orText request.backend "") x.sshAlias workdir request.timeout with
  | .error (.transport _) => True
  | .error (.other _) => False
  | .ok a => a.returncode = 255 ∧ isSshError a.stderr = true

/-- `b` repeats `a` over the fallback alias. -/
def Resent (d : ℕ) (request : RunRequest) (workdir fallback : String) (a b : Exchange) : Prop :=
  a.Failed d request workdir ∧ fallback ≠ "" ∧ b.sshAlias = fallback

/-- The helper has sent an accepted frame, a result or an error. -/
def Exchange.Started (d : ℕ) (x : Exchange) : Prop :=
  ∃ m ∈ (framesRead d 0 x.run.texts).1, m.type = "accepted" ∨ m.IsTerminal

/-! ## One attempt after the other -/

section

variable {d : ℕ} {request : RunRequest} {workdir : String} {sessionId : Option String}
  {i : ℕ} {P : NetChoice → Prop} {log : List Exchange}

theorem ensureAlive_ends (sshAlias : String) :
    (ensureAlive sshAlias).Ends netWorld i P log fun _ log' => log' = log := by
  refine Prog.ends_op_bind fun c a s₁ _ hw => ?_
  obtain ⟨rfl, rfl⟩ := Prod.mk.inj (Option.some.inj hw)
  rcases hc : c.alive with e | b
  · exact Prog.ends_raise rfl
  · cases b with
    | true => exact Prog.ends_ret rfl
    | false =>
      refine Prog.ends_op_bind fun c' a s₂ _ hw' => ?_
      obtain ⟨rfl, rfl⟩ := Prod.mk.inj (Option.some.inj hw')
      rcases c'.create with e | u
      · exact Prog.ends_raise rfl
      · exact Prog.ends_ret rfl

theorem warm_ends (host : HostSpec) :
    (warm host).Ends netWorld i P log fun _ log' => log' = log := by
  refine Prog.ends_op_bind fun c a s₁ _ hw => ?_
  obtain ⟨rfl, rfl⟩ := Prod.mk.inj (Option.some.inj hw)
  rcases c.create with e | u
  · exact Prog.ends_raise rfl
  · exact Prog.ends_ret rfl

theorem runOnHost_ends (sshAlias : String) :
    (runOnHost d request workdir sessionId sshAlias).Ends netWorld i P log fun r log' =>
      ∃ x : Exchange, log' = log ++ [x] ∧ x.sshAlias = sshAlias ∧
        r = x.run.result d (orText request.backend "") x.sshAlias workdir request.timeout := by
  refine Prog.ends_op_bind fun c a s₁ _ hw => ?_
  obtain ⟨rfl, rfl⟩ := Prod.mk.inj (Option.some.inj hw)
  rcases hx : c.run.result d (orText request.backend "") sshAlias workdir request.timeout with e | a
  · exact Prog.ends_raise ⟨_, rfl, rfl, hx.symm⟩
  · exact Prog.ends_ret ⟨_, rfl, rfl, hx.symm⟩

/-- The exchanges `new` have been added, each the repetition of the one before, and a
`TransportError` comes from the last of them, if there is one. -/
structure Repeats (d : ℕ) (request : RunRequest) (workdir fallback : String)
    (r : Except Exc RunResult) (new : List Exchange) : Prop where
  chain : List.IsChain (Resent d request workdir fallback) new
  failed : ∀ t, r = .error (.transport t) → ∀ x ∈ new.getLast?, x.Failed d request workdir

theorem repeats_nil (fallback : String) (r : Except Exc RunResult) :
    Repeats d request workdir fallback r [] :=
  ⟨.nil, fun _ _ x hx => by cases hx⟩

theorem repeats_single (fallback : String) {x : Exchange} {r : Except Exc RunResult}
    (h : r = x.run.result d (orText request.backend "") x.sshAlias workdir request.timeout) :
    Repeats d request workdir fallback r [x] := by
  refine ⟨List.isChain_singleton x, fun t ht y hy => ?_⟩
  have hy : x = y := Option.some.inj hy
  rw [← hy, Exchange.Failed, ← h, ht]
  trivial

theorem executeOnFallback_ends (host : HostSpec) :
    (executeOnFallback d request workdir sessionId host).Ends netWorld i P log fun r log' =>
      ∃ new, log' = log ++ new ∧ new.length ≤ 1 ∧
        (∀ x ∈ new, x.sshAlias = host.fallbackSshAlias) ∧
        ∀ fallback, Repeats d request workdir fallback r new := by
  refine (ensureAlive_ends host.fallbackSshAlias).bind ?_ ?_
  · rintro u log₁ rfl
    refine (runOnHost_ends host.fallbackSshAlias).mono ?_
    rintro r log' ⟨x, rfl, hx, hr⟩
    exact ⟨[x], rfl, Nat.le_refl 1, by simpa using hx, fun _ => repeats_single _ hr⟩
  · rintro e log₁ rfl
    exact ⟨[], (List.append_nil _).symm, Nat.zero_le 1, by simp, fun _ => repeats_nil _ _⟩

theorem ready_ends (host : HostSpec) :
    ((do ensureAlive host.sshAlias; return true : Net Bool).tryCatch fun e =>
      match e with
      | .transport _ => if host.fallbackSshAlias = "" then throw e else return false
      | .other _ => throw e).Ends netWorld i P log fun r log' =>
        log' = log ∧ (r = .ok false → host.fallbackSshAlias ≠ "") := by
  have htry : (do ensureAlive host.sshAlias; return true : Net Bool).Ends netWorld i P log
      fun r log' => log' = log ∧ r ≠ .ok false := by
    refine (ensureAlive_ends host.sshAlias).bind ?_ ?_
    · rintro u log₁ rfl
      exact Prog.ends_ret ⟨rfl, by simp⟩
    · rintro e log₁ rfl
      exact ⟨rfl, by simp⟩
  refine htry.tryCatch ?_ ?_
  · rintro b log₁ ⟨rfl, hb⟩
    exact ⟨rfl, fun h => absurd h hb⟩
  · rintro e log₁ ⟨rfl, -⟩
    cases e with
    | other t => exact Prog.ends_raise ⟨rfl, by simp⟩
    | transport t =>
      by_cases hfb : host.fallbackSshAlias = ""
      · simp only [if_pos hfb]
        exact Prog.ends_raise ⟨rfl, by simp⟩
      · simp only [if_neg hfb]
        exact Prog.ends_ret ⟨rfl, fun _ => hfb⟩

/-- **`SSHTransport.execute`** sends the request over the alias, over the fallback, or
over both, and then the first exchange has failed. -/
theorem execute_ends (host : HostSpec) :
    (execute d request workdir sessionId host).Ends netWorld i P log fun r log' =>
      ∃ new, log' = log ++ new ∧ new.length ≤ (if host.fallbackSshAlias = "" then 1 else 2) ∧
        (∀ x ∈ new.head?, x.sshAlias = host.sshAlias ∨
          (host.fallbackSshAlias ≠ "" ∧ x.sshAlias = host.fallbackSshAlias)) ∧
        Repeats d request workdir host.fallbackSshAlias r new := by
  refine (ready_ends host).bind ?_ ?_
  · rintro ready log₁ ⟨rfl, hready⟩
    cases ready with
    | true =>
      refine (runOnHost_ends host.sshAlias).bind ?_ ?_
      · rintro result log₂ ⟨x, rfl, hx, hr⟩
        by_cases hcond : (result.returncode = 255 && host.fallbackSshAlias ≠ "" &&
            isSshError result.stderr) = true
        · -- the exchange has failed, and the fallback is tried
          simp only [if_pos hcond]
          simp only [Bool.and_eq_true, decide_eq_true_eq, ne_eq] at hcond
          obtain ⟨⟨hcode, hfb⟩, herr⟩ := hcond
          have hfailed : x.Failed d request workdir := by
            rw [Exchange.Failed, ← hr]
            exact ⟨hcode, herr⟩
          refine (executeOnFallback_ends host).mono ?_
          rintro r log' ⟨new, rfl, hlen, halias, hrep⟩
          refine ⟨x :: new, by simp, ?_, ?_, ?_, ?_⟩
          · rw [if_neg hfb, List.length_cons]
            omega
          · rintro y hy
            obtain rfl := Option.some.inj hy
            exact .inl hx
          · cases new with
            | nil => exact List.isChain_singleton x
            | cons y ys =>
              exact List.isChain_cons_cons.mpr ⟨⟨hfailed, hfb, halias y (List.mem_cons_self ..)⟩,
                (hrep _).chain⟩
          · intro t ht y hy
            cases new with
            | nil =>
              have hy : x = y := Option.some.inj hy
              exact hy ▸ hfailed
            | cons z zs => exact (hrep "").failed t ht y (by simpa using hy)
        · simp only [if_neg hcond]
          refine Prog.ends_ret ⟨[x], rfl, ?_, ?_, repeats_single _ hr⟩
          · split_ifs <;> simp
          · rintro y hy
            obtain rfl := Option.some.inj hy
            exact .inl hx
      · rintro e log₂ ⟨x, rfl, hx, hr⟩
        refine ⟨[x], rfl, ?_, ?_, repeats_single _ hr⟩
        · split_ifs <;> simp
        · rintro y hy
          obtain rfl := Option.some.inj hy
          exact .inl hx
    | false =>
      have hfb := hready rfl
      refine (executeOnFallback_ends host).mono ?_
      rintro r log' ⟨new, rfl, hlen, halias, hrep⟩
      refine ⟨new, rfl, ?_, ?_, hrep _⟩
      · rw [if_neg hfb]
        omega
      · intro y hy
        exact .inr ⟨hfb, halias y (List.mem_of_head? hy)⟩
  · rintro e log₁ ⟨rfl, -⟩
    exact ⟨[], (List.append_nil _).symm, Nat.zero_le _, by simp, repeats_nil _ _⟩

end

/-- **The transport part of `_execute`**: at most three exchanges, each the repetition
of the one before. -/
theorem runRemote_ends (d : ℕ) (request : RunRequest) (target : Target) (sessionId : Option String)
    {i : ℕ} {P : NetChoice → Prop} :
    (runRemote d request target sessionId).Ends netWorld i P [] fun _ log =>
      log.length ≤ 3 ∧
        List.IsChain (Resent d request target.workdir target.host.fallbackSshAlias) log := by
  have hfirst : (do warm target.host; execute d request target.workdir sessionId target.host :
      Net RunResult).Ends netWorld i P [] fun r log => log.length ≤ 2 ∧
        Repeats d request target.workdir target.host.fallbackSshAlias r log := by
    refine (warm_ends target.host).bind ?_ ?_
    · rintro u log₁ rfl
      refine (execute_ends target.host).mono ?_
      rintro r log ⟨new, rfl, hlen, -, hrep⟩
      refine ⟨?_, hrep⟩
      split_ifs at hlen
      · exact Nat.le_succ_of_le hlen
      · exact hlen
    · rintro e log₁ rfl
      exact ⟨Nat.zero_le 2, repeats_nil _ _⟩
  refine hfirst.tryCatch ?_ ?_
  · rintro result log ⟨hlen, hrep⟩
    exact ⟨by omega, hrep.chain⟩
  · rintro e log ⟨hlen, hrep⟩
    cases e with
    | other t => exact Prog.ends_raise ⟨by omega, hrep.chain⟩
    | transport t =>
      by_cases hfb : target.host.fallbackSshAlias = ""
      · simp only [if_pos hfb]
        exact Prog.ends_raise ⟨by omega, hrep.chain⟩
      · -- once more, over the fallback alias and without another fallback
        simp only [if_neg hfb]
        refine (warm_ends (fallbackHost target.host)).bind ?_ ?_
        · rintro u log₁ rfl
          refine (execute_ends (fallbackHost target.host)).mono ?_
          rintro r log' ⟨new, rfl, hnew, halias, -⟩
          have hnone : (fallbackHost target.host).fallbackSshAlias = "" := rfl
          rw [if_pos hnone] at hnew
          have hto : ∀ x ∈ new.head?, x.sshAlias = target.host.fallbackSshAlias := by
            intro x hx
            rcases halias x hx with h | ⟨h, -⟩
            · exact h
            · exact absurd hnone h
          have hchain : List.IsChain (Resent d request target.workdir
              target.host.fallbackSshAlias) new := by
            match new with
            | [] => exact .nil
            | [x] => exact List.isChain_singleton x
            | _ :: _ :: _ => simp at hnew
          refine ⟨by rw [List.length_append]; omega, List.isChain_append.mpr ⟨hrep.chain, hchain, ?_⟩⟩
          intro x hx y hy
          exact ⟨hrep.failed t rfl x hx, hfb, hto y hy⟩
        · rintro e' log₁ rfl
          exact ⟨by omega, hrep.chain⟩

/-- **A run request is sent again only after a failure**, only over the fallback alias,
and only if the host has one: in every run of `_execute` there are at most three
exchanges, and each but the first repeats one that ended with a `TransportError` or
with 255 and the text of a connection error. -/
theorem resend_needs_failure (d : ℕ) (t : Session.Sessions) (key : String) (request : RunRequest)
    (target : Target) (i : ℕ) (P : NetChoice → Prop) (log : List Exchange)
    (r : Except Exc (Session.Sessions × RunResult))
    (hrun : (executeRemote d t key request target).Runs netWorld i P [] r log) :
    log.length ≤ 3 ∧
      List.IsChain (Resent d request target.workdir target.host.fallbackSshAlias) log := by
  have hends : (executeRemote d t key request target).Ends netWorld i P []
      fun _ log => log.length ≤ 3 ∧
        List.IsChain (Resent d request target.workdir target.host.fallbackSshAlias) log := by
    refine Prog.Ends.bind (M := fun _ log => log.length ≤ 3 ∧
      List.IsChain (Resent d request target.workdir target.host.fallbackSshAlias) log) ?_ ?_ ?_
    · refine Prog.Ends.tryCatch (M := fun _ log => log.length ≤ 3 ∧
        List.IsChain (Resent d request target.workdir target.host.fallbackSshAlias) log) ?_ ?_ ?_
      · refine (runRemote_ends d request target _).bind ?_ ?_
        · intro result log hlog
          exact Prog.ends_ret hlog
        · intro e log hlog
          exact hlog
      · intro outcome log hlog
        exact hlog
      · intro e log hlog
        exact Prog.ends_ret hlog
    · intro outcome log hlog
      exact Prog.ends_ret hlog
    · intro e log hlog
      exact hlog
  exact hends r log hrun

/-! ### A run that falls silent -/

/-- The helper accepts the request and is not heard of again. -/
def silentRun : NetChoice :=
  { run := ⟨[encode "\x7b\"type\":\"accepted\",\"wire_version\":2\x7d\n".toList], [], .silent⟩ }

/-- A host with a fallback alias. -/
def twoWays : Target :=
  ⟨{ name := "mini", sshAlias := "mini", fallbackSshAlias := "mini-wan" }, "/w", false⟩

/-- The run of a task on that host with that helper. -/
def silentLog : List Exchange :=
  ((Prog.exec netWorld 0 silentRun 20 (executeRemote 9 (fun _ => none) "k" { task := "t" } twoWays)
    []).map (·.2)).getD []

/-- After a run request was accepted, and nothing more was heard, the same request is
sent again over the fallback alias. -/
theorem accepted_run_sent_twice :
    (∃ r, (executeRemote 9 (fun _ => none) "k" { task := "t" } twoWays).Runs netWorld 0
      (· = silentRun) [] r silentLog) ∧
    silentLog.map (·.sshAlias) = ["mini", "mini-wan"] ∧
    ∀ x ∈ silentLog, x.Started 9 ∧
      x.request = makeRequest { task := "t" } "/w" none := by
  refine ⟨⟨_, Prog.runs_exec (n := 20) (by decide +kernel)⟩, by decide +kernel, ?_⟩
  intro x hx
  have hall : ∀ x ∈ silentLog, (((framesRead 9 0 x.run.texts).1.map (·.type)) = ["accepted"] ∧
      x.request = makeRequest { task := "t" } "/w" none) := by decide +kernel
  obtain ⟨htype, hreq⟩ := hall x hx
  refine ⟨?_, hreq⟩
  obtain ⟨m, hm, hmt⟩ := List.mem_map.mp (by rw [htype]; exact List.mem_singleton.mpr rfl :
    "accepted" ∈ (framesRead 9 0 x.run.texts).1.map (·.type))
  exact ⟨m, hm, .inl hmt⟩

theorem resend_needs_failure_silent : silentLog.length ≤ 3 ∧
    List.IsChain (Resent 9 { task := "t" } "/w" "mini-wan") silentLog := by
  obtain ⟨r, hrun⟩ : ∃ r, (executeRemote 9 (fun _ => none) "k" { task := "t" } twoWays).Runs netWorld
      0 (· = silentRun) [] r silentLog := ⟨_, Prog.runs_exec (n := 20) (by decide +kernel)⟩
  exact resend_needs_failure 9 (fun _ => none) "k" { task := "t" } twoWays 0 _ silentLog r hrun

end AiMeshChat.Transport
