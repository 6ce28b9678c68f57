import AiMeshChat.Session.Registry
import Mathlib.Tactic.Common
import Mathlib.Tactic.SplitIfs

/-!
# Which session is resumed

A call that exits with 0 and reports no session id makes the row `active` with
whatever id it holds. If the call did not run in that session, because the last run
had failed or the caller asked for no resumption, a session that has not succeeded
is resumed by the next call (`unreported_run_revives_failed`).

As long as no call does that, only a session whose last run succeeded is resumed
(`resumes_last_success`).
-/

namespace AiMeshChat.Session

/-- The call `p` ran in the session `s` and succeeded. -/
def RanIn (s : String) (p : Ended) : Prop :=
  p.returncode = 0 ∧ (p.reported = some s ∨ (p.reported = none ∧ p.passed = some s))

/-- Every call that is passed a session comes right after one that succeeded in it;
`prev` is the call before the list. -/
def ResumesLast : Option Ended → List Ended → Prop
  | _, [] => True
  | prev, e :: es =>
    (∀ s, e.passed = some s → ∃ p, prev = some p ∧ RanIn s p) ∧ ResumesLast (some e) es

/-! ## The condition -/

/-- A call that succeeds without an id, in a session that is not new, has resumed the
session whose id is stored, if one is. -/
def Call.Tied (t : Sessions) (key : String) (c : Call) : Prop :=
  ∀ result, c.outcome = .ok result → result.returncode = 0 →
    truthyText result.sessionId = none → c.request.newSession = false →
    ∀ r, t key = some r → r.sessionId ≠ "" →
      c.request.noAutoResume = false ∧ r.status = .active

/-- Every call meets the condition in the state before it. -/
def AllTied (key : String) : List Call → Sessions → Prop
  | [], _ => True
  | c :: cs, t => c.Tied t key ∧ AllTied key cs (executeCall t key c).1

/-! ## The rows -/

theorem update_get (t : Sessions) (key : String) (f : SessionRecord → SessionRecord) :
    update t key f key = (t key).map f :=
  Function.update_self ..

theorem markStarting_get (t : Sessions) (key : String) (request : RunRequest) (target : Target)
    (clear : Bool) : ∃ r, markStarting t key request target clear key = some r ∧
      r.status = .starting ∧
      r.sessionId = if clear then "" else ((t key).map (·.sessionId)).getD "" :=
  ⟨_, Function.update_self .., rfl, rfl⟩

theorem statusOf_active {n : ℤ} (h : statusOf n = .active) : n = 0 := by
  unfold statusOf at h
  split_ifs at h with h0
  · exact h0

theorem orText_of_truthy {v : Option String} {s : String} (h : truthyText v = some s) :
    orText v "" = s := by
  obtain ⟨hv, hne⟩ := Option.filter_eq_some_iff.mp h
  rw [hv, orText, if_neg (by simpa using hne)]

/-- An active row names the session that the last call ran in. -/
def Paired (t : Sessions) (key : String) (prev : Option Ended) : Prop :=
  ∀ r, t key = some r → r.status = .active → r.sessionId ≠ "" →
    ∃ p, prev = some p ∧ RanIn r.sessionId p

/-- **One call** leaves the id and the status paired. -/
theorem executeCall_paired {t : Sessions} {key : String} {c : Call} (hc : c.Tied t key) :
    Paired (executeCall t key c).1 key (some (executeCall t key c).2) := by
  intro r hr hactive hne
  refine ⟨_, rfl, ?_⟩
  obtain ⟨r₀, hr₀, -, hid₀⟩ :=
    markStarting_get t key c.request c.target c.request.newSession
  unfold executeCall at hr ⊢
  cases hout : c.outcome with
  | error text =>
    simp only [hout, settle, markFailed, update_get, hr₀, Option.map_some, Option.some.injEq] at hr
    rw [← hr] at hactive
    cases hactive
  | ok result =>
    simp only [hout, settle] at hr ⊢
    cases hsid : truthyText result.sessionId with
    | some sid =>
      simp only [hsid, upsert, Function.update_self, Option.some.injEq] at hr
      subst hr
      have hcode : result.returncode = 0 := statusOf_active hactive
      exact ⟨hcode, .inl (by rw [hsid]; exact congrArg some (orText_of_truthy hsid).symm)⟩
    | none =>
      by_cases hcode : result.returncode = 0
      · simp only [hsid, hcode, if_true, markActive, update_get, hr₀, Option.map_some,
          Option.some.injEq] at hr
        subst hr
        -- the id was stored before the call, so the call has resumed it
        simp only [hid₀] at hne ⊢
        by_cases hnew : c.request.newSession = true
        · exact absurd (if_pos hnew) hne
        · rw [if_neg hnew] at hne ⊢
          cases hold : t key with
          | none => rw [hold] at hne; exact absurd rfl hne
          | some r₁ =>
            rw [hold] at hne
            obtain ⟨hauto, hstatus⟩ := hc result hout hcode hsid (by simpa using hnew) r₁ hold hne
            refine ⟨by simp [hcode], .inr ⟨by simp [hcode, hsid], ?_⟩⟩
            simp only [Option.map_some, Option.getD_some] at hne ⊢
            simp [resumeId, hnew, hauto, lookup, hold, hstatus, hne]
      · simp only [hsid, hcode, if_false, markFailed, update_get, hr₀, Option.map_some,
          Option.some.injEq] at hr
        rw [← hr] at hactive
        cases hactive

theorem passed_of_paired {t : Sessions} {key : String} {prev : Option Ended}
    (h : Paired t key prev) (c : Call) {s : String} (hs : (executeCall t key c).2.passed = some s) :
    ∃ p, prev = some p ∧ RanIn s p := by
  have hs : resumeId t key c.request = some s := hs
  unfold resumeId at hs
  split_ifs at hs
  cases hrow : lookup t key with
  | none => rw [hrow] at hs; cases hs
  | some r =>
    simp only [hrow] at hs
    split_ifs at hs with hcond
    simp only [Bool.and_eq_true, decide_eq_true_eq] at hcond
    rw [← Option.some.inj hs]
    exact h r hrow hcond.1 hcond.2

/-- **Every run** of such calls. -/
theorem runCalls_resumes {key : String} {cs : List Call} :
    ∀ {t : Sessions} {prev : Option Ended}, Paired t key prev → AllTied key cs t →
      ResumesLast prev (runCalls key cs t) := by
  induction cs with
  | nil => intro t prev _ _; trivial
  | cons c cs ih =>
    intro t prev h hcs
    exact ⟨fun s hs => passed_of_paired h c hs, ih (executeCall_paired hcs.1) hcs.2⟩

/-- **Only a session whose last run succeeded is resumed**, in every sequence of calls
on a key without a row that all meet the condition. -/
theorem resumes_last_success (key : String) (calls : List Call) (t : Sessions)
    (hnew : t key = none) (hcalls : AllTied key calls t) :
    ResumesLast none (runCalls key calls t) := by
  refine runCalls_resumes ?_ hcalls
  intro r hr
  rw [hnew] at hr
  cases hr

/-! ### Three calls -/

/-- A task for this host. -/
def localTarget : Target := ⟨{ name := "here", sshAlias := "here" }, "/w", true⟩

/-- A session that failed is resumed after a run that had nothing to do with it. -/
theorem unreported_run_revives_failed :
    ¬ ResumesLast none (runCalls "k"
      [⟨{ task := "a" }, localTarget, .ok { returncode := 1, sessionId := some "s1" }⟩,
        ⟨{ task := "b" }, localTarget, .ok { returncode := 0 }⟩,
        ⟨{ task := "c" }, localTarget, .ok { returncode := 0 }⟩] fun _ => none) := by
  rintro ⟨-, -, h, -⟩
  obtain ⟨p, hp, -, hran⟩ := h "s1" rfl
  cases hp
  rcases hran with h | ⟨-, h⟩
  · exact absurd h (by decide)
  · exact absurd h (by decide)

/-- A session that succeeds is resumed twice, the second time after a run that did not
report it. -/
theorem resumes_last_success_twice :
    ResumesLast none (runCalls "k"
      [⟨{ task := "a" }, localTarget, .ok { returncode := 0, sessionId := some "s1" }⟩,
        ⟨{ task := "b" }, localTarget, .ok { returncode := 0 }⟩,
        ⟨{ task := "c" }, localTarget, .error "timed out"⟩] fun _ => none) := by
  refine resumes_last_success "k" _ _ rfl ⟨?_, ?_, ?_, trivial⟩
  · rintro result hres - hnone -
    cases hres
    exact absurd hnone (by decide)
  · rintro result hres - - - r hr -
    exact ⟨rfl, by cases hr; rfl⟩
  · rintro result hres
    cases hres

end AiMeshChat.Session
