import AiMeshChat.JsonText
import AiMeshChat.Stream.Link

/-!
# Stream cursors across concurrent senders

`advance_cursor` (`mailbox/store.py`) reads the clock, opens the cursor file,
takes a lock on what it opened, reads the file and replaces it. Any number of
calls on one session may run at the same time.

The lock is on an inode that `os.replace` takes out of the directory, so a call
that opened the file before a replacement and one that opened it after wait for
different locks. The clock is read before the lock, so a call may come to write
with a reading that others have overtaken. `Orderly` is what a step has to meet
for neither to happen, and `cursors_increase` what then holds of every run.
-/

namespace AiMeshChat.Stream.Cursor

open Lib Mailbox

/-! ## Cursors as texts -/

/-- Earlier as a pair of epoch and sequence number. -/
def StampLt (x y : ℕ × ℤ) : Prop := x.1 < y.1 ∨ x.1 = y.1 ∧ x.2 < y.2

variable {x y : ℕ × ℤ} {ds : List Char}

theorem StampLt.trans {z : ℕ × ℤ} (h : StampLt x y) (h' : StampLt y z) : StampLt x z := by
  unfold StampLt at *
  omega

theorem underscored?_digits (hne : ds ≠ []) (h : ds.all Char.isDigit = true) :
    underscored? ds = some ds := by
  induction ds with
  | nil => exact absurd rfl hne
  | cons d ds ih =>
    rw [List.all_cons, Bool.and_eq_true] at h
    cases ds with
    | nil => simp [underscored?, h.1]
    | cons d' ds =>
      have hd' : ∀ cs, d' :: ds ≠ '_' :: cs := by
        intro cs he
        rw [he, List.all_cons] at h
        exact absurd h.2 (by simp)
      rw [underscored?, if_pos h.1, ih (by simp) h.2, Option.map_some]
      · exact fun he => by cases he
      · exact hd'

theorem digits?_eq (hne : ds ≠ []) (h : ds.all Char.isDigit = true) :
    digits? ds = some (Nat.ofDigitChars 10 ds 0 : ℤ) := by
  have hfold (m : ℕ) (cs : List Char) :
      cs.foldl (fun (n : ℤ) c => 10 * n + (c.toNat - 48 : ℕ)) m = Nat.ofDigitChars 10 cs m := by
    induction cs generalizing m with
    | nil => rfl
    | cons c cs ih =>
      rw [List.foldl_cons, Nat.ofDigitChars_cons, ← ih]
      rfl
  rw [digits?, if_pos ⟨hne, h⟩]
  exact congrArg some (hfold 0 ds)

/-- `int` of digits. -/
theorem parseInt_digits (hne : ds ≠ []) (h : ds.all Char.isDigit = true) :
    parseInt (String.ofList ds) = some (Nat.ofDigitChars 10 ds 0 : ℤ) := by
  have hspace (l : List Char) (hl : l.all Char.isDigit = true) : l.dropWhile isSpace = l := by
    cases l with
    | nil => rfl
    | cons c l =>
      rw [List.all_cons, Bool.and_eq_true] at hl
      rw [List.dropWhile_cons_of_neg]
      intro hc
      have hlo : 48 ≤ c.toNat ∧ c.toNat ≤ 57 := Char.isDigit_iff_toNat.mp hl.1
      simp only [isSpace, Bool.or_eq_true, Bool.and_eq_true, decide_eq_true_eq, List.mem_cons,
        List.not_mem_nil, or_false] at hc
      omega
  have hstrip : ((ds.dropWhile isSpace).reverse.dropWhile isSpace).reverse = ds := by
    rw [hspace ds h, hspace ds.reverse (by simpa using h), List.reverse_reverse]
  have hval : (underscored? ds).bind digits? = some (Nat.ofDigitChars 10 ds 0 : ℤ) := by
    rw [underscored?_digits hne h]
    exact digits?_eq hne h
  rw [parseInt, String.toList_ofList, hstrip]
  split
  · simp at h
  · simp at h
  · exact hval

theorem splitSlash_digits (h : ds.all Char.isDigit = true) (r : List Char) :
    splitSlash (String.ofList (ds ++ '/' :: r)) = (String.ofList ds, some (String.ofList r)) := by
  have hne : ∀ c ∈ ds, decide (c ≠ '/') = true := by
    intro c hc
    have hd := List.all_eq_true.mp h c hc
    rw [decide_eq_true_eq]
    rintro rfl
    exact absurd hd (by decide)
  rw [splitSlash, String.toList_ofList, List.dropWhile_append_of_pos hne,
    List.takeWhile_append_of_pos hne]
  simp

theorem parseCursor_cursorText (hx : 0 ≤ x.2) : parseCursor (cursorText x) = ((x.1 : ℤ), x.2) := by
  set w := SEQ_WIDTH - (Nat.toDigits 10 x.2.toNat).length
  have htext : cursorText x = String.ofList (Nat.toDigits 10 x.1 ++
      '/' :: (List.replicate w '0' ++ Nat.toDigits 10 x.2.toNat)) := by
    rw [← String.toList_inj]
    simp [cursorText, zeroPad, w]
  have hseq : (List.replicate w '0' ++ Nat.toDigits 10 x.2.toNat).all Char.isDigit = true := by
    rw [List.all_append, toDigits_all_isDigit]
    simp
  have hnum : (Nat.ofDigitChars 10 (List.replicate w '0' ++ Nat.toDigits 10 x.2.toNat) 0 : ℤ) =
      x.2 := by
    rw [Nat.ofDigitChars_append, Nat.ofDigitChars_replicate_zero, Nat.mul_zero,
      Nat.ofDigitChars_ten_toDigits]
    omega
  have hlong : cursorText x ≠ "" ∧ cursorText x ≠ STREAM_CURSOR_INITIAL := by
    have hmem : '/' ∈ (cursorText x).toList := by
      rw [htext, String.toList_ofList]
      simp
    constructor <;> intro he <;> rw [he] at hmem <;> exact absurd hmem (by decide)
  rw [parseCursor, if_neg (by simpa using hlong), htext, splitSlash_digits (toDigits_all_isDigit _)]
  simp only [parseInt_digits Nat.toDigits_ne_nil (toDigits_all_isDigit _),
    parseInt_digits (by simp [Nat.toDigits_ne_nil]) hseq, hnum, Nat.ofDigitChars_ten_toDigits]

theorem cursorText_inj (hx : 0 ≤ x.2) (hy : 0 ≤ y.2) (h : cursorText x = cursorText y) : x = y := by
  have hparse := congrArg parseCursor h
  rw [parseCursor_cursorText hx, parseCursor_cursorText hy, Prod.mk.injEq] at hparse
  exact Prod.ext (by exact_mod_cast hparse.1) hparse.2

theorem cursorGt_cursorText (hx : 0 ≤ x.2) (hy : 0 ≤ y.2) :
    cursorGt (cursorText y) (cursorText x) = true ↔ StampLt x y := by
  simp only [cursorGt, parseCursor_cursorText hx, parseCursor_cursorText hy, StampLt,
    Bool.or_eq_true, Bool.and_eq_true, decide_eq_true_eq]
  omega

/-! ## The calls -/

section Calls

variable (sid : String)

def cursorFile : MPath := ⟨.session sid, STREAM_CURSOR_FILE⟩
def cursorTmp : MPath := ⟨.session sid, ".tmp-stream-cursor"⟩

/-- What the cursor file of a call holds. -/
def stampJson (x : ℕ × ℤ) : Json := .obj [("epoch_ms", .int x.1), ("seq", .int x.2)]

/-- What a call reads from the cursor file. -/
def cursorRead (s : Disk) : Option Json :=
  match s.files.get? (cursorFile sid) with
  | some ⟨.json j, _, _⟩ => some j
  | _ => none

/-- Any number of calls on one session. -/
def callers (s : Disk) : Pool Op Ans Disk PyErr String := ⟨s, fun _ => advanceCursor sid⟩

/-- A session whose cursor file only `advance_cursor` has written, with no call
under way. -/
structure Idle (s : Disk) : Prop where
  locks : s.inoLocks = []
  file : cursorRead sid s = none ∨ ∃ x, 0 ≤ x.2 ∧ cursorRead sid s = some (stampJson x)

/-- The call that replaced the cursor file, if the operation did that. -/
def replacer? : ℕ × (o : Op) × Ans o → Option ℕ
  | (i, ⟨.replace src dst _, .ok ()⟩) =>
    if src = cursorTmp sid ∧ dst = cursorFile sid then some i else none
  | _ => none

/-- The calls that replaced the cursor file, in the order in which they did. -/
def replacers (s : Disk) (es : List (Event Choice)) : List ℕ :=
  ((callers sid s).trace world es).filterMap (replacer? sid)

/-- Call `i` has returned `cur` after the run. -/
def Returned (s : Disk) (es : List (Event Choice)) (i : ℕ) (cur : String) : Prop :=
  ((Pool.run world (callers sid s) es).procs i).returned? = some cur

instance (s : Disk) (es : List (Event Choice)) (i : ℕ) (cur : String) :
    Decidable (Returned sid s es i cur) := inferInstanceAs (Decidable (_ = _))

/-- No two calls return the same cursor, and the cursors increase in the order in
which the file is replaced. -/
structure CursorsIncrease (s : Disk) (es : List (Event Choice)) : Prop where
  distinct : ∀ i j cur, Returned sid s es i cur → Returned sid s es j cur → i = j
  increasing : (replacers sid s es).Pairwise fun i j => ∀ cur cur', Returned sid s es i cur →
    Returned sid s es j cur' → cursorGt cur' cur = true

/-! ## When the calls are in order -/

/-- The epoch in a cursor file; `0` when there is none. -/
def epochIn (j : Option Json) : ℤ := ((j.bind (·.get? "epoch_ms")).bind Json.int?).getD 0

/-- Call `j` holds a lock and still has to replace the cursor file. -/
def Updating (p : Pool Op Ans Disk PyErr String) (j : ℕ) : Prop :=
  (∃ n, (n, j) ∈ p.shared.inoLocks) ∧
    ¬ (p.procs j).Only (· ≠ .replace (cursorTmp sid) (cursorFile sid) none)

/-- The condition on one step: a call that gets its lock finds no other call
between its lock and its replacement, a call that writes has a clock reading
that is not behind the cursor file, and the cursor file can be read. -/
def Orderly (p : Pool Op Ans Disk PyErr String) : Event Choice → Prop
  | .tick i c => ∀ o, (p.procs i).head? = some o →
    match o with
    | .flock _ => ∀ j, j ≠ i → ¬ Updating sid p j
    | .write _ (.json j) => epochIn (cursorRead sid p.shared) ≤ epochIn (some j)
    | .read _ => c.fault = false
    | _ => True
  | .crash _ => True

/-! ## The phases of a call -/

/-- How far a call is: what it calls next, or how it has ended. -/
inductive Phase
  | start
  | made
  | timed (ms : ℕ)
  | opened (ms fd : ℕ)
  | locked (ms fd : ℕ)
  | found (ms fd : ℕ)
  | ready (fd : ℕ) (next : ℕ × ℤ)
  | written (fd : ℕ) (next : ℕ × ℤ)
  | replaced (fd : ℕ) (next : ℕ × ℤ)
  | failed (fd : ℕ) (e : PyErr)
  | returned (next : ℕ × ℤ)
  | raised (e : PyErr)
  | dead

namespace Phase

/-- What is left of the call. -/
def left : Phase → Call String
  | start => do mkdir (.session sid); left made
  | made => do let now ← clock; left (timed (now / 1000))
  | timed ms => do
    match ← openFd (cursorFile sid) with
    | .ok fd => left (opened ms fd)
    | .error e => left (raised (.os e))
  | opened ms fd => do flock fd; left (locked ms fd)
  | locked ms fd => do
    if ← fileExists (cursorFile sid) then left (found ms fd)
    else left (ready fd (nextCursor none ms))
  | found ms fd => do
    match ← readBytes (cursorFile sid) with
    | .ok (.json j) =>
      if j.isDict then left (ready fd (nextCursor (some j) ms)) else left (failed fd .attribute)
    | _ => left (ready fd (nextCursor none ms))
  | ready fd next => do
    match ← tryWrite (cursorTmp sid) (.json (stampJson next)) with
    | .ok () => left (written fd next)
    | .error e => left (failed fd (.os e))
  | written fd next => do
    match ← tryReplace (cursorTmp sid) (cursorFile sid) with
    | .ok () => left (replaced fd next)
    | .error e => left (failed fd (.os e))
  | replaced fd next => do funlock fd; left (returned next)
  | failed fd e => do funlock fd; left (raised e)
  | returned next => .ret (cursorText next)
  | raised e => .raise e
  | dead => .hang
termination_by x => 12 - x.ctorIdx
decreasing_by all_goals simp [Phase.ctorIdx]

/-- The call is between its lock and its replacement. -/
def updating : Phase → Bool
  | locked _ _ | found _ _ | ready _ _ | written _ _ => true
  | _ => false

/-- The inode whose lock the call holds. -/
def holds : Phase → Option ℕ
  | locked _ fd | found _ fd | ready fd _ | written fd _ | replaced fd _ | failed fd _ => some fd
  | _ => none

/-- The cursor with which the call has replaced the file. -/
def cursor? : Phase → Option (ℕ × ℤ)
  | replaced _ next | returned next => some next
  | _ => none

variable {sid}

theorem updating_left {x : Phase} (hx : x.updating = true) :
    ¬ (x.left sid).Only (· ≠ .replace (cursorTmp sid) (cursorFile sid) none) := by
  have hwritten (fd next) :
      ¬ (left sid (written fd next)).Only (· ≠ .replace (cursorTmp sid) (cursorFile sid) none) := by
    rw [left]
    exact fun h => h.1 rfl
  have hready (fd next) :
      ¬ (left sid (ready fd next)).Only (· ≠ .replace (cursorTmp sid) (cursorFile sid) none) := by
    rw [left]
    exact fun h => hwritten fd next (h.2 (.ok ()))
  cases x with
  | written fd next => exact hwritten fd next
  | ready fd next => exact hready fd next
  | found ms fd =>
    rw [left]
    exact fun h => hready fd _ (h.2 (.ok .junk))
  | locked ms fd =>
    rw [left]
    exact fun h => hready fd _ (h.2 false)
  | _ => cases hx

end Phase

theorem advanceCursor_eq (h : agentIdOk sid = true) : advanceCursor sid = Phase.start.left sid := by
  have hreplace (fd : ℕ) (next : ℕ × ℤ) :
      (Prog.ensure (do replace (cursorTmp sid) (cursorFile sid); return next) (funlock fd) >>=
        fun n => .ret (cursorText n)) = Phase.left sid (.written fd next) := by
    simp only [Phase.left]
    refine congrArg (Prog.call _) (funext fun r => ?_)
    cases r <;> rfl
  have hwrite (fd : ℕ) (next : ℕ × ℤ) :
      (Prog.ensure (do
        write (cursorTmp sid) (.json (stampJson next))
        replace (cursorTmp sid) (cursorFile sid)
        return next) (funlock fd) >>= fun n => .ret (cursorText n)) =
      Phase.left sid (.ready fd next) := by
    rw [Phase.left]
    refine congrArg (Prog.call _) (funext fun r => ?_)
    cases r with
    | error e => simp only [Phase.left]; rfl
    | ok u => exact hreplace fd next
  simp only [advanceCursor, validateAgentId, h, require]
  rw [Phase.left]
  refine congrArg (Prog.call _) (funext fun _ => ?_)
  show _ = Phase.left sid .made
  rw [Phase.left]
  refine congrArg (Prog.call _) (funext fun now => ?_)
  show _ = Phase.left sid (.timed (now / 1000))
  rw [Phase.left]
  refine congrArg (Prog.call _) (funext fun r => ?_)
  cases r with
  | error e => simp only [Phase.left]; rfl
  | ok fd =>
    show _ = Phase.left sid (.opened (now / 1000) fd)
    rw [Phase.left]
    refine congrArg (Prog.call _) (funext fun _ => ?_)
    show _ = Phase.left sid (.locked (now / 1000) fd)
    rw [Phase.left]
    refine congrArg (Prog.call _) (funext fun b => ?_)
    cases b with
    | false => exact hwrite fd _
    | true =>
      show _ = Phase.left sid (.found (now / 1000) fd)
      rw [Phase.left]
      refine congrArg (Prog.call _) (funext fun r => ?_)
      rcases r with e | d
      · exact hwrite fd _
      cases d with
      | junk => exact hwrite fd _
      | json j =>
        cases j with
        | obj fields => exact hwrite fd _
        | _ => simp only [Phase.left]; rfl

variable {sid}

theorem cursorTmp_ne_cursorFile : cursorTmp sid ≠ cursorFile sid := by
  simp [cursorTmp, cursorFile, STREAM_CURSOR_FILE]

variable {s s' : Disk} {i : ℕ} {c : Choice} {x y : Phase} {p : Pool Op Ans Disk PyErr String}
  {ph : ℕ → Phase} {log : List (ℕ × ℕ × ℤ)}

theorem cursorRead_congr (h : s'.files.get? (cursorFile sid) = s.files.get? (cursorFile sid)) :
    cursorRead sid s' = cursorRead sid s := by rw [cursorRead, cursorRead, h]

theorem cursorRead_file {f : MFile} {j : Json} (h : s.files.get? (cursorFile sid) = some f)
    (hf : f.data = .json j) : cursorRead sid s = some j := by
  obtain ⟨d, t, n⟩ := f
  cases hf
  rw [cursorRead, h]

/-- What one step of call `i` can do: the phases before and after, the disk after,
and the call if it replaced the file. -/
inductive Moves (sid : String) (i : ℕ) (s : Disk) : Phase → Phase → Disk → Option ℕ → Prop
  | quiet {x y : Phase} {s' : Disk} (read : cursorRead sid s' = cursorRead sid s)
      (tmp : s'.files.get? (cursorTmp sid) = s.files.get? (cursorTmp sid))
      (locks : s'.inoLocks = s.inoLocks) (before : x.cursor? = none) (after : y.cursor? = none)
      (updating : y.updating = true → x.updating = true)
      (holds : ∀ n, y.holds = some n → x.holds = some n)
      (ready : ∀ fd next, y = .ready fd next → next = nextCursor (cursorRead sid s) next.1)
      (written : ∀ fd next, y ≠ .written fd next) : Moves sid i s x y s' none
  | lock {ms fd : ℕ} : Moves sid i s (.opened ms fd) (.locked ms fd)
      { s with inoLocks := (fd, i) :: s.inoLocks } none
  | write {fd : ℕ} {next : ℕ × ℤ} {s' : Disk} {f : MFile}
      (read : cursorRead sid s' = cursorRead sid s) (locks : s'.inoLocks = s.inoLocks)
      (tmp : s'.files.get? (cursorTmp sid) = some f) (data : f.data = .json (stampJson next)) :
      Moves sid i s (.ready fd next) (.written fd next) s' none
  | replace {fd : ℕ} {next : ℕ × ℤ} {s' : Disk} (locks : s'.inoLocks = s.inoLocks)
      (file : s'.files.get? (cursorFile sid) = s.files.get? (cursorTmp sid)) :
      Moves sid i s (.written fd next) (.replaced fd next) s' (some i)
  | unlock {x y : Phase} {fd : ℕ} (before : x.updating = false) (after : y.updating = false)
      (holds : y.holds = none) (cursor : y.cursor? = x.cursor?) :
      Moves sid i s x y { s with inoLocks := s.inoLocks.filter (· ≠ (fd, i)) } none

theorem perform_quiet (sid : String) {o : Op} {a : Ans o} (h : s.perform i o c = some (a, s'))
    (ho : o.targets = []) (hl : o.flocking = false) : cursorRead sid s' = cursorRead sid s ∧
    s'.files.get? (cursorTmp sid) = s.files.get? (cursorTmp sid) ∧ s'.inoLocks = s.inoLocks := by
  have hframe (p : MPath) : s'.files.get? p = s.files.get? p := Disk.perform_get? h (by simp [ho])
  exact ⟨cursorRead_congr (hframe _), hframe _, Disk.perform_inoLocks h hl⟩

/-- Opening creates the cursor file at most as an empty one, which reads like
none. -/
theorem perform_openFd_quiet {a : Except OsErr ℕ}
    (h : s.perform i (.openFd (cursorFile sid)) c = some (a, s')) :
    cursorRead sid s' = cursorRead sid s ∧
    s'.files.get? (cursorTmp sid) = s.files.get? (cursorTmp sid) ∧ s'.inoLocks = s.inoLocks := by
  have htmp := Disk.perform_get? h (p := cursorTmp sid)
    (by simpa [Op.targets] using cursorTmp_ne_cursorFile)
  refine ⟨?_, htmp, Disk.perform_inoLocks h rfl⟩
  cases hf : s.files.get? (cursorFile sid) with
  | some f =>
    simp only [Disk.perform, hf] at h
    cases h
    rfl
  | none =>
    simp only [Disk.perform, hf] at h
    split_ifs at h <;> cases h
    · obtain ⟨n, hn⟩ := Files.get?_write_self s.files (cursorFile sid) .junk c.time
      simp only [cursorRead, Disk.write, hn, hf]
    · rfl

theorem left_moves {o : Op} {k : Ans o → Call String} {a : Ans o} (hx : x.left sid = .call o k)
    (hw : s.perform i o c = some (a, s')) (hread : ∀ p, o = .read p → c.fault = false) :
    ∃ y, k a = y.left sid ∧ Moves sid i s x y s' (replacer? sid (i, ⟨o, a⟩)) := by
  cases x with
  | start =>
    rw [Phase.left] at hx
    cases hx
    obtain ⟨hr, ht, hl⟩ := perform_quiet sid hw rfl rfl
    exact ⟨.made, rfl, .quiet hr ht hl rfl rfl (by simp [Phase.updating])
      (by simp [Phase.holds]) (by simp) (by simp)⟩
  | made =>
    rw [Phase.left] at hx
    cases hx
    obtain ⟨hr, ht, hl⟩ := perform_quiet sid hw rfl rfl
    exact ⟨.timed _, rfl, .quiet hr ht hl rfl rfl (by simp [Phase.updating])
      (by simp [Phase.holds]) (by simp) (by simp)⟩
  | timed ms =>
    rw [Phase.left] at hx
    cases hx
    obtain ⟨hr, ht, hl⟩ := perform_openFd_quiet hw
    cases a with
    | ok fd =>
      exact ⟨.opened ms fd, rfl, .quiet hr ht hl rfl rfl (by simp [Phase.updating])
        (by simp [Phase.holds]) (by simp) (by simp)⟩
    | error e =>
      exact ⟨.raised (.os e), rfl, .quiet hr ht hl rfl rfl (by simp [Phase.updating])
        (by simp [Phase.holds]) (by simp) (by simp)⟩
  | opened ms fd =>
    rw [Phase.left] at hx
    cases hx
    simp only [Disk.perform] at hw
    split_ifs at hw
    cases hw
    exact ⟨.locked ms fd, rfl, .lock⟩
  | locked ms fd =>
    rw [Phase.left] at hx
    cases hx
    obtain ⟨hr, ht, hl⟩ := perform_quiet sid hw rfl rfl
    cases hw
    cases hf : s.files.get? (cursorFile sid) with
    | some f =>
      exact ⟨.found ms fd, rfl, .quiet hr ht hl rfl rfl (by simp [Phase.updating])
        (by simp [Phase.holds]) (by simp) (by simp)⟩
    | none =>
      have hnone : cursorRead sid s = none := by rw [cursorRead, hf]
      refine ⟨.ready fd (nextCursor none ms), rfl, .quiet hr ht hl rfl rfl (by simp [Phase.updating])
        (by simp [Phase.holds]) ?_ (by simp)⟩
      rintro fd' next ⟨⟩
      rw [hnone]
      rfl
  | found ms fd =>
    rw [Phase.left] at hx
    cases hx
    obtain ⟨hr, ht, hl⟩ := perform_quiet sid hw rfl rfl
    have hnone (h : cursorRead sid s = none) : Moves sid i s (.found ms fd)
        (.ready fd (nextCursor none ms)) s' none := by
      refine .quiet hr ht hl rfl rfl (by simp [Phase.updating]) (by simp [Phase.holds]) ?_ (by simp)
      rintro fd' next ⟨⟩
      rw [h]
      rfl
    obtain ⟨-, ⟨hfault, -⟩ | ⟨hf, rfl⟩ | ⟨⟨d, t, n⟩, hf, rfl⟩⟩ := Disk.perform_read hw
    · rw [hread _ rfl] at hfault
      cases hfault
    · exact ⟨_, rfl, hnone (by rw [cursorRead, hf])⟩
    · cases d with
      | junk => exact ⟨_, rfl, hnone (by rw [cursorRead, hf])⟩
      | json j =>
        have hsome : cursorRead sid s = some j := by rw [cursorRead, hf]
        cases hj : j.isDict with
        | true =>
          refine ⟨.ready fd (nextCursor (some j) ms), if_pos hj, .quiet hr ht hl rfl rfl
            (by simp [Phase.updating]) (by simp [Phase.holds]) ?_ (by simp)⟩
          rintro fd' next ⟨⟩
          rw [hsome]
          rfl
        | false =>
          exact ⟨.failed fd .attribute, if_neg (by simp [hj]), .quiet hr ht hl rfl rfl
            (by simp [Phase.updating]) (by simp [Phase.holds]) (by simp) (by simp)⟩
  | ready fd next =>
    rw [Phase.left] at hx
    cases hx
    have hl := Disk.perform_inoLocks hw rfl
    rcases Disk.perform_write hw with ⟨e, rfl, rfl⟩ | ⟨rfl, f, hdata, hf⟩
    · exact ⟨.failed fd (.os e), rfl, .quiet rfl rfl rfl rfl rfl (by simp [Phase.updating])
        (by simp [Phase.holds]) (by simp) (by simp)⟩
    · refine ⟨.written fd next, rfl, .write (cursorRead_congr ?_) hl (f := f) ?_ hdata⟩
      · rw [hf, if_neg (Ne.symm cursorTmp_ne_cursorFile)]
      · rw [hf, if_pos rfl]
  | written fd next =>
    rw [Phase.left] at hx
    cases hx
    have hl := Disk.perform_inoLocks hw rfl
    rcases Disk.perform_replace hw with ⟨e, rfl, rfl⟩ | ⟨rfl, ⟨f, hf⟩, rfl⟩
    · exact ⟨.failed fd (.os e), rfl, .quiet rfl rfl rfl rfl rfl (by simp [Phase.updating])
        (by simp [Phase.holds]) (by simp) (by simp)⟩
    · refine ⟨.replaced fd next, rfl, ?_⟩
      have hr : replacer? sid (i, ⟨.replace (cursorTmp sid) (cursorFile sid) none, .ok ()⟩) = some i :=
        if_pos ⟨rfl, rfl⟩
      rw [hr]
      refine .replace hl ?_
      rw [hf, Files.get?_move hf, if_pos rfl]
  | replaced fd next =>
    rw [Phase.left] at hx
    cases hx
    cases hw
    exact ⟨.returned next, rfl, .unlock rfl rfl rfl rfl⟩
  | failed fd e =>
    rw [Phase.left] at hx
    cases hx
    cases hw
    exact ⟨.raised e, rfl, .unlock rfl rfl rfl rfl⟩
  | returned next => rw [Phase.left] at hx; cases hx
  | raised e => rw [Phase.left] at hx; cases hx
  | dead => rw [Phase.left] at hx; cases hx

/-! ## The invariant -/

/-- What a call that is about to write or to replace knows of the disk. -/
def Phase.Right (sid : String) (s : Disk) : Phase → Prop
  | .ready _ next => next = nextCursor (cursorRead sid s) next.1
  | .written _ next => next = nextCursor (cursorRead sid s) next.1 ∧
    epochIn (cursorRead sid s) ≤ next.1 ∧
    ∃ f, s.files.get? (cursorTmp sid) = some f ∧ f.data = .json (stampJson next)
  | _ => True

theorem Phase.right_of_not_updating (h : x.updating = false) : x.Right sid s := by
  cases x <;> trivial

theorem Phase.Right.congr (h : x.Right sid s) (hread : cursorRead sid s' = cursorRead sid s)
    (htmp : s'.files.get? (cursorTmp sid) = s.files.get? (cursorTmp sid)) : x.Right sid s' := by
  cases x <;> simp only [Phase.Right, hread, htmp] at h ⊢ <;> exact h

/-- The calls are in the phases `ph`, at most one of them updating. -/
structure PhaseInv (sid : String) (p : Pool Op Ans Disk PyErr String) (ph : ℕ → Phase) : Prop where
  procs : ∀ i, p.procs i = (ph i).left sid
  locks : ∀ i n, (ph i).holds = some n → (n, i) ∈ p.shared.inoLocks
  alone : ∀ i j, (ph i).updating = true → (ph j).updating = true → i = j
  right : ∀ i, (ph i).Right sid p.shared

/-- `log` is what the calls have written to the cursor file, in order. -/
structure CursorInv (sid : String) (p : Pool Op Ans Disk PyErr String) (ph : ℕ → Phase)
    (log : List (ℕ × ℕ × ℤ)) : Prop extends PhaseInv sid p ph where
  file : cursorRead sid p.shared = none ∨
    ∃ x, 0 ≤ x.2 ∧ cursorRead sid p.shared = some (stampJson x)
  order : log.Pairwise fun e e' => StampLt e.2 e'.2
  seqs : ∀ e ∈ log, 0 ≤ e.2.2
  last : ∀ e ∈ log, ∃ x, cursorRead sid p.shared = some (stampJson x) ∧ (e.2 = x ∨ StampLt e.2 x)
  logged : ∀ i x, (ph i).cursor? = some x → (i, x) ∈ log
  once : ∀ e ∈ log, (ph e.1).cursor? = some e.2 ∨ ph e.1 = .dead

theorem stampLt_nextCursor {x : ℕ × ℤ} {ms : ℕ} (h : epochIn (some (stampJson x)) ≤ ms) :
    StampLt x (nextCursor (some (stampJson x)) ms) := by
  have he : epochIn (some (stampJson x)) = x.1 := rfl
  rw [he] at h
  show x.1 < ms ∨ x.1 = ms ∧ x.2 < if (ms : ℤ) = x.1 then x.2 + 1 else 0
  split_ifs with hms <;> omega

theorem nextCursor_nonneg {j : Option Json} {ms : ℕ}
    (h : j = none ∨ ∃ x : ℕ × ℤ, 0 ≤ x.2 ∧ j = some (stampJson x)) : 0 ≤ (nextCursor j ms).2 := by
  rcases h with rfl | ⟨x, hx, rfl⟩
  · show 0 ≤ if (ms : ℤ) = 0 then (0 : ℤ) + 1 else 0
    split_ifs <;> omega
  · show 0 ≤ if (ms : ℤ) = x.1 then x.2 + 1 else 0
    split_ifs <;> omega

theorem PhaseInv.updating (h : PhaseInv sid p ph) {j : ℕ}
    (hj : (ph j).updating = true) : Updating sid p j := by
  have hholds : ∃ n, (ph j).holds = some n := by
    cases hx : ph j <;> rw [hx] at hj <;> first | exact ⟨_, rfl⟩ | cases hj
  obtain ⟨n, hn⟩ := hholds
  refine ⟨⟨n, h.locks j n hn⟩, ?_⟩
  rw [h.procs j]
  exact Phase.updating_left hj

/-- Call `i` goes on to the phase `y`. -/
theorem PhaseInv.update (h : PhaseInv sid p ph) {t : Disk}
    (hlocks : ∀ j n, j ≠ i → (n, j) ∈ p.shared.inoLocks → (n, j) ∈ t.inoLocks)
    (hown : ∀ n, y.holds = some n → (n, i) ∈ t.inoLocks)
    (halone : y.updating = true → ∀ j, j ≠ i → (ph j).updating = false)
    (hright : ∀ j, j ≠ i → (ph j).Right sid t) (hy : y.Right sid t) :
    PhaseInv sid ⟨t, Function.update p.procs i (y.left sid)⟩ (Function.update ph i y) where
  procs j := by
    by_cases hj : j = i
    · subst hj; simp
    · simpa [Function.update_of_ne hj] using h.procs j
  locks j n hn := by
    by_cases hj : j = i
    · subst hj; exact hown n (by simpa using hn)
    · rw [Function.update_of_ne hj] at hn
      exact hlocks j n hj (h.locks j n hn)
  alone j k hj hk := by
    by_cases hji : j = i
    · subst hji
      by_contra hkj
      rw [Function.update_self] at hj
      rw [Function.update_of_ne (Ne.symm hkj), halone hj k (Ne.symm hkj)] at hk
      cases hk
    · rw [Function.update_of_ne hji] at hj
      by_cases hki : k = i
      · subst hki
        rw [Function.update_self] at hk
        rw [halone hk j hji] at hj
        cases hj
      · rw [Function.update_of_ne hki] at hk
        exact h.alone j k hj hk
  right j := by
    by_cases hj : j = i
    · subst hj; simpa using hy
    · simpa [Function.update_of_ne hj] using hright j hj

theorem CursorInv.keep (h : CursorInv sid p ph log)
    (hphase : PhaseInv sid ⟨s', Function.update p.procs i (y.left sid)⟩ (Function.update ph i y))
    (hread : cursorRead sid s' = cursorRead sid p.shared)
    (hcursor : y = .dead ∨ ph i ≠ .dead ∧ y.cursor? = (ph i).cursor?) :
    CursorInv sid ⟨s', Function.update p.procs i (y.left sid)⟩ (Function.update ph i y) log where
  toPhaseInv := hphase
  file := by rw [hread]; exact h.file
  order := h.order
  seqs := h.seqs
  last := by rw [hread]; exact h.last
  logged j x hx := by
    by_cases hj : j = i
    · subst hj
      rw [Function.update_self] at hx
      rcases hcursor with rfl | ⟨-, hcur⟩
      · cases hx
      · exact h.logged j x (hcur ▸ hx)
    · rw [Function.update_of_ne hj] at hx
      exact h.logged j x hx
  once e he := by
    by_cases hj : e.1 = i
    · rw [hj, Function.update_self]
      rcases hcursor with rfl | ⟨hdead, hcur⟩
      · exact .inr rfl
      · rcases h.once e he with hc | hd
        · exact .inl (by rw [hcur, ← hj]; exact hc)
        · exact absurd (hj ▸ hd) hdead
    · rw [Function.update_of_ne hj]
      exact h.once e he

/-- The cursor that call `i` writes is later than all before it. -/
theorem CursorInv.extend {p : Pool Op Ans Disk PyErr String} {ph : ℕ → Phase}
    {log : List (ℕ × ℕ × ℤ)} (h : CursorInv sid p ph log) {i fd : ℕ} {next : ℕ × ℤ} {s' : Disk}
    (hi : ph i = .written fd next)
    (hphase : PhaseInv sid ⟨s', Function.update p.procs i (Phase.left sid (.replaced fd next))⟩
      (Function.update ph i (.replaced fd next)))
    (hfile : s'.files.get? (cursorFile sid) = p.shared.files.get? (cursorTmp sid)) :
    CursorInv sid ⟨s', Function.update p.procs i (Phase.left sid (.replaced fd next))⟩
      (Function.update ph i (.replaced fd next)) (log ++ [(i, next)]) := by
  have hmine := h.right i
  rw [hi] at hmine
  obtain ⟨hnext, hepoch, f, htmp, hdata⟩ := hmine
  have hread : cursorRead sid s' = some (stampJson next) :=
    cursorRead_file (hfile.trans htmp) hdata
  have hseq : 0 ≤ next.2 := by
    rw [hnext]
    exact nextCursor_nonneg h.file
  have hlater (e : ℕ × ℕ × ℤ) (he : e ∈ log) : StampLt e.2 next := by
    obtain ⟨x, hx, hle⟩ := h.last e he
    rw [hx] at hnext hepoch
    have hlt : StampLt x next := by
      rw [hnext]
      exact stampLt_nextCursor hepoch
    rcases hle with rfl | hle
    · exact hlt
    · exact hle.trans hlt
  refine ⟨hphase, ?_, ?_, ?_, ?_, ?_, ?_⟩
  · exact .inr ⟨next, hseq, hread⟩
  · refine List.pairwise_append.mpr ⟨h.order, List.pairwise_singleton _ _, fun e he e' he' => ?_⟩
    rw [List.mem_singleton.mp he']
    exact hlater e he
  · intro e he
    rcases List.mem_append.mp he with he | he
    · exact h.seqs e he
    · rw [List.mem_singleton.mp he]
      exact hseq
  · intro e he
    refine ⟨next, hread, ?_⟩
    rcases List.mem_append.mp he with he | he
    · exact .inr (hlater e he)
    · exact .inl (by rw [List.mem_singleton.mp he])
  · intro j x hx
    by_cases hj : j = i
    · subst hj
      rw [Function.update_self] at hx
      cases hx
      exact List.mem_append_right _ (List.mem_singleton_self _)
    · rw [Function.update_of_ne hj] at hx
      exact List.mem_append_left _ (h.logged j x hx)
  · intro e he
    by_cases hj : e.1 = i
    · rcases List.mem_append.mp he with he | he
      · -- a call that is about to replace the file is not in the log yet
        rcases h.once e he with hc | hd
        · rw [hj, hi] at hc; cases hc
        · rw [hj, hi] at hd; cases hd
      · rw [List.mem_singleton.mp he]
        exact .inl (by simp [Phase.cursor?])
    · rw [Function.update_of_ne hj]
      rcases List.mem_append.mp he with he | he
      · exact h.once e he
      · exact absurd (by rw [List.mem_singleton.mp he]) hj

/-- One step of call `i` from the phase `ph i` to `y`. -/
theorem CursorInv.moves (h : CursorInv sid p ph log) {r : Option ℕ}
    (hm : Moves sid i p.shared (ph i) y s' r) (hlive : ph i ≠ .dead)
    (hord : Orderly sid p (.tick i c)) : ∃ more : List (ℕ × ℕ × ℤ), more.map (·.1) = r.toList ∧
      CursorInv sid ⟨s', Function.update p.procs i (y.left sid)⟩ (Function.update ph i y)
        (log ++ more) := by
  have hothers (hi : (ph i).updating = true) (j : ℕ) (hj : j ≠ i) : (ph j).updating = false := by
    by_contra hup
    exact hj (h.alone j i (by simpa using hup) hi)
  have hproc := h.procs i
  have hmine := h.right i
  generalize hx : ph i = x at hm
  cases hm with
  | quiet read tmp locks before after updating holds ready written =>
    refine ⟨[], rfl, ?_⟩
    rw [List.append_nil]
    refine h.keep (h.toPhaseInv.update (fun j n _ hn => locks ▸ hn) (fun n hn => ?_)
      (fun hup => ?_) (fun j _ => (h.right j).congr read tmp) ?_) read
      (.inr ⟨hlive, by rw [hx, before, after]⟩)
    · rw [locks]
      exact h.locks i n (by rw [hx]; exact holds n hn)
    · exact hothers (by rw [hx]; exact updating hup)
    · cases y with
      | ready fd next =>
        show next = nextCursor (cursorRead sid s') next.1
        rw [read]
        exact ready fd next rfl
      | written fd next => exact absurd rfl (written fd next)
      | _ => trivial
  | lock =>
    rename_i ms fd
    -- the condition: nobody else is between its lock and its replacement
    have halone (j : ℕ) (hj : j ≠ i) : (ph j).updating = false := by
      by_contra hup
      have hno := hord (.flock fd) (by rw [hproc, hx, Phase.left]; rfl) j hj
      exact hno (h.updating (by simpa using hup))
    refine ⟨[], rfl, ?_⟩
    rw [List.append_nil]
    refine h.keep (h.toPhaseInv.update (fun j n _ hn => List.mem_cons_of_mem _ hn) (fun n hn => ?_)
      (fun _ => halone) (fun j _ => (h.right j).congr rfl rfl) trivial) rfl
      (.inr ⟨hlive, by rw [hx]; rfl⟩)
    cases hn
    exact List.mem_cons_self
  | write read locks tmp data =>
    rename_i fd next f
    -- the condition: the clock reading is not behind the file
    have hepoch := hord (.write (cursorTmp sid) (.json (stampJson next)))
      (by rw [hproc, hx, Phase.left]; rfl)
    rw [hx] at hmine
    have hright : Phase.Right sid s' (.written fd next) := by
      refine ⟨?_, ?_, f, tmp, data⟩
      · rw [read]; exact hmine
      · rw [read]; exact hepoch
    refine ⟨[], rfl, ?_⟩
    rw [List.append_nil]
    refine h.keep (h.toPhaseInv.update (fun j n _ hn => locks ▸ hn) (fun n hn => ?_)
      (fun _ => hothers (by rw [hx]; rfl)) (fun j hj => ?_) hright) read
      (.inr ⟨hlive, by rw [hx]; rfl⟩)
    · rw [locks]
      exact h.locks i n (by rw [hx]; exact hn)
    · exact Phase.right_of_not_updating (hothers (by rw [hx]; rfl) j hj)
  | replace locks file =>
    rename_i fd next
    refine ⟨[(i, next)], rfl, ?_⟩
    refine h.extend hx (h.toPhaseInv.update (fun j n _ hn => locks ▸ hn) (fun n hn => ?_)
      (fun hup => by cases hup) (fun j hj => ?_) trivial) file
    · rw [locks]
      exact h.locks i n (by rw [hx]; exact hn)
    · exact Phase.right_of_not_updating (hothers (by rw [hx]; rfl) j hj)
  | unlock before after holds cursor =>
    rename_i fd
    refine ⟨[], rfl, ?_⟩
    rw [List.append_nil]
    refine h.keep (h.toPhaseInv.update (fun j n hj hn => ?_) (fun n hn => ?_) (fun hup => ?_)
      (fun j _ => (h.right j).congr rfl rfl) (Phase.right_of_not_updating after)) rfl
      (.inr ⟨hlive, by rw [hx]; exact cursor⟩)
    · exact List.mem_filter.mpr ⟨hn, by simp [hj]⟩
    · rw [holds] at hn; cases hn
    · rw [after] at hup; cases hup

theorem CursorInv.step (h : CursorInv sid p ph log) {e : Event Choice} (hord : Orderly sid p e) :
    ∃ (ph' : ℕ → Phase) (more : List (ℕ × ℕ × ℤ)), CursorInv sid (Pool.step world p e) ph'
      (log ++ more) ∧ more.map (·.1) = (p.performed world e).filterMap (replacer? sid) := by
  cases e with
  | crash i =>
    refine ⟨Function.update ph i .dead, [], ?_, rfl⟩
    have hleft : Phase.dead.left sid = .hang := by rw [Phase.left]
    rw [List.append_nil, Pool.step, ← hleft]
    refine h.keep (h.toPhaseInv.update (fun j n hj hn => ?_) (fun n hn => by cases hn)
      (fun hup => by cases hup) (fun j _ => (h.right j).congr rfl rfl) trivial) rfl (.inl rfl)
    exact List.mem_filter.mpr ⟨hn, by simpa using hj⟩
  | tick i c =>
    rcases Pool.tick_cases (W := world) p i c with ⟨hstep, hperf⟩ | ⟨o, k, a, s', hp, hw, hstep, hperf⟩
    · rw [hstep, hperf]
      exact ⟨ph, [], by simpa using h, rfl⟩
    · have hleft : (ph i).left sid = .call o k := by rw [← h.procs i, hp]
      have hread (q : MPath) (ho : o = .read q) : c.fault = false := by
        subst ho
        exact hord (.read q) (by rw [hp]; rfl)
      obtain ⟨y, hy, hm⟩ := left_moves hleft hw hread
      have hlive : ph i ≠ .dead := by
        intro hd
        rw [hd, Phase.left] at hleft
        cases hleft
      obtain ⟨more, hmap, hinv⟩ := h.moves hm hlive hord
      refine ⟨Function.update ph i y, more, ?_, ?_⟩
      · rw [hstep, hy]
        exact hinv
      · rw [hperf, hmap, List.filterMap_cons, List.filterMap_nil]
        cases replacer? sid (i, ⟨o, a⟩) <;> rfl

theorem CursorInv.run {es : List (Event Choice)} :
    ∀ {p : Pool Op Ans Disk PyErr String} {ph : ℕ → Phase} {log : List (ℕ × ℕ × ℤ)},
      CursorInv sid p ph log → p.Follows world (Orderly sid) es →
      ∃ (ph' : ℕ → Phase) (more : List (ℕ × ℕ × ℤ)), CursorInv sid (Pool.run world p es) ph'
        (log ++ more) ∧ more.map (·.1) = (p.trace world es).filterMap (replacer? sid) := by
  induction es with
  | nil => intro p ph log h _; exact ⟨ph, [], by simpa using h, rfl⟩
  | cons e es ih =>
    intro p ph log h hes
    obtain ⟨ph₁, more₁, h₁, hmap₁⟩ := h.step hes.1
    obtain ⟨ph₂, more₂, h₂, hmap₂⟩ := ih h₁ hes.2
    refine ⟨ph₂, more₁ ++ more₂, ?_, ?_⟩
    · rw [← List.append_assoc]
      exact h₂
    · rw [List.map_append, hmap₁, hmap₂, ← List.filterMap_append]
      rfl

/-- Every call is in the phase `x`, which holds no lock and has written nothing. -/
theorem Idle.inv_of (h : Idle sid s) (hx : advanceCursor sid = x.left sid)
    (hup : x.updating = false) (hhold : x.holds = none) (hcur : x.cursor? = none) :
    CursorInv sid (callers sid s) (fun _ => x) [] where
  procs _ := hx
  locks i n hn := by rw [hhold] at hn; cases hn
  alone i j hi _ := by rw [hup] at hi; cases hi
  right i := Phase.right_of_not_updating hup
  file := h.file
  order := .nil
  seqs e he := by cases he
  last e he := by cases he
  logged i x hx := by rw [hcur] at hx; cases hx
  once e he := by cases he

theorem Idle.inv (h : Idle sid s) : ∃ ph, CursorInv sid (callers sid s) ph [] := by
  by_cases hid : agentIdOk sid = true
  · exact ⟨_, h.inv_of (advanceCursor_eq sid hid) rfl rfl rfl⟩
  · refine ⟨_, h.inv_of (x := .raised (.value ("invalid agent id: " ++ reprStr sid))) ?_ rfl rfl rfl⟩
    rw [Phase.left, advanceCursor, validateAgentId, require, if_neg hid]
    rfl

theorem CursorInv.returned (h : CursorInv sid p ph log) {cur : String}
    (hi : (p.procs i).returned? = some cur) :
    ∃ x, ph i = .returned x ∧ cur = cursorText x ∧ (i, x) ∈ log := by
  rw [h.procs i] at hi
  cases hx : ph i with
  | returned x =>
    rw [hx, Phase.left] at hi
    cases hi
    exact ⟨x, rfl, rfl, h.logged i x (by rw [hx]; rfl)⟩
  | _ => rw [hx, Phase.left] at hi; cases hi

/-- **Cursors are unique and increasing.**  In every run of any number of calls on
one session, with any clock readings and crashes anywhere, whose steps are
orderly. -/
theorem cursors_increase (sid : String) (s : Disk) (hs : Idle sid s) (es : List (Event Choice))
    (hes : (callers sid s).Follows world (Orderly sid) es) : CursorsIncrease sid s es := by
  obtain ⟨ph₀, h₀⟩ := hs.inv
  obtain ⟨ph, log, h, hmap⟩ := h₀.run hes
  rw [List.nil_append] at h
  -- two entries of one call that has returned are the same
  have hsame (e : ℕ × ℕ × ℤ) (he : e ∈ log) (x : ℕ × ℤ) (hx : ph e.1 = .returned x) : e.2 = x := by
    rcases h.once e he with hc | hd
    · rw [hx] at hc; cases hc; rfl
    · rw [hx] at hd; cases hd
  have hgt (e e' : ℕ × ℕ × ℤ) (he : e ∈ log) (he' : e' ∈ log) (hlt : StampLt e.2 e'.2)
      (cur cur' : String) (hc : Returned sid s es e.1 cur) (hc' : Returned sid s es e'.1 cur') :
      cursorGt cur' cur = true := by
    obtain ⟨x, hx, rfl, -⟩ := h.returned hc
    obtain ⟨x', hx', rfl, -⟩ := h.returned hc'
    rw [← hsame e he x hx, ← hsame e' he' x' hx']
    exact (cursorGt_cursorText (h.seqs e he) (h.seqs e' he')).mpr hlt
  refine ⟨fun i j cur hi hj => ?_, ?_⟩
  · obtain ⟨x, -, rfl, hx⟩ := h.returned hi
    obtain ⟨y, -, hcur, hy⟩ := h.returned hj
    have hxy : x = y := cursorText_inj (h.seqs _ hx) (h.seqs _ hy) hcur
    subst hxy
    have hnodup : (log.map (·.2)).Nodup := by
      refine List.pairwise_map.mpr (h.order.imp ?_)
      intro e e' hlt he
      unfold StampLt at hlt
      rw [he] at hlt
      omega
    exact congrArg Prod.fst (List.inj_on_of_nodup_map hnodup hx hy rfl)
  · rw [replacers, ← hmap]
    refine List.pairwise_map.mpr (h.order.imp_of_mem ?_)
    intro e e' he he' hlt cur cur' hc hc'
    exact hgt e e' he he' hlt cur cur' hc hc'

/-! ## Two runs -/

/-- A condition on one step that looks at the disk alone: nobody holds a lock
when a call gets one. -/
def inTurn (sid : String) (s : Disk) (o : Op) (c : Choice) : Bool :=
  match o with
  | .flock _ => s.inoLocks = []
  | .write _ (.json j) => epochIn (cursorRead sid s) ≤ epochIn (some j)
  | .read _ => !c.fault
  | _ => true

theorem orderly_of_inTurn (p : Pool Op Ans Disk PyErr String) (e : Event Choice)
    (h : p.Meets (fun s _ o c => inTurn sid s o c = true) e) : Orderly sid p e := by
  cases e with
  | crash i => trivial
  | tick i c =>
    intro o ho
    have ho := h o ho
    cases o with
    | flock n =>
      rintro j - ⟨⟨n', hmem⟩, -⟩
      have hnone : p.shared.inoLocks = [] := by simpa [inTurn] using ho
      rw [hnone] at hmem
      cases hmem
    | write q d =>
      cases d with
      | json j => simpa [inTurn] using ho
      | junk => trivial
    | read q => simpa [inTurn] using ho
    | _ => trivial

end Calls

/-- The session `s` of `a` and `b`, before any message. -/
def quietSession : Disk := newSession "s" "a" ["b"] 0

theorem quietSession_idle : Idle "s" quietSession := ⟨rfl, .inl rfl⟩

/-- `n` steps of call `i` at the time `t` in microseconds. -/
def callTicks (i n t : ℕ) : List (Event Choice) := steps i n { time := t }

/-- One call after the other within a millisecond, and a third one later. -/
def oneByOne : List (Event Choice) := callTicks 0 9 7000 ++ callTicks 1 9 7500 ++ callTicks 2 9 9000

theorem cursors_increase_oneByOne :
    Returned "s" quietSession oneByOne 1 "7/000001" ∧
    Returned "s" quietSession oneByOne 2 "9/000000" ∧
    CursorsIncrease "s" quietSession oneByOne := by
  refine ⟨by decide +kernel, by decide +kernel, ?_⟩
  exact cursors_increase "s" quietSession quietSession_idle oneByOne
    (Pool.Admits.follows orderly_of_inTurn (by decide +kernel))

/-- Calls `0` and `1` open the file. When call `0` has replaced it, call `2` opens
the new one, and `1` and `2` wait for different locks. -/
def staleLock : List (Event Choice) :=
  callTicks 0 3 7000 ++ callTicks 1 3 7000 ++ callTicks 0 6 7000 ++ callTicks 2 6 7000 ++ callTicks 1 6 7000 ++
    callTicks 2 3 7000

/-- **Two calls return the same cursor.** -/
theorem stale_lock_repeats_cursor :
    Returned "s" quietSession staleLock 1 "7/000001" ∧
    Returned "s" quietSession staleLock 2 "7/000001" ∧
    ¬ CursorsIncrease "s" quietSession staleLock := by
  have h₁ : Returned "s" quietSession staleLock 1 "7/000001" := by decide +kernel
  have h₂ : Returned "s" quietSession staleLock 2 "7/000001" := by decide +kernel
  exact ⟨h₁, h₂, fun h => absurd (h.distinct 1 2 _ h₁ h₂) (by decide)⟩

end AiMeshChat.Stream.Cursor
