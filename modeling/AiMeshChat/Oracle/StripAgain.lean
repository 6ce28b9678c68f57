import AiMeshChat.Oracle.StripSteps

/-!
# Stripping twice

A strip is to be idempotent, and to keep the conversation. What it deletes and cuts is gone or
short enough the next time, and a transcript that has been filtered keeps all its lines. But the
marks for which the live guard looks are among the lines that are filtered out; so the next run is
refused, unless it is forced, nothing was dropped, or the last line that is kept is such a mark as
well. `strip_again_iff` is the exact condition.
-/

namespace AiMeshChat.Oracle.Transcript

open Lib Lib.Posix

/-! ## An entry of the session directory -/

theorem path_of_globbed {d : List Name} {pattern : List Char} {e : Entry}
    (h : globbed d pattern e = true) : ∃ name, e.path = d ++ [name] := by
  unfold globbed at h
  cases hname : e.path.getLast? with
  | none =>
    rw [hname] at h
    cases h
  | some name =>
    rw [hname, Option.any_some, Bool.and_eq_true, decide_eq_true_eq] at h
    refine ⟨name, ?_⟩
    rw [← h.1]
    exact (List.dropLast_append_getLast? name hname).symm

section

variable {dir d : List Name} {name : Name} {e : Entry} (hpath : e.path = dir ++ [name])
include hpath

theorem eq_of_globbed {pattern : List Char} (h : globbed d pattern e = true) : d = dir := by
  obtain ⟨name', hname'⟩ := path_of_globbed h
  rw [hpath] at hname'
  exact (List.append_inj_left' hname' rfl).symm

theorem original_dir {m : Machine} {sid : List Char} {t : Disk} :
    (∀ d ∈ targets t sid dir, bashOriginal m d e = false) ↔ bashOriginal m dir e = false := by
  constructor
  · intro h
    exact h dir List.mem_cons_self
  · intro h d _
    by_contra hd
    rw [Bool.not_eq_false] at hd
    have heq : d = dir := by
      simp only [bashOriginal, Bool.and_eq_true] at hd
      exact eq_of_globbed hpath hd.1.1
    rw [heq, h] at hd
    cases hd

theorem sidecar_dir {m : Machine} {head : ℤ} {sid : List Char} {t : Disk} :
    (targets t sid dir ×ˢ SIDECARS).any (fun x => sidecar m head x e) =
      SIDECARS.any fun pattern => sidecar m head (dir, pattern) e := by
  rw [Bool.eq_iff_iff, List.any_eq_true, List.any_eq_true]
  constructor
  · rintro ⟨⟨d, pattern⟩, hx, hs⟩
    have heq : d = dir := by
      simp only [sidecar, Bool.and_eq_true] at hs
      exact eq_of_globbed hpath hs.1.1.1
    rw [heq] at hs
    exact ⟨pattern, (List.mem_product.mp hx).2, hs⟩
  · rintro ⟨pattern, hpattern, hs⟩
    exact ⟨(dir, pattern), List.mem_product.mpr ⟨List.mem_cons_self, hpattern⟩, hs⟩

end

variable {t : Disk} {e : Entry} {m : Machine} {b : Bool}

theorem mem_foldl_delete {X : Type} {p : X → Entry → Bool} {xs : List X} :
    e ∈ (xs.foldl (fun t x => t.delete (p x)) t).list ↔
      e ∈ t.list ∧ ∀ x ∈ xs, p x e = false := by
  induction xs generalizing t with
  | nil => simp
  | cons x xs ih =>
    rw [List.foldl_cons, ih, Rows.mem_delete]
    simp [and_assoc]

/-- One log, as it is looked at under one pattern. -/
def cutEntry (m : Machine) (head : ℤ) (e : Entry) (x : List Name × List Char) : Entry :=
  if sidecar m head x e then e.cut head else e

theorem mem_cutSidecars {head : ℤ} {x : List Name × List Char} : e ∈ (cutSidecars m head t x).list ↔
      ∃ e₀ ∈ t.list, cutEntry m head e₀ x = e := Rows.mem_update

theorem mem_foldl_cut {head : ℤ}
    {xs : List (List Name × List Char)} : e ∈ (xs.foldl (cutSidecars m head) t).list ↔
      ∃ e₀ ∈ t.list, xs.foldl (cutEntry m head) e₀ = e := by
  induction xs generalizing t with
  | nil => simp
  | cons x xs ih =>
    rw [List.foldl_cons, ih]
    constructor
    · intro h
      obtain ⟨e₁, he₁, h⟩ := h
      obtain ⟨e₀, he₀, rfl⟩ := mem_cutSidecars.mp he₁
      exact ⟨e₀, he₀, h⟩
    · intro h
      obtain ⟨e₀, he₀, h⟩ := h
      exact ⟨_, mem_cutSidecars.mpr ⟨e₀, he₀, rfl⟩, h⟩

theorem foldl_cutEntry (m : Machine) (head : ℤ) (xs : List (List Name × List Char)) (e : Entry) :
    xs.foldl (cutEntry m head) e =
      if xs.any fun x => sidecar m head x e then e.cut head else e := by
  have hcut : ∀ {x : List Name × List Char}, sidecar m head x e = true →
      ∀ x', cutEntry m head (e.cut head) x' = e.cut head := by
    intro x hx x'
    by_cases hhead : 0 ≤ head
    · have hlong : head < e.size := by
        simp only [sidecar, Bool.and_eq_true, decide_eq_true_eq] at hx
        exact hx.2
      have hsize := Entry.size_cut hhead hlong
      refine if_neg ?_
      simp only [sidecar, Bool.and_eq_true, decide_eq_true_eq, hsize, not_and]
      intro _
      omega
    · rw [Entry.cut_of_neg (by omega), cutEntry, Entry.cut_of_neg (by omega), ite_self]
  induction xs with
  | nil => rfl
  | cons x xs ih =>
    rw [List.foldl_cons, List.any_cons]
    by_cases hx : sidecar m head x e = true
    · rw [cutEntry, if_pos hx, hx, Bool.true_or, if_pos rfl]
      have hrest (ys : List (List Name × List Char)) :
          ys.foldl (cutEntry m head) (e.cut head) = e.cut head := by
        induction ys with
        | nil => rfl
        | cons y ys ih => rw [List.foldl_cons, hcut hx, ih]
      exact hrest xs
    · rw [Bool.not_eq_true] at hx
      rw [cutEntry, hx, Bool.false_or]
      exact ih

/-- What the second and the third step make of an entry of the session directory. -/
def shortened (m : Machine) (a : Args) (dir : List Name) (e : Entry) : Entry :=
  if SIDECARS.any fun pattern => sidecar m a.headBytes (dir, pattern) e then e.cut a.headBytes
  else e

theorem path_shortened (m : Machine) (a : Args) (dir : List Name) (e : Entry) :
    (shortened m a dir e).path = e.path := by
  unfold shortened
  split <;> rfl

theorem stripLogs_get? (m : Machine) (a : Args) (dir : List Name) (t : Disk) (name : Name) :
    (stripLogs m a dir t).get? (dir ++ [name]) =
      ((t.get? (dir ++ [name])).filter fun e => !bashOriginal m dir e).map (shortened m a dir) := by
  ext e
  rw [Rows.get?_eq_some, stripLogs, truncateSidecarLogs, sweep_disk, mem_foldl_cut,
    Option.map_eq_some_iff]
  simp only [Option.filter_eq_some_iff, Rows.get?_eq_some, Bool.not_eq_true', deleteBashOriginal,
    sweep_disk, mem_foldl_delete]
  constructor
  · rintro ⟨⟨e₀, ⟨he₀, horiginal⟩, rfl⟩, hpath⟩
    rw [foldl_cutEntry] at hpath ⊢
    have hpath₀ : e₀.path = dir ++ [name] := by
      rw [← hpath]
      split <;> rfl
    rw [sidecar_dir hpath₀]
    exact ⟨e₀, ⟨⟨he₀, hpath₀⟩, (original_dir hpath₀).mp horiginal⟩, rfl⟩
  · rintro ⟨e₀, ⟨⟨he₀, hpath₀⟩, horiginal⟩, rfl⟩
    refine ⟨⟨e₀, ⟨he₀, (original_dir hpath₀).mpr horiginal⟩, ?_⟩, ?_⟩
    · rw [foldl_cutEntry, sidecar_dir hpath₀]
      rfl
    · rw [path_shortened, hpath₀]

theorem eq_of_advisor {u : Disk} {sid : List Char} {dir d : List Name} {name : Name}
    (hd : d ∈ targets u sid dir) {top : Entry} (htop : advisor m d top = true)
    (hpre : top.path <+: dir ++ [name]) : d = dir ∧ top.path = dir ++ [name] := by
  have hglob : globbed d "__advisor*".toList top = true := by
    rw [advisor, Bool.and_eq_true] at htop
    exact htop.1
  obtain ⟨top', htop'⟩ := path_of_globbed hglob
  have hlen := hpre.length_le
  rw [htop'] at hlen
  simp only [List.length_append, List.length_singleton] at hlen
  obtain rfl | hd := List.mem_cons.mp hd
  · refine ⟨rfl, hpre.eq_of_length ?_⟩
    rw [htop']
    simp
  · -- the other directories lie in the session directory
    obtain ⟨e, he, rfl⟩ := List.mem_map.mp hd
    obtain ⟨name', hname'⟩ := path_of_globbed (Rows.mem_select.mp (List.mem_filter.mp he).1).2
    rw [hname'] at hlen
    simp only [List.length_append, List.length_singleton] at hlen
    omega

theorem mem_foldl_advisors {u : Disk} {sid : List Char} {dir : List Name} {ds : List (List Name)}
    (hds : ∀ d ∈ ds, d ∈ targets u sid dir) {name : Name} (hpath : e.path = dir ++ [name]) :
    e ∈ (ds.foldl (removeAdvisors m) t).list ↔
      e ∈ t.list ∧ (dir ∈ ds → advisor m dir e = false) := by
  induction ds generalizing t with
  | nil => simp
  | cons d ds ih =>
    rw [List.foldl_cons, ih fun d' hd' => hds d' (List.mem_cons_of_mem _ hd'), removeAdvisors,
      Rows.mem_delete, List.any_eq_false]
    have hstep (he : e ∈ t.list) : (∀ top ∈ t.select (advisor m d),
        ¬ top.path.isPrefixOf e.path = true) ↔ (d = dir → advisor m dir e = false) := by
      constructor
      · intro h hdir
        by_contra hadvisor
        rw [Bool.not_eq_false] at hadvisor
        rw [← hdir] at hadvisor
        exact h e (Rows.mem_select.mpr ⟨he, hadvisor⟩)
          (List.isPrefixOf_iff_prefix.mpr List.prefix_rfl)
      · intro h top htop hpre
        obtain ⟨hmem, hadvisor⟩ := Rows.mem_select.mp htop
        rw [List.isPrefixOf_iff_prefix, hpath] at hpre
        obtain ⟨hdir, heq⟩ := eq_of_advisor (hds d List.mem_cons_self) hadvisor hpre
        rw [Rows.eq_of_key hmem he (heq.trans hpath.symm), hdir, h hdir] at hadvisor
        cases hadvisor
    constructor
    · intro h
      obtain ⟨⟨he, htop⟩, hrest⟩ := h
      refine ⟨he, fun hdir => ?_⟩
      obtain heq | hdir := List.mem_cons.mp hdir
      · exact (hstep he).mp htop heq.symm
      · exact hrest hdir
    · intro h
      obtain ⟨he, hall⟩ := h
      refine ⟨⟨he, (hstep he).mpr fun hdir => hall ?_⟩, fun hdir => hall ?_⟩
      · rw [hdir]
        exact List.mem_cons_self
      · exact List.mem_cons_of_mem _ hdir

theorem deleteAdvisorFiles_get? (m : Machine) (sid : List Char) (dir : List Name) (t : Disk)
    (name : Name) : (deleteAdvisorFiles m sid dir t).2.get? (dir ++ [name]) =
      (t.get? (dir ++ [name])).filter fun e => !advisor m dir e := by
  ext e
  rw [Rows.get?_eq_some, Option.filter_eq_some_iff, Rows.get?_eq_some, deleteAdvisorFiles,
    sweep_disk, Bool.not_eq_true']
  constructor
  · intro h
    obtain ⟨hmem, hpath⟩ := h
    obtain ⟨hmem, hadvisor⟩ := (mem_foldl_advisors (fun d hd => hd) hpath).mp hmem
    exact ⟨⟨hmem, hpath⟩, hadvisor List.mem_cons_self⟩
  · intro h
    obtain ⟨⟨hmem, hpath⟩, hadvisor⟩ := h
    exact ⟨(mem_foldl_advisors (fun d hd => hd) hpath).mpr ⟨hmem, fun _ => hadvisor⟩, hpath⟩

/-! ## The conversation -/

/-- The value at `key` is one of `names`. -/
def oneOf (obj : Json) (key : String) (names : List String) : Bool :=
  (obj.get? key).any fun v => names.any fun name => v = .str name

/-- A title or session header, a message of the user, the assistant or a tool, or the start of a
tool. -/
def isConversation (obj : Json) : Bool :=
  oneOf obj "type" KEEP_HEADER_TYPES ||
    (oneOf obj "type" ["message"] &&
      (obj.get? "message").any fun message => oneOf message "role" KEEP_ROLES) ||
    (oneOf obj "type" ["custom"] && oneOf obj "customType" ["tool_execution_start"])

def conversationLine (m : Machine) (raw : List Char) : Bool :=
  match loads m.depth raw with
  | .ok obj => isConversation obj
  | .error _ => false

theorem inSet_eq {v : Json} {names : List String} (h : inSet v names = some b) :
    b = names.any fun name => v = .str name := by
  cases v with
  | arr items => cases h
  | obj fields => cases h
  | str s =>
    obtain rfl := Option.some.inj h
    rw [Bool.eq_iff_iff, List.any_eq_true]
    simp
  | null => rw [← Option.some.inj h, eq_comm, List.any_eq_false]; simp
  | bool x => rw [← Option.some.inj h, eq_comm, List.any_eq_false]; simp
  | int k => rw [← Option.some.inj h, eq_comm, List.any_eq_false]; simp
  | float t => rw [← Option.some.inj h, eq_comm, List.any_eq_false]; simp

/-- Looking a value up with the default `""` is looking it up. -/
theorem inSet_getD {obj : Json} {key : String} {names : List String} (hnames : "" ∉ names)
    (h : inSet ((obj.get? key).getD (.str "")) names = some b) : oneOf obj key names = b := by
  rw [inSet_eq h, oneOf]
  cases obj.get? key with
  | none =>
    rw [Option.any_none, Option.getD_none, eq_comm, List.any_eq_false]
    intro name hname heq
    simp only [decide_eq_true_eq, Json.str.injEq] at heq
    exact hnames (heq ▸ hname)
  | some v => rfl

theorem oneOf_single (obj : Json) (key : String) {name : String} (hname : name ≠ "") :
    oneOf obj key [name] = decide ((obj.get? key).getD (.str "") = .str name) := by
  rw [oneOf]
  cases obj.get? key with
  | none => simpa using hname
  | some v => simp

theorem keepsRecord_eq {obj : Json} (h : keepsRecord obj = some b) : isConversation obj = b := by
  obtain ⟨header, hheader, h⟩ := Option.bind_eq_some_iff.mp h
  have hheader' := inSet_getD (by decide) hheader
  rw [isConversation, hheader', oneOf_single obj "type" (by decide : "message" ≠ ""),
    oneOf_single obj "type" (by decide : "custom" ≠ "")]
  cases header with
  | true =>
    cases h
    rfl
  | false =>
    simp only [Bool.false_eq_true, if_false] at h
    by_cases hmessage : (obj.get? "type").getD (.str "") = .str "message"
    · rw [if_pos hmessage] at h
      rw [hmessage]
      cases hobj : obj.get? "message" with
      | none =>
        rw [hobj] at h
        cases h
        rfl
      | some message =>
        rw [hobj, Option.getD_some] at h
        split at h
        · rw [Option.any_some, inSet_getD (by decide) h]
          simp
        · cases h
    · rw [if_neg hmessage] at h
      rw [← Option.some.inj h, decide_eq_false hmessage, Bool.false_and, Bool.or_false,
        Bool.false_or, oneOf_single obj "customType" (by decide : "tool_execution_start" ≠ "")]
      congr 2
      cases obj.get? "customType" <;> simp

theorem keepsLine_eq {raw : List Char} (h : keepsLine m raw = some b) :
    conversationLine m raw = b := by
  unfold keepsLine at h
  unfold conversationLine
  cases hloads : loads m.depth raw with
  | error e =>
    rw [hloads] at h
    cases e with
    | invalid => exact Option.some.inj h
    | recursion => cases h
  | ok obj =>
    rw [hloads] at h
    simp only at h
    split at h
    · exact keepsRecord_eq h
    · cases h

theorem filterLines_conversation {lines kept : List (List Char)} {dropped : ℕ}
    (h : filterLines m lines = some (kept, dropped)) :
    kept = lines.filter (conversationLine m) ∧ filterLines m kept = some (kept, 0) := by
  induction lines generalizing kept dropped with
  | nil =>
    cases h
    exact ⟨rfl, rfl⟩
  | cons raw rest ih =>
    obtain ⟨keep, hkeep, h⟩ := Option.bind_eq_some_iff.mp h
    obtain ⟨⟨kept', dropped'⟩, hrest, h⟩ := Option.bind_eq_some_iff.mp h
    obtain ⟨heq, hagain⟩ := ih hrest
    have hline := keepsLine_eq hkeep
    cases keep with
    | true =>
      cases h
      rw [List.filter_cons_of_pos hline, ← heq]
      refine ⟨rfl, ?_⟩
      rw [filterLines, hkeep, hagain]
      rfl
    | false =>
      cases h
      rw [List.filter_cons_of_neg (by rw [hline]; simp)]
      exact ⟨heq, hagain⟩

/-- What is kept is read back line by line. -/
theorem records_joinLines {kept : List (List Char)} {cs : List Char}
    (h : kept.Sublist (records cs)) : records (joinLines kept) = kept := by
  have hline (l : List Char) (hl : l ∈ kept) :
      l ≠ [] ∧ ∀ c ∈ l, (decide (c = '\n') || decide (c = '\r')) = false := by
    obtain ⟨hmem, hne⟩ := List.mem_filter.mp (h.subset hl)
    exact ⟨by simpa using hne, not_of_mem_linesOn hmem⟩
  cases kept with
  | nil => rfl
  | cons l ls =>
    have hcr : '\r' ∉ ['\n'].intercalate (l :: ls) ++ ['\n'] := by
      intro hmem
      obtain hmem | hmem := List.mem_append.mp hmem
      · have hinfix : ['\r'] <:+: ['\n'].intercalate (l :: ls) :=
          (List.singleton_infix_iff _ _).mpr hmem
        obtain ⟨l', hl', hinfix⟩ := (infix_joined_iff (by decide) (by decide) _).mp hinfix
        have hbreak := (hline l' hl').2 '\r' ((List.singleton_infix_iff _ _).mp hinfix)
        exact absurd hbreak (by decide)
      · exact absurd (List.mem_singleton.mp hmem) (by decide)
    rw [joinLines, if_neg (by simp), records, joinCrLf_of_no_cr hcr,
      linesOn_joined (by decide) fun l' hl' => (hline l' hl').2]
    refine List.filter_eq_self.mpr fun l' hl' => ?_
    simpa using (hline l' hl').1

/-! ## A run that changes nothing -/

theorem write_get? (t : Disk) (p : List Name) (content : List UInt8) :
    (t.write p content).get? p = (t.get? p).map (Entry.write content) :=
  (Rows.get?_update_key t p p _ _).trans (if_pos rfl)

section

variable {t : Disk} {p : List Name} {content new : List UInt8} (hcontent : t.content p = some content)
include hcontent

theorem entry_of_content : t.get? p = some ⟨p, some content⟩ := by
  obtain ⟨e, he, hnode⟩ := Option.bind_eq_some_iff.mp hcontent
  have hpath : e.path = p := Rows.key_of_get? he
  rw [he, ← hnode, ← hpath]

theorem content_write : (t.write p new).content p = some new := by
  rw [Disk.content, write_get?, entry_of_content hcontent]
  rfl

theorem write_le (hlen : new.length ≤ content.length) : t.write p new ≤ t := by
  intro e he
  obtain ⟨e₀, he₀, rfl⟩ := Rows.mem_update.mp he
  refine ⟨e₀, he₀, ?_⟩
  by_cases hpath : e₀.path = p
  · have heq : e₀ = ⟨p, some content⟩ := by
      have hget := Rows.get?_of_mem he₀
      rw [hpath, entry_of_content hcontent] at hget
      exact (Option.some.inj hget).symm
    rw [if_pos (by simpa using hpath), heq]
    exact ⟨rfl, rfl, hlen⟩
  · rw [if_neg (by simpa using hpath)]
    exact ⟨rfl, rfl, Nat.le_refl _⟩

theorem not_le_write (hlen : new.length < content.length) : ¬ t ≤ t.write p new := by
  intro hle
  have hold := Rows.mem_of_get? (entry_of_content hcontent)
  have hnew := Rows.mem_of_get? (entry_of_content (@content_write t p content new hcontent))
  have hsize := (below_of_le hle hold hnew rfl).size
  simp only [Entry.size, Option.getD_some] at hsize
  omega

end

/-- There is nothing to strip, and the transcript can be read. -/
structure Settled (m : Machine) (w : World) (a : Args) (dir : List Name) : Prop where
  logs : NoLogs m a w.disk dir
  advisors : ∀ d ∈ targets w.disk a.sid dir, NoAdvisors m d w.disk
  transcript : ∃ jr, jr.dropped = 0 ∧
    (filterJsonl m false w.disk (locateSessionJsonl w a.sid dir)) = (w.disk, some jr)

theorem settled_iff {m : Machine} {now : ℤ} {w : World} {a : Args} :
    ((∃ r, (stripOracleSession m now w a false).2 = some r ∧ r.error = none) ∧
        (stripOracleSession m now w a false).1.disk = w.disk) ↔
      ∃ dir guard, begins m w a = some (dir, guard) ∧ Settled m w a dir := by
  constructor
  · intro h
    obtain ⟨⟨r, hr, herror⟩, hdisk⟩ := h
    cases hbegins : begins m w a with
    | none =>
      obtain ⟨r', hfail, hstrip⟩ := strip_of_begins_none hbegins
      rw [hstrip] at hr
      exact absurd herror (hfail r hr)
    | some pair =>
      obtain ⟨dir, guard⟩ := pair
      refine ⟨dir, guard, rfl, ?_⟩
      rw [strip_of_begins hbegins] at hr hdisk
      obtain ⟨-, hreal⟩ | ⟨jr, hdropped, -, hreal⟩ |
          ⟨jr, p, content, kept, hp, hcontent, hfilter, hdropped, -, hreal⟩ :=
        filterJsonl_cases m (stripLogs m a dir w.disk) (locateSessionJsonl w a.sid dir)
      · rw [(steps_of_none hreal).2] at hr
        cases hr
      · rw [(steps_of_some hreal).1] at hdisk
        have hle := deleteAdvisorFiles_le m a dir (stripLogs m a dir w.disk)
        rw [hdisk] at hle
        have hlogs := noLogs_of_le hle
        rw [stripLogs_of_noLogs hlogs] at hdisk hreal
        exact ⟨hlogs, noAdvisors_of_le (le_of_eq hdisk.symm), jr, hdropped, hreal⟩
      · exfalso
        by_cases hwritable : m.writable p = true
        · rw [if_pos hwritable] at hreal
          rw [(steps_of_some hreal).1] at hdisk
          have hshort := length_filterContent hfilter hdropped
          have hle := deleteAdvisorFiles_le m a dir
            ((stripLogs m a dir w.disk).write p (encode (joinLines kept)))
          rw [hdisk] at hle
          have hlogs := noLogs_of_le (le_trans hle (write_le hcontent hshort.le))
          rw [stripLogs_of_noLogs hlogs] at hle hcontent
          exact not_le_write hcontent hshort hle
        · rw [if_neg hwritable] at hreal
          rw [(steps_of_none hreal).2] at hr
          cases hr
  · intro h
    obtain ⟨dir, guard, hbegins, hlogs, hadvisors, jr, hdropped, hreal⟩ := h
    rw [strip_of_begins hbegins]
    have hsame := stripLogs_of_noLogs hlogs
    have hreal' : filterJsonl m false (stripLogs m a dir w.disk) (locateSessionJsonl w a.sid dir) =
        (w.disk, some jr) := by rw [hsame, hreal]
    rw [(steps_of_some hreal').1, (steps_of_some hreal').2]
    exact ⟨⟨_, rfl, rfl⟩, deleteAdvisorFiles_of_none hadvisors⟩

/-! ## The first run -/

theorem filterJsonl_of_entry {m : Machine} {t : Disk} {p : List Name} {e : Entry}
    {kept : List (List Char)} {dropped : ℕ} (hget : t.get? p = some e)
    (hfilter : e.node.bind (filterContent m) = some (kept, dropped))
    (hwritable : 0 < dropped → m.writable p = true) :
    ∃ jr, jr.dropped = dropped ∧ filterJsonl m false t (some p) =
      (if dropped = 0 then t else t.write p (encode (joinLines kept)), some jr) := by
  simp only [filterJsonl, filterSessionJsonl, hget, hfilter]
  cases dropped with
  | zero =>
    refine ⟨{ kept := kept.length, originalBytes := e.size,
              filteredBytes := (encode (joinLines kept)).length }, rfl, ?_⟩
    simp
  | succ n =>
    refine ⟨{ kept := kept.length, dropped := n + 1, rewritten := true, originalBytes := e.size,
              filteredBytes := (encode (joinLines kept)).length }, rfl, ?_⟩
    simp [hwritable (Nat.succ_pos n)]

theorem filterJsonl_raises {m : Machine} {t : Disk} {p : List Name} {e : Entry}
    (hget : t.get? p = some e)
    (h : ∀ kept dropped, e.node.bind (filterContent m) = some (kept, dropped) →
      0 < dropped ∧ m.writable p = false) : filterJsonl m false t (some p) = (t, none) := by
  simp only [filterJsonl, filterSessionJsonl, hget]
  cases hfilter : e.node.bind (filterContent m) with
  | none => rfl
  | some pair =>
    obtain ⟨kept, dropped⟩ := pair
    obtain ⟨hdropped, hwritable⟩ := h kept dropped hfilter
    simp [hdropped, hwritable]

theorem entry_of_jsonl {w : World} {sid : List Char} {dir p : List Name}
    (h : locateSessionJsonl w sid dir = some p) :
    ∃ e name, w.disk.get? p = some e ∧ p = dir ++ [name] := by
  have hmem {l : List Entry} {acc : Option Entry} {e : Entry}
      (he : l.foldl (fun best e => if best.all fun b => w.mtime b.path < w.mtime e.path then some e
        else best) acc = some e) : e ∈ l ∨ acc = some e := by
    induction l generalizing acc with
    | nil => exact .inr he
    | cons x l ih =>
      obtain hl | hx := ih he
      · exact .inl (List.mem_cons_of_mem x hl)
      · dsimp only at hx
        split at hx
        · exact .inl (Option.some.inj hx ▸ List.mem_cons_self)
        · exact .inr hx
  obtain ⟨e, he, rfl⟩ := Option.map_eq_some_iff.mp h
  obtain hglob | hnone := hmem he
  · obtain ⟨hlist, hglob⟩ := Rows.mem_select.mp hglob
    obtain ⟨name, hname⟩ := path_of_globbed hglob
    exact ⟨e, name, Rows.get?_of_mem hlist, hname⟩
  · cases hnone

/-- The run comes to its end: the transcript is a full log that is deleted, or what the steps leave
of it can be filtered and written. -/
def Ends (m : Machine) (w : World) (a : Args) (dir : List Name) : Prop :=
  ∀ p ∈ locateSessionJsonl w a.sid dir, ∀ e ∈ w.disk.get? p, bashOriginal m dir e = true ∨
    ∃ kept dropped, (shortened m a dir e).node.bind (filterContent m) = some (kept, dropped) ∧
      (0 < dropped → m.writable p = true)

/-- What a run leaves of a transcript that it does not delete. -/
def left (m : Machine) (a : Args) (dir : List Name) (e : Entry) : Option (List UInt8) :=
  (shortened m a dir e).node.bind fun content =>
    (filterContent m content).map fun x =>
      if x.2 = 0 then content else encode (joinLines x.1)

theorem left_records {m : Machine} {a : Args} {dir : List Name} {e : Entry}
    {kept : List (List Char)} {dropped : ℕ}
    (h : (shortened m a dir e).node.bind (filterContent m) = some (kept, dropped)) :
    ∃ x after, left m a dir e = some x ∧ utf8 x = some after ∧ records after = kept ∧
      filterContent m x = some (kept, 0) := by
  obtain ⟨content, hnode, hfilter⟩ := Option.bind_eq_some_iff.mp h
  have hleft : left m a dir e = some (if dropped = 0 then content else encode (joinLines kept)) := by
    rw [left, hnode, Option.bind_some, hfilter]
    rfl
  obtain ⟨cs, hcs, hlines⟩ := Option.bind_eq_some_iff.mp hfilter
  obtain ⟨hsub, hlen⟩ := filterLines_length hlines
  by_cases hdropped : dropped = 0
  · rw [if_pos hdropped] at hleft
    rw [hdropped] at hfilter hlen
    exact ⟨content, cs, hleft, hcs, (hsub.eq_of_length (by omega)).symm, hfilter⟩
  · rw [if_neg hdropped] at hleft
    have hread := utf8_encode (joinLines kept)
    have hrecords := records_joinLines hsub
    refine ⟨_, joinLines kept, hleft, hread, hrecords, ?_⟩
    rw [filterContent, hread, Option.bind_some, hrecords]
    exact (filterLines_conversation hlines).2

/-- The transcript is deleted by no step, and no line of the conversation is cut off. -/
structure Lasts (m : Machine) (a : Args) (dir : List Name) (e : Entry) : Prop where
  original : bashOriginal m dir e = false
  advisor : advisor m dir e = false
  lossless : ∃ before kept dropped, e.node.bind utf8 = some before ∧
    (shortened m a dir e).node.bind (filterContent m) = some (kept, dropped) ∧
    kept = (records before).filter (conversationLine m)

section

variable {m : Machine} {now : ℤ} {w : World} {a : Args} {dir : List Name} {report : Report}

theorem steps_raises {p : List Name} {e : Entry} (hp : locateSessionJsonl w a.sid dir = some p)
    (he : w.disk.get? p = some e) (horiginal : bashOriginal m dir e = false)
    (h : ∀ kept dropped, (shortened m a dir e).node.bind (filterContent m) = some (kept, dropped) →
      0 < dropped ∧ m.writable p = false) :
    (steps m now w a false dir report).2 = none := by
  obtain ⟨e', name, he', rfl⟩ := entry_of_jsonl hp
  have hget : (stripLogs m a dir w.disk).get? (dir ++ [name]) = some (shortened m a dir e) := by
    rw [stripLogs_get?, he, Option.filter_some, horiginal]
    rfl
  refine (steps_of_none (t := stripLogs m a dir w.disk) ?_).2
  rw [hp]
  exact filterJsonl_raises hget h

theorem filterJsonl_ends (h : Ends m w a dir) : ∃ t jr,
    filterJsonl m false (stripLogs m a dir w.disk) (locateSessionJsonl w a.sid dir) = (t, some jr) ∧
    t ≤ stripLogs m a dir w.disk ∧
    ∀ p ∈ locateSessionJsonl w a.sid dir, ∀ e ∈ w.disk.get? p, t.get? p =
      if bashOriginal m dir e then none else (left m a dir e).map fun x => ⟨p, some x⟩ := by
  cases hp : locateSessionJsonl w a.sid dir with
  | none => exact ⟨_, _, rfl, le_refl _, by simp⟩
  | some p =>
    obtain ⟨e, name, he, rfl⟩ := entry_of_jsonl hp
    have hpath : e.path = dir ++ [name] := Rows.key_of_get? he
    have hget := stripLogs_get? m a dir w.disk name
    rw [he, Option.filter_some] at hget
    cases horiginal : bashOriginal m dir e with
    | true =>
      rw [horiginal] at hget
      have hgone : (stripLogs m a dir w.disk).get? (dir ++ [name]) = none := hget
      refine ⟨stripLogs m a dir w.disk, {}, ?_, le_refl _, ?_⟩
      · simp only [filterJsonl, filterSessionJsonl, hgone]
      · simp [he, horiginal, hgone]
    | false =>
      rw [horiginal] at hget
      have hleft : (stripLogs m a dir w.disk).get? (dir ++ [name]) = some (shortened m a dir e) :=
        hget
      obtain hcut | ⟨kept, dropped, hfilter, hwritable⟩ := h _ hp e he
      · rw [horiginal] at hcut
        cases hcut
      obtain ⟨content, hnode, hcontent⟩ := Option.bind_eq_some_iff.mp hfilter
      have hshort : shortened m a dir e = ⟨dir ++ [name], some content⟩ := by
        rw [← hnode, ← hpath, ← path_shortened m a dir e]
      have hread : (stripLogs m a dir w.disk).content (dir ++ [name]) = some content := by
        rw [Disk.content, hleft, Option.bind_some, hnode]
      have hx : left m a dir e = some (if dropped = 0 then content else encode (joinLines kept)) := by
        rw [left, hnode, Option.bind_some, hcontent]
        rfl
      obtain ⟨jr, -, hreal⟩ := filterJsonl_of_entry hleft hfilter hwritable
      refine ⟨_, jr, hreal, ?_, ?_⟩
      · split
        · exact le_refl _
        · next hdropped =>
          exact write_le hread (length_filterContent hcontent (Nat.pos_of_ne_zero hdropped)).le
      · intro p' hp' e' he'
        obtain rfl := Option.some.inj hp'
        obtain rfl := Option.some.inj (he.symm.trans he')
        simp only [horiginal, hx, Bool.false_eq_true, if_false, Option.map_some]
        by_cases hdropped : dropped = 0
        · rw [if_pos hdropped, if_pos hdropped, hleft, hshort]
        · rw [if_neg hdropped, if_neg hdropped, write_get?, hleft, hshort]
          rfl

theorem ends_iff (hreport : report.error = none) :
    (∃ r, (steps m now w a false dir report).2 = some r ∧ r.error = none) ↔ Ends m w a dir := by
  constructor
  · intro h p hp e he
    obtain ⟨r, hr, -⟩ := h
    by_contra hends
    rw [not_or, Bool.not_eq_true] at hends
    obtain ⟨horiginal, hfilter⟩ := hends
    have hraises := @steps_raises m now w a dir report p e hp he horiginal ?_
    · rw [hraises] at hr
      cases hr
    · intro kept dropped hkept
      by_contra hwritable
      refine hfilter ⟨kept, dropped, hkept, fun hdropped => ?_⟩
      by_contra hp'
      exact hwritable ⟨hdropped, by simpa using hp'⟩
  · intro h
    obtain ⟨t, jr, hreal, -⟩ := filterJsonl_ends h
    exact ⟨_, (steps_of_some hreal).2, hreport⟩

theorem content_after (h : Ends m w a dir) {p : List Name}
    (hp : locateSessionJsonl w a.sid dir = some p) {e : Entry} (he : w.disk.get? p = some e) :
    (steps m now w a false dir report).1.disk.content p =
      if bashOriginal m dir e || advisor m dir e then none else left m a dir e := by
  obtain ⟨t, jr, hreal, -, hget⟩ := filterJsonl_ends h
  obtain ⟨e', name, he', rfl⟩ := entry_of_jsonl hp
  have hpath : e.path = dir ++ [name] := Rows.key_of_get? he
  rw [(steps_of_some hreal).1, Disk.content, deleteAdvisorFiles_get?, hget _ hp e he]
  have hadvisor (x : List UInt8) : advisor m dir ⟨dir ++ [name], some x⟩ = advisor m dir e := by
    rw [← hpath]
    rfl
  cases bashOriginal m dir e with
  | true => rfl
  | false =>
    cases left m a dir e with
    | none => simp
    | some x =>
      rw [if_neg (by simp), Option.map_some, Option.filter_some, hadvisor]
      cases advisor m dir e <;> rfl

end

/-! ## Two runs -/

/-- The file at `p` holds the conversation of what it held, in order, and no other line. -/
def Keeps (m : Machine) (old new : Disk) (p : List Name) : Prop :=
  ∃ before after, (old.content p).bind utf8 = some before ∧ (new.content p).bind utf8 = some after ∧
    records after = (records before).filter (conversationLine m)

/-- The world after a run at the time `now`. -/
def afterStrip (m : Machine) (now : ℤ) (w : World) (a : Args) : World :=
  (stripOracleSession m now w a false).1

/-- The next run reports no error and changes nothing, and the transcript is the conversation. -/
structure StripsAgain (m : Machine) (now now' : ℤ) (w : World) (a : Args) : Prop where
  error : ∃ r, (stripOracleSession m now' (afterStrip m now w a) a false).2 = some r ∧
    r.error = none
  disk : (stripOracleSession m now' (afterStrip m now w a) a false).1.disk =
    (afterStrip m now w a).disk
  keeps : ∀ dir ∈ locateSessionDir w a, ∀ p ∈ locateSessionJsonl w a.sid dir,
    Keeps m w.disk (afterStrip m now w a).disk p

/-- If a run reports no error, then it is as if it was run twice. -/
def Idempotent (m : Machine) (now now' : ℤ) (w : World) (a : Args) : Prop :=
  ∀ r, (stripOracleSession m now w a false).2 = some r → r.error = none →
    StripsAgain m now now' w a

/-- The session directory and the transcript that are found. -/
def located (w : World) (a : Args) : Option (List Name × Option (List Name)) :=
  (locateSessionDir w a).map fun dir => (dir, locateSessionJsonl w a.sid dir)

/-- Where a run begins and comes to its end, the transcript lasts. If the next run finds the same
transcript, it is forced, or the guard takes what is left of the transcript for ended; if it finds
another one, all is settled there. -/
def Repeatable (m : Machine) (now : ℤ) (w : World) (a : Args) : Prop :=
  ∀ dir guard, begins m w a = some (dir, guard) → Ends m w a dir →
    (∀ p ∈ locateSessionJsonl w a.sid dir, ∀ e ∈ w.disk.get? p, Lasts m a dir e) ∧
    if located (afterStrip m now w a) a = located w a then
      a.force = true ∨ ∀ p ∈ locateSessionJsonl w a.sid dir, ∀ e ∈ w.disk.get? p,
        isSessionTerminal m (left m a dir e) = some true
    else ∃ dir' guard', begins m (afterStrip m now w a) a = some (dir', guard') ∧
      Settled m (afterStrip m now w a) a dir'

section

variable {m : Machine} {now : ℤ} {w : World} {a : Args} {dir : List Name} {guard : LiveGuard}

theorem dir_of_begins (h : begins m w a = some (dir, guard)) :
    a.sid.isEmpty = false ∧ locateSessionDir w a = some dir := by
  unfold begins at h
  split at h
  · cases h
  · next hsid =>
    obtain ⟨dir', hdir, h⟩ := Option.bind_eq_some_iff.mp h
    obtain ⟨guard', -, h⟩ := Option.map_eq_some_iff.mp h
    cases h
    exact ⟨by simpa using hsid, hdir⟩

theorem begins_iff (hsid : a.sid.isEmpty = false) (hdir : locateSessionDir w a = some dir) :
    (∃ guard, begins m w a = some (dir, guard)) ↔ a.force = true ∨
      ∀ p ∈ locateSessionJsonl w a.sid dir,
        isSessionTerminal m (w.disk.content p) = some true := by
  rw [begins, hsid, if_neg (by simp), hdir, Option.bind_some]
  cases hforce : a.force with
  | true => simp [liveGuard, Option.filter]
  | false =>
    cases locateSessionJsonl w a.sid dir with
    | none => simp [liveGuard, Option.filter]
    | some p =>
      cases hterminal : isSessionTerminal m (w.disk.content p) with
      | none => simp [liveGuard, hterminal]
      | some b => cases b <;> simp [liveGuard, hterminal, Option.filter]

theorem keeps_iff (hbegins : begins m w a = some (dir, guard)) (hends : Ends m w a dir)
    {p : List Name} (hp : locateSessionJsonl w a.sid dir = some p) {e : Entry}
    (he : w.disk.get? p = some e) :
    Keeps m w.disk (afterStrip m now w a).disk p ↔ Lasts m a dir e := by
  have hold : w.disk.content p = e.node := by rw [Disk.content, he, Option.bind_some]
  have hnew := @content_after m now w a dir
    { sid := a.sid, sessionDir := some dir, liveGuard := guard } hends p hp e he
  rw [← strip_of_begins hbegins, ← afterStrip] at hnew
  rw [Keeps, hold, hnew]
  constructor
  · intro h
    obtain ⟨before, after, hbefore, hafter, hrecords⟩ := h
    cases horiginal : bashOriginal m dir e with
    | true =>
      rw [horiginal] at hafter
      cases hafter
    | false =>
      cases hadvisor : advisor m dir e with
      | true =>
        rw [horiginal, hadvisor] at hafter
        cases hafter
      | false =>
        obtain hcut | ⟨kept, dropped, hfilter, -⟩ := hends p hp e he
        · rw [horiginal] at hcut
          cases hcut
        obtain ⟨x, after', hleft, hread, hkept, -⟩ := left_records hfilter
        rw [horiginal, hadvisor, hleft] at hafter
        obtain rfl := Option.some.inj (hread.symm.trans hafter)
        exact ⟨horiginal, hadvisor, before, kept, dropped, hbefore, hfilter, hkept ▸ hrecords⟩
  · intro h
    obtain ⟨horiginal, hadvisor, before, kept, dropped, hbefore, hfilter, hkept⟩ := h
    obtain ⟨x, after, hleft, hread, hrecords, -⟩ := left_records hfilter
    rw [horiginal, hadvisor, hleft]
    exact ⟨before, after, hbefore, hread, hrecords.trans hkept⟩

theorem settled_after (hbegins : begins m w a = some (dir, guard)) (hends : Ends m w a dir)
    (hlasts : ∀ p ∈ locateSessionJsonl w a.sid dir, ∀ e ∈ w.disk.get? p, Lasts m a dir e)
    (hsame : locateSessionJsonl (afterStrip m now w a) a.sid dir =
      locateSessionJsonl w a.sid dir) : Settled m (afterStrip m now w a) a dir := by
  obtain ⟨t, jr, hreal, hle, -⟩ := filterJsonl_ends hends
  have hdisk : (afterStrip m now w a).disk = (deleteAdvisorFiles m a.sid dir t).2 := by
    rw [afterStrip, strip_of_begins hbegins, (steps_of_some hreal).1]
  refine ⟨?_, ?_, ?_⟩
  · rw [hdisk]
    exact noLogs_of_le_stripLogs (le_trans (deleteAdvisorFiles_le m a dir t) hle)
  · rw [hdisk]
    exact noAdvisors_after
  · rw [hsame]
    cases hp : locateSessionJsonl w a.sid dir with
    | none => exact ⟨_, rfl, rfl⟩
    | some p =>
      obtain ⟨e, name, he, -⟩ := entry_of_jsonl hp
      obtain ⟨horiginal, hadvisor, before, kept, dropped, -, hfilter, -⟩ := hlasts p hp e he
      obtain ⟨x, -, hleft, -, -, hagain⟩ := left_records hfilter
      have hcontent : (afterStrip m now w a).disk.content p = some x := by
        rw [afterStrip, strip_of_begins hbegins, content_after hends hp he, horiginal, hadvisor,
          ← hleft]
        rfl
      obtain ⟨jr', hdropped, hfilter'⟩ := filterJsonl_of_entry (m := m)
        (entry_of_content hcontent) hagain (fun h => absurd h (Nat.lt_irrefl 0))
      exact ⟨jr', hdropped, hfilter'⟩

theorem begins_after (hbegins : begins m w a = some (dir, guard)) (hends : Ends m w a dir)
    (hlasts : ∀ p ∈ locateSessionJsonl w a.sid dir, ∀ e ∈ w.disk.get? p, Lasts m a dir e)
    (hdir : locateSessionDir (afterStrip m now w a) a = some dir)
    (hsame : locateSessionJsonl (afterStrip m now w a) a.sid dir =
      locateSessionJsonl w a.sid dir) :
    (∃ guard', begins m (afterStrip m now w a) a = some (dir, guard')) ↔ a.force = true ∨
      ∀ p ∈ locateSessionJsonl w a.sid dir, ∀ e ∈ w.disk.get? p,
        isSessionTerminal m (left m a dir e) = some true := by
  rw [begins_iff (dir_of_begins hbegins).1 hdir, hsame]
  refine or_congr Iff.rfl (forall₂_congr fun p hp => ?_)
  obtain ⟨e, -, he, -⟩ := entry_of_jsonl hp
  have hleft : (afterStrip m now w a).disk.content p = left m a dir e := by
    obtain ⟨horiginal, hadvisor, -⟩ := hlasts p hp e he
    rw [afterStrip, strip_of_begins hbegins, content_after hends hp he, horiginal, hadvisor]
    rfl
  rw [hleft, he]
  simp

theorem located_iff {w' : World} (hdir : locateSessionDir w a = some dir) :
    located w' a = located w a ↔ locateSessionDir w' a = some dir ∧
      locateSessionJsonl w' a.sid dir = locateSessionJsonl w a.sid dir := by
  rw [located, located, hdir, Option.map_some]
  cases locateSessionDir w' a with
  | none => simp
  | some dir' =>
    rw [Option.map_some, Option.some_inj, Option.some_inj, Prod.mk.injEq]
    constructor
    · intro h
      obtain ⟨rfl, hjsonl⟩ := h
      exact ⟨rfl, hjsonl⟩
    · intro h
      obtain ⟨rfl, hjsonl⟩ := h
      exact ⟨rfl, hjsonl⟩

end

/-- A strip is idempotent and keeps the conversation if and only if it is repeatable. -/
theorem strip_again_iff (m : Machine) (now now' : ℤ) (w : World) (a : Args) :
    Idempotent m now now' w a ↔ Repeatable m now w a := by
  constructor
  · intro h dir guard hbegins hends
    obtain ⟨hsid, hdir⟩ := dir_of_begins hbegins
    obtain ⟨r, hr, herror⟩ := (@ends_iff m now w a dir
      { sid := a.sid, sessionDir := some dir, liveGuard := guard } rfl).mpr hends
    rw [← strip_of_begins hbegins] at hr
    obtain ⟨hagain, hdisk, hkeeps⟩ := h r hr herror
    have hlasts : ∀ p ∈ locateSessionJsonl w a.sid dir, ∀ e ∈ w.disk.get? p, Lasts m a dir e :=
      fun p hp e he => (keeps_iff hbegins hends hp he).mp (hkeeps dir hdir p hp)
    refine ⟨hlasts, ?_⟩
    have hsettled := settled_iff.mp ⟨hagain, hdisk⟩
    split
    · next hsame =>
      obtain ⟨hdir', hjsonl⟩ := (located_iff hdir).mp hsame
      obtain ⟨dir', guard', hbegins', -⟩ := hsettled
      obtain rfl := Option.some.inj ((dir_of_begins hbegins').2.symm.trans hdir')
      exact (begins_after hbegins hends hlasts hdir' hjsonl).mp ⟨guard', hbegins'⟩
    · exact hsettled
  · intro h r hr herror
    cases hbegins : begins m w a with
    | none =>
      obtain ⟨r', hfail, hstrip⟩ := strip_of_begins_none hbegins
      rw [hstrip] at hr
      exact absurd herror (hfail r hr)
    | some pair =>
      obtain ⟨dir, guard⟩ := pair
      obtain ⟨hsid, hdir⟩ := dir_of_begins hbegins
      rw [strip_of_begins hbegins] at hr
      have hends : Ends m w a dir := (ends_iff rfl).mp ⟨r, hr, herror⟩
      obtain ⟨hlasts, hnext⟩ := h dir guard hbegins hends
      have hsettled : ∃ dir' guard', begins m (afterStrip m now w a) a = some (dir', guard') ∧
          Settled m (afterStrip m now w a) a dir' := by
        split at hnext
        · next hsame =>
          obtain ⟨hdir', hjsonl⟩ := (located_iff hdir).mp hsame
          obtain ⟨guard', hbegins'⟩ := (begins_after hbegins hends hlasts hdir' hjsonl).mpr hnext
          exact ⟨dir, guard', hbegins', settled_after hbegins hends hlasts hjsonl⟩
        · exact hnext
      obtain ⟨hagain, hdisk⟩ := (@settled_iff m now' _ a).mpr hsettled
      refine ⟨hagain, hdisk, ?_⟩
      intro dir' hdir' p hp
      obtain rfl := Option.some.inj (hdir.symm.trans hdir')
      obtain ⟨e, -, he, -⟩ := entry_of_jsonl hp
      exact (keeps_iff hbegins hends hp he).mpr (hlasts p hp e he)

/-- A title, and the mark of an end. -/
def ended : World where
  disk := ⟨[⟨[], none⟩, ⟨["a_s.jsonl".toList], some (encode (joinLines
    ["\x7b\"type\":\"title\"\x7d".toList, "\x7b\"customType\":\"agent_end\"\x7d".toList]))⟩],
    by decide⟩
  mtime _ := 0

/-- The first run drops the mark, and the second is refused. -/
theorem second_strip_refused :
    let args : Args := { sid := ['s'], explicit := true }
    let m : Machine := .permissive 1
    (stripOracleSession m 0 ended args false).2.map Report.error = some none ∧
      (stripOracleSession m 1 (afterStrip m 0 ended args) args false).2.map Report.error =
        some (some .sessionLooksLive) := by decide +kernel

end AiMeshChat.Oracle.Transcript
