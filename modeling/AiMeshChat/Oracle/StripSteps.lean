import AiMeshChat.Lib.Clearing
import AiMeshChat.Lib.Utf8Cut
import AiMeshChat.Oracle.TranscriptStrip

/-!
# What the steps take away

Each step of a strip only deletes entries or shortens files, so disks are ordered by what is left
of them, and the steps that delete and cut are runs of a clearing (`clears_originals`,
`clears_sidecars`, `clears_advisors`). The transcript is filtered between them: `Filtered` says
what comes of it, and a filtered transcript is shorter (`filterJsonl_le`).
-/

namespace AiMeshChat.Oracle.Transcript

open Lib Lib.Posix

/-! ## What a run takes away -/

/-- The same entry, with no more content. -/
structure Entry.Below (e e' : Entry) : Prop where
  path : e.path = e'.path
  isFile : e.isFile = e'.isFile
  size : e.size ≤ e'.size

/-- What may be left of a disk. -/
instance : Preorder Disk where
  le t u := ∀ e ∈ t.list, ∃ e' ∈ u.list, e.Below e'
  le_refl t e he := ⟨e, he, rfl, rfl, Nat.le_refl _⟩
  le_trans t u v htu huv e he := by
    obtain ⟨e', he', hpath, hfile, hsize⟩ := htu e he
    obtain ⟨e'', he'', hpath', hfile', hsize'⟩ := huv e' he'
    exact ⟨e'', he'', hpath.trans hpath', hfile.trans hfile', Nat.le_trans hsize hsize'⟩

theorem le_of_subset {t u : Disk} (h : ∀ e ∈ t.list, e ∈ u.list) : t ≤ u :=
  fun e he => ⟨e, h e he, rfl, rfl, Nat.le_refl _⟩

@[simp] theorem Entry.isFile_cut (n : ℤ) (e : Entry) : (e.cut n).isFile = e.isFile :=
  Option.isSome_map

@[simp] theorem Entry.isFile_write (content : List UInt8) (e : Entry) :
    (e.write content).isFile = e.isFile := Option.isSome_map

theorem Entry.size_cut {n : ℤ} {e : Entry} (hn : 0 ≤ n) (h : n < e.size) :
    (e.cut n).size = n.toNat := by
  unfold Entry.size Entry.cut at *
  cases hnode : e.node with
  | none =>
    rw [hnode] at h
    simp only [Option.getD_none, List.length_nil] at h
    omega
  | some content =>
    rw [hnode] at h
    simp only [Option.getD_some] at h
    simp only [Option.map_some, Option.getD_some, if_neg (show ¬ n < 0 by omega), List.length_take]
    omega

theorem Entry.cut_of_neg {n : ℤ} (hn : n < 0) (e : Entry) : e.cut n = e := by
  obtain ⟨path, node⟩ := e
  cases node with
  | none => rfl
  | some content => simp [Entry.cut, hn]

theorem Entry.size_cut_le (n : ℤ) (e : Entry) : (e.cut n).size ≤ e.size := by
  unfold Entry.size Entry.cut
  cases e.node with
  | none => exact Nat.le_refl _
  | some content =>
    by_cases hn : n < 0
    · simp [hn]
    · simp only [Option.map_some, Option.getD_some, if_neg hn, List.length_take]
      omega

theorem below_of_le {t u : Disk} (h : t ≤ u) {e e' : Entry} (he : e ∈ t.list) (he' : e' ∈ u.list)
    (hpath : e.path = e'.path) : e.Below e' := by
  obtain ⟨e'', he'', hbelow⟩ := h e he
  have heq : e'' = e' := Rows.eq_of_key he'' he' (hbelow.path.symm.trans hpath)
  rwa [heq] at hbelow

theorem not_doomed_of_le {t : Disk} {p : Entry → Bool} (h : t ≤ t.delete p) {e : Entry}
    (he : e ∈ t.list) : p e = false := by
  obtain ⟨e', he', hbelow⟩ := h e he
  obtain ⟨hmem, hp⟩ := Rows.mem_delete.mp he'
  rwa [Rows.eq_of_key he hmem hbelow.path]

theorem delete_of_none {t : Disk} {p : Entry → Bool} (h : ∀ e ∈ t.list, p e = false) :
    t.delete p = t := by
  refine Rows.ext (List.filter_eq_self.mpr ?_)
  intro e he
  rw [h e he]
  rfl

section

variable {e e' : Entry} (h : e.Below e')
include h

theorem Entry.Below.globbed (dir : List Name) (pattern : List Char) :
    globbed dir pattern e = globbed dir pattern e' := by
  rw [Transcript.globbed, Transcript.globbed, h.path]

theorem Entry.Below.bashOriginal (m : Machine) (d : List Name) :
    bashOriginal m d e = bashOriginal m d e' := by
  rw [Transcript.bashOriginal, Transcript.bashOriginal, h.globbed, h.isFile, h.path]

theorem Entry.Below.advisor (m : Machine) (d : List Name) : advisor m d e = advisor m d e' := by
  rw [Transcript.advisor, Transcript.advisor, h.globbed, h.path]

theorem Entry.Below.sidecar {m : Machine} {n : ℤ} {x : List Name × List Char}
    (hs : sidecar m n x e = true) : sidecar m n x e' = true := by
  have hsize := h.size
  simp only [Transcript.sidecar, Bool.and_eq_true, decide_eq_true_eq, h.globbed, h.isFile,
    h.path] at hs ⊢
  refine ⟨hs.1, ?_⟩
  omega

end

/-- No full log is there to be deleted. -/
def NoOriginals (m : Machine) (d : List Name) (t : Disk) : Prop :=
  ∀ e ∈ t.list, bashOriginal m d e = false

/-- No log is longer than its head. -/
def NoLongSidecars (m : Machine) (head : ℤ) (x : List Name × List Char) (t : Disk) : Prop :=
  0 ≤ head → ∀ e ∈ t.list, sidecar m head x e = false

def NoAdvisors (m : Machine) (d : List Name) (t : Disk) : Prop :=
  ∀ e ∈ t.list, advisor m d e = false

theorem clears_originals (m : Machine) :
    Clears (fun t d => t.delete (bashOriginal m d)) (NoOriginals m) where
  le t d := le_of_subset fun e he => (Rows.mem_delete.mp he).1
  step_of_idle h := delete_of_none h
  idle_of_le h e he := not_doomed_of_le h he
  idle_step t d e he := (Rows.mem_delete.mp he).2
  anti hle h e he := by
    obtain ⟨e', he', hbelow⟩ := hle e he
    rw [hbelow.bashOriginal]
    exact h e' he'

theorem clears_sidecars (m : Machine) (head : ℤ) :
    Clears (cutSidecars m head) (NoLongSidecars m head) where
  le t x e he := by
    obtain ⟨e₀, he₀, rfl⟩ := Rows.mem_update.mp he
    refine ⟨e₀, he₀, ?_⟩
    by_cases hs : sidecar m head x e₀ = true
    · rw [if_pos hs]
      exact ⟨rfl, Entry.isFile_cut head e₀, Entry.size_cut_le head e₀⟩
    · rw [if_neg hs]
      exact ⟨rfl, rfl, Nat.le_refl _⟩
  step_of_idle {t x} h := by
    refine Rows.ext ((List.map_congr_left ?_).trans (List.map_id _))
    intro e he
    by_cases hhead : 0 ≤ head
    · rw [h hhead e he]
      rfl
    · rw [Entry.cut_of_neg (by omega)]
      exact ite_self e
  idle_of_le {t x} h hhead e he := by
    by_contra hs
    rw [Bool.not_eq_false] at hs
    have hmem : e.cut head ∈ (cutSidecars m head t x).list :=
      Rows.mem_update.mpr ⟨e, he, if_pos hs⟩
    have hsize := (below_of_le h he hmem rfl).size
    have hlong : head < e.size := by
      simp only [sidecar, Bool.and_eq_true, decide_eq_true_eq] at hs
      exact hs.2
    rw [Entry.size_cut hhead hlong] at hsize
    omega
  idle_step t x hhead e he := by
    obtain ⟨e₀, he₀, rfl⟩ := Rows.mem_update.mp he
    by_cases hs : sidecar m head x e₀ = true
    · rw [if_pos hs]
      have hlong : head < e₀.size := by
        simp only [sidecar, Bool.and_eq_true, decide_eq_true_eq] at hs
        exact hs.2
      have hsize := Entry.size_cut hhead hlong
      rw [sidecar, hsize]
      simp only [Bool.and_eq_false_iff, decide_eq_false_iff_not]
      right
      omega
    · rw [if_neg hs]
      simpa using hs
  anti hle h hhead e he := by
    by_contra hs
    rw [Bool.not_eq_false] at hs
    obtain ⟨e', he', hbelow⟩ := hle e he
    have hs' := hbelow.sidecar hs
    rw [h hhead e' he'] at hs'
    cases hs'

theorem clears_advisors (m : Machine) : Clears (removeAdvisors m) (NoAdvisors m) where
  le t d := le_of_subset fun e he => (Rows.mem_delete.mp he).1
  step_of_idle {t d} h := by
    refine delete_of_none fun e _ => ?_
    rw [List.any_eq_false]
    intro top htop
    obtain ⟨hmem, hadvisor⟩ := Rows.mem_select.mp htop
    rw [h top hmem] at hadvisor
    cases hadvisor
  idle_of_le {t d} h e he := by
    by_contra hadvisor
    rw [Bool.not_eq_false] at hadvisor
    have hkept := not_doomed_of_le h he
    rw [List.any_eq_false] at hkept
    exact hkept e (Rows.mem_select.mpr ⟨he, hadvisor⟩) (List.isPrefixOf_iff_prefix.mpr List.prefix_rfl)
  idle_step t d e he := by
    obtain ⟨hmem, hkept⟩ := Rows.mem_delete.mp he
    by_contra hadvisor
    rw [Bool.not_eq_false] at hadvisor
    rw [List.any_eq_false] at hkept
    exact hkept e (Rows.mem_select.mpr ⟨hmem, hadvisor⟩) (List.isPrefixOf_iff_prefix.mpr List.prefix_rfl)
  anti hle h e he := by
    obtain ⟨e', he', hbelow⟩ := hle e he
    rw [hbelow.advisor]
    exact h e' he'

/-! ## The steps one by one -/

theorem sweep_disk {X ρ : Type} (hits : Disk → X → List ρ) (step : Disk → X → Disk) (xs : List X)
    (t : Disk) : (sweep hits step xs t).2 = xs.foldl step t := by
  have h (acc : List ρ × Disk) :
      (xs.foldl (fun acc x => (acc.1 ++ hits acc.2 x, step acc.2 x)) acc).2 =
        xs.foldl step acc.2 := by
    induction xs generalizing acc with
    | nil => rfl
    | cons x xs ih => exact ih _
  exact h ([], t)

theorem mem_targets_of_le {t u : Disk} (h : t ≤ u) {sid : List Char} {dir d : List Name}
    (hd : d ∈ targets t sid dir) : d ∈ targets u sid dir := by
  obtain rfl | hd := List.mem_cons.mp hd
  · exact List.mem_cons_self
  · obtain ⟨e, he, rfl⟩ := List.mem_map.mp hd
    obtain ⟨he, hfile⟩ := List.mem_filter.mp he
    obtain ⟨he, hglob⟩ := Rows.mem_select.mp he
    obtain ⟨e', he', hbelow⟩ := h e he
    refine List.mem_cons_of_mem _ (List.mem_map.mpr ⟨e', ?_, hbelow.path.symm⟩)
    rw [List.mem_filter, ← hbelow.isFile]
    exact ⟨Rows.mem_select.mpr ⟨he', by rw [← hbelow.globbed, hglob]⟩, hfile⟩

/-- Nothing but the transcript and what advisors wrote is there to be stripped. -/
structure NoLogs (m : Machine) (a : Args) (t : Disk) (dir : List Name) : Prop where
  originals : ∀ d ∈ targets t a.sid dir, NoOriginals m d t
  sidecars : ∀ x ∈ targets t a.sid dir ×ˢ SIDECARS, NoLongSidecars m a.headBytes x t

/-- The second and the third step. -/
def stripLogs (m : Machine) (a : Args) (dir : List Name) (t : Disk) : Disk :=
  (truncateSidecarLogs m a.headBytes a.sid dir (deleteBashOriginal m a.sid dir t).2).2

section

variable (m : Machine) (a : Args) (dir : List Name) (t : Disk)

theorem deleteBashOriginal_le : (deleteBashOriginal m a.sid dir t).2 ≤ t := by
  rw [deleteBashOriginal, sweep_disk]
  exact (clears_originals m).foldl_le _ _

theorem truncateSidecarLogs_le : (truncateSidecarLogs m a.headBytes a.sid dir t).2 ≤ t := by
  rw [truncateSidecarLogs, sweep_disk]
  exact (clears_sidecars m a.headBytes).foldl_le _ _

theorem deleteAdvisorFiles_le : (deleteAdvisorFiles m a.sid dir t).2 ≤ t := by
  rw [deleteAdvisorFiles, sweep_disk]
  exact (clears_advisors m).foldl_le _ _

variable {m a dir t}

theorem stripLogs_of_noLogs (h : NoLogs m a t dir) : stripLogs m a dir t = t := by
  have horiginals : (deleteBashOriginal m a.sid dir t).2 = t := by
    rw [deleteBashOriginal, sweep_disk]
    exact (clears_originals m).foldl_of_idle h.originals
  rw [stripLogs, horiginals, truncateSidecarLogs, sweep_disk]
  exact (clears_sidecars m a.headBytes).foldl_of_idle h.sidecars

theorem noLogs_of_le (h : t ≤ stripLogs m a dir t) : NoLogs m a t dir := by
  have horiginals : ∀ d ∈ targets t a.sid dir, NoOriginals m d t := by
    refine (clears_originals m).idle_of_le_foldl ?_
    rw [← sweep_disk]
    exact le_trans h (truncateSidecarLogs_le m a dir _)
  have hsame : (deleteBashOriginal m a.sid dir t).2 = t := by
    rw [deleteBashOriginal, sweep_disk]
    exact (clears_originals m).foldl_of_idle horiginals
  refine ⟨horiginals, (clears_sidecars m a.headBytes).idle_of_le_foldl ?_⟩
  rw [stripLogs, hsame, truncateSidecarLogs, sweep_disk] at h
  exact h

theorem noLogs_of_le_stripLogs {u : Disk} (h : u ≤ stripLogs m a dir t) : NoLogs m a u dir := by
  have hmid : u ≤ (deleteBashOriginal m a.sid dir t).2 :=
    le_trans h (truncateSidecarLogs_le m a dir _)
  constructor
  · intro d hd
    have hd' := mem_targets_of_le (le_trans hmid (deleteBashOriginal_le m a dir t)) hd
    refine (clears_originals m).anti hmid ?_
    rw [deleteBashOriginal, sweep_disk]
    exact (clears_originals m).idle_foldl _ t d hd'
  · intro x hx
    obtain ⟨hd, hpattern⟩ := List.mem_product.mp hx
    have hx' := List.mem_product.mpr ⟨mem_targets_of_le hmid hd, hpattern⟩
    refine (clears_sidecars m a.headBytes).anti h ?_
    rw [stripLogs, truncateSidecarLogs, sweep_disk]
    exact (clears_sidecars m a.headBytes).idle_foldl _ _ x hx'

theorem deleteAdvisorFiles_of_none (h : ∀ d ∈ targets t a.sid dir, NoAdvisors m d t) :
    (deleteAdvisorFiles m a.sid dir t).2 = t := by
  rw [deleteAdvisorFiles, sweep_disk]
  exact (clears_advisors m).foldl_of_idle h

theorem noAdvisors_of_le (h : t ≤ (deleteAdvisorFiles m a.sid dir t).2) :
    ∀ d ∈ targets t a.sid dir, NoAdvisors m d t := by
  refine (clears_advisors m).idle_of_le_foldl ?_
  rw [← sweep_disk]
  exact h

theorem noAdvisors_after : ∀ d ∈ targets (deleteAdvisorFiles m a.sid dir t).2 a.sid dir,
    NoAdvisors m d (deleteAdvisorFiles m a.sid dir t).2 := by
  intro d hd
  have hd' := mem_targets_of_le (deleteAdvisorFiles_le m a dir t) hd
  rw [deleteAdvisorFiles, sweep_disk]
  exact (clears_advisors m).idle_foldl _ t d hd'

end

/-! ## The transcript is overwritten -/

theorem write_select {t : Disk} {p : List Name} {content : List UInt8} {q : Entry → Bool}
    (hq : ∀ e : Entry, q (e.write content) = q e) : (t.write p content).select q =
      (t.select q).map fun e => if e.path = p then e.write content else e := by
  rw [Rows.select, Rows.select, Disk.write]
  simp only [Rows.update, decide_eq_true_eq]
  rw [List.filter_map]
  congr 1
  · refine List.filter_congr fun e _ => ?_
    by_cases he : e.path = p <;> simp [he, hq]

theorem path_write (p : List Name) (content : List UInt8) (l : List Entry) :
    (l.map fun e => if e.path = p then e.write content else e).map Entry.path =
      l.map Entry.path := by
  rw [List.map_map]
  refine List.map_congr_left fun e _ => ?_
  by_cases he : e.path = p <;> simp [he, Entry.write]

theorem targets_write (t : Disk) (p : List Name) (content : List UInt8) (sid : List Char)
    (dir : List Name) : targets (t.write p content) sid dir = targets t sid dir := by
  rw [targets, targets, Disk.glob, write_select fun e => rfl, List.filter_map, path_write, Disk.glob]
  congr 3
  funext e
  by_cases he : e.path = p <;> simp [he]

theorem removeAdvisors_write (m : Machine) (t : Disk) (p : List Name) (content : List UInt8)
    (d : List Name) : removeAdvisors m (t.write p content) d =
      (removeAdvisors m t d).write p content := by
  refine Rows.ext ?_
  rw [removeAdvisors, write_select fun e => rfl, removeAdvisors]
  simp only [Disk.write, Rows.delete, Rows.update, decide_eq_true_eq]
  rw [List.filter_map]
  refine congrArg _ (List.filter_congr fun e _ => ?_)
  simp only [List.any_map, Function.comp_apply]
  congr 2
  funext top
  by_cases he : e.path = p <;> by_cases htop : top.path = p <;> simp [he, htop, Entry.write]

theorem deleteAdvisorFiles_write (m : Machine) (sid : List Char) (dir : List Name) (t : Disk)
    (p : List Name) (content : List UInt8) : deleteAdvisorFiles m sid dir (t.write p content) =
      ((deleteAdvisorFiles m sid dir t).1, (deleteAdvisorFiles m sid dir t).2.write p content) := by
  rw [deleteAdvisorFiles, deleteAdvisorFiles, targets_write, sweep, sweep]
  generalize targets t sid dir = ds
  generalize ([] : List (List Name)) = acc
  induction ds generalizing t acc with
  | nil => rfl
  | cons d ds ih =>
    rw [List.foldl_cons, List.foldl_cons, removeAdvisors_write, write_select fun e => rfl,
      path_write]
    exact ih (removeAdvisors m t d) _

/-! ## The transcript is filtered -/

theorem filterLines_length {m : Machine} {lines kept : List (List Char)} {dropped : ℕ}
    (h : filterLines m lines = some (kept, dropped)) :
    kept.Sublist lines ∧ kept.length + dropped = lines.length := by
  induction lines generalizing kept dropped with
  | nil =>
    cases h
    exact ⟨List.Sublist.refl _, rfl⟩
  | cons raw rest ih =>
    obtain ⟨keep, -, h⟩ := Option.bind_eq_some_iff.mp h
    obtain ⟨⟨kept', dropped'⟩, hrest, h⟩ := Option.bind_eq_some_iff.mp h
    obtain ⟨hsub, hlen⟩ := ih hrest
    cases keep with
    | true =>
      cases h
      refine ⟨hsub.cons_cons raw, ?_⟩
      simp only [List.length_cons]
      omega
    | false =>
      cases h
      refine ⟨hsub.cons raw, ?_⟩
      simp only [List.length_cons]
      omega

/-- The bytes of lines, each with its end. -/
def linesSize (ls : List (List Char)) : ℕ := (ls.map fun l => (encode l).length + 1).sum

theorem linesSize_linesOn (p : Char → Bool) (cs : List Char) :
    linesSize (linesOn p cs) ≤ (encode cs).length + 1 := by
  induction cs with
  | nil => exact Nat.zero_le _
  | cons c cs ih =>
    have hpos := length_encodeChar_pos c
    rw [linesOn, encode_cons, List.length_append]
    split
    · simp only [linesSize, List.map_cons, List.sum_cons, encode_nil, List.length_nil] at ih ⊢
      omega
    · cases hls : linesOn p cs with
      | nil => simp [linesSize]
      | cons l ls =>
        rw [hls] at ih
        simp only [linesSize, List.map_cons, List.sum_cons, encode_cons, List.length_append] at ih ⊢
        omega

theorem length_encode_joinCrLf (cs : List Char) :
    (encode (joinCrLf cs)).length ≤ (encode cs).length := by
  induction cs using joinCrLf.induct with
  | case1 cs ih =>
    rw [joinCrLf, encode_cons, encode_cons, encode_cons]
    simp only [List.length_append]
    omega
  | case2 c cs hne ih =>
    rw [joinCrLf.eq_2 c cs hne, encode_cons, encode_cons]
    simp only [List.length_append]
    omega
  | case3 => exact Nat.le_refl _

theorem length_joinLines (ls : List (List Char)) :
    (encode (joinLines ls)).length = linesSize ls := by
  have hnewline : (encode ['\n']).length = 1 := rfl
  cases ls with
  | nil => rfl
  | cons l ls =>
    rw [joinLines, if_neg (by simp), encode_append, List.length_append, hnewline]
    induction ls generalizing l with
    | nil => simp [linesSize, List.intercalate]
    | cons l' ls ih =>
      rw [joined_cons, encode_append, List.length_append, encode_cons, List.length_append]
      have hl := ih l'
      have hchar : (encodeChar '\n').length = 1 := rfl
      simp only [linesSize, List.map_cons, List.sum_cons] at hl ⊢
      omega

/-- Lines that are left out take at least `k` bytes each, if all do. -/
theorem linesSize_sublist {ls ls' : List (List Char)} (h : ls.Sublist ls') {k : ℕ}
    (hk : ∀ l ∈ ls', k ≤ (encode l).length + 1) :
    linesSize ls + k * ls'.length ≤ linesSize ls' + k * ls.length := by
  induction h with
  | slnil => exact Nat.le_refl _
  | cons l _ ih =>
    have hl := hk l List.mem_cons_self
    have hrest := ih fun l' hl' => hk l' (List.mem_cons_of_mem _ hl')
    simp only [linesSize, List.map_cons, List.sum_cons, List.length_cons, Nat.mul_succ] at hrest ⊢
    omega
  | cons_cons l _ ih =>
    have hrest := ih fun l' hl' => hk l' (List.mem_cons_of_mem _ hl')
    simp only [linesSize, List.map_cons, List.sum_cons, List.length_cons, Nat.mul_succ] at hrest ⊢
    omega

theorem size_of_mem_records {cs l : List Char} (h : l ∈ records cs) :
    2 ≤ (encode l).length + 1 := by
  cases l with
  | nil => simp [records] at h
  | cons c l =>
    have hpos := length_encodeChar_pos c
    rw [encode_cons, List.length_append]
    omega

theorem length_filterContent {m : Machine} {content : List UInt8} {kept : List (List Char)}
    {dropped : ℕ} (h : filterContent m content = some (kept, dropped)) (hdropped : 0 < dropped) :
    (encode (joinLines kept)).length < content.length := by
  obtain ⟨cs, hcs, h⟩ := Option.bind_eq_some_iff.mp h
  obtain ⟨hsub, hlen⟩ := filterLines_length h
  have hbytes := length_encode_le hcs
  have hcrlf := length_encode_joinCrLf cs
  have hlines := linesSize_linesOn (fun c => c = '\n' || c = '\r') (joinCrLf cs)
  have hrecords := linesSize_sublist (k := 0) (List.filter_sublist (p := fun raw => !raw.isEmpty)
    (l := linesOn (fun c => c = '\n' || c = '\r') (joinCrLf cs))) fun _ _ => Nat.zero_le _
  have hkept := linesSize_sublist hsub fun _ hl => size_of_mem_records hl
  rw [length_joinLines]
  rw [← records] at hrecords
  omega

theorem filterJsonl_cases (m : Machine) (t : Disk) (jsonl : Option (List Name)) :
    (filterJsonl m true t jsonl = (t, none) ∧ filterJsonl m false t jsonl = (t, none)) ∨
    (∃ jr, jr.dropped = 0 ∧ filterJsonl m true t jsonl = (t, some jr) ∧
      filterJsonl m false t jsonl = (t, some jr)) ∨
    ∃ jr p content kept, jsonl = some p ∧ t.content p = some content ∧
      filterContent m content = some (kept, jr.dropped) ∧ 0 < jr.dropped ∧
      filterJsonl m true t jsonl = (t, some jr) ∧ filterJsonl m false t jsonl =
        if m.writable p then
          (t.write p (encode (joinLines kept)), some { jr with rewritten := true })
        else (t, none) := by
  cases jsonl with
  | none => exact .inr (.inl ⟨_, rfl, rfl, rfl⟩)
  | some p =>
    simp only [filterJsonl, filterSessionJsonl, Disk.content]
    cases hget : t.get? p with
    | none => exact .inr (.inl ⟨{}, rfl, rfl, rfl⟩)
    | some e =>
      cases hnode : e.node with
      | none => simp [hnode]
      | some content =>
        cases hfilter : filterContent m content with
        | none => simp [hnode, hfilter]
        | some pair =>
          obtain ⟨kept, dropped⟩ := pair
          cases dropped with
          | zero => simp [hnode, hfilter]
          | succ n => simp [hget, hnode, hfilter]

/-! ## Where a run begins -/

/-- The directory in which the steps are made, and what the guard said. -/
def begins (m : Machine) (w : World) (a : Args) : Option (List Name × LiveGuard) :=
  if a.sid.isEmpty then none
  else (locateSessionDir w a).bind fun dir =>
    ((liveGuard m w.disk a.force (locateSessionJsonl w a.sid dir)).filter (· ≠ .refused)).map
      (dir, ·)

theorem strip_of_begins_none {m : Machine} {w : World} {a : Args} (h : begins m w a = none) :
    ∃ r : Option Report, (∀ report ∈ r, report.error ≠ none) ∧
      ∀ now dryRun, stripOracleSession m now w a dryRun = (w, r) := by
  unfold begins at h
  unfold stripOracleSession
  by_cases hsid : a.sid.isEmpty
  · simp only [if_pos hsid]
    exact ⟨_, by simp, fun _ _ => rfl⟩
  · rw [if_neg hsid] at h
    simp only [if_neg hsid]
    cases hdir : locateSessionDir w a with
    | none => exact ⟨_, by simp, fun _ _ => rfl⟩
    | some dir =>
      rw [hdir, Option.bind_some, Option.map_eq_none_iff] at h
      cases hguard : liveGuard m w.disk a.force (locateSessionJsonl w a.sid dir) with
      | none =>
        refine ⟨none, by simp, fun _ _ => ?_⟩
        simp only [hguard]
      | some guard =>
        rw [hguard, Option.filter_eq_none_iff] at h
        have hrefused : guard = .refused := by simpa using h guard rfl
        subst hrefused
        refine ⟨some
          { sid := a.sid, sessionDir := some dir, liveGuard := .refused,
            error := some .sessionLooksLive, hint := some LIVE_HINT }, by simp, fun _ _ => ?_⟩
        simp only [hguard]

theorem strip_of_begins {m : Machine} {w : World} {a : Args} {dir : List Name} {guard : LiveGuard}
    (h : begins m w a = some (dir, guard)) (now : ℤ) (dryRun : Bool) :
    stripOracleSession m now w a dryRun = steps m now w a dryRun dir
      { sid := a.sid, sessionDir := some dir, liveGuard := guard } := by
  unfold begins at h
  unfold stripOracleSession
  by_cases hsid : a.sid.isEmpty
  · rw [if_pos hsid] at h
    cases h
  · rw [if_neg hsid] at h
    simp only [if_neg hsid]
    obtain ⟨dir', hdir, h⟩ := Option.bind_eq_some_iff.mp h
    obtain ⟨guard', hguard, h⟩ := Option.map_eq_some_iff.mp h
    cases h
    obtain ⟨hguard, hpassed⟩ := Option.filter_eq_some_iff.mp hguard
    simp only [hdir, hguard]
    cases guard with
    | refused => simp at hpassed
    | skipped => rfl
    | passed => rfl
    | forced => rfl

section

variable {m : Machine} {now : ℤ} {w : World} {a : Args} {dryRun : Bool} {dir : List Name}
  {report : Report} {t : Disk}

theorem steps_of_none
    (h : filterJsonl m dryRun (stripLogs m a dir w.disk) (locateSessionJsonl w a.sid dir) =
      (t, none)) : (steps m now w a dryRun dir report).1.disk = t ∧
        (steps m now w a dryRun dir report).2 = none := by
  rw [stripLogs] at h
  simp only [steps, h, and_self]

theorem steps_of_some {jr : JsonlReport}
    (h : filterJsonl m dryRun (stripLogs m a dir w.disk) (locateSessionJsonl w a.sid dir) =
      (t, some jr)) :
    (steps m now w a dryRun dir report).1.disk = (deleteAdvisorFiles m a.sid dir t).2 ∧
      (steps m now w a dryRun dir report).2 = some { report with
        removed := (deleteBashOriginal m a.sid dir w.disk).1
        truncated := (truncateSidecarLogs m a.headBytes a.sid dir
          (deleteBashOriginal m a.sid dir w.disk).2).1
        jsonl := some jr
        advisorsRemoved := (deleteAdvisorFiles m a.sid dir t).1 } := by
  rw [stripLogs] at h
  simp only [steps, h, and_self]

end

end AiMeshChat.Oracle.Transcript
