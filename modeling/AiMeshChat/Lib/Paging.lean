import Mathlib.Data.List.Perm.Basic
import Mathlib.Data.List.Nodup
import Mathlib.Tactic.Ring

/-!
# Reading a list page by page

A list is read by a walk from its front that skips what a cursor says has been seen, and
stops when a page is full. The cursor of the next page comes from the last element of
this one, and it is compared with every element again: nothing says that the walk and the
comparison have the same order.

If a later cursor never admits what an earlier one skipped, then reading page after page
gives each element once exactly if the two orders agree at the end of every full page.
-/

namespace AiMeshChat.Lib.Paging

variable {α κ ε : Type}

/-- Collect elements that are not skipped, at most `room` of them and at least one. -/
def walk (skip : α → Except ε Bool) : ℕ → List α → Except ε (List α)
  | _, [] => .ok []
  | room, x :: xs => do
    if ← skip x then walk skip room xs
    else if room ≤ 1 then return [x]
    else return x :: (← walk skip (room - 1) xs)

/-- One page. -/
structure Page (α κ : Type) where
  items : List α
  cursor : κ
  hasMore : Bool
  deriving DecidableEq

/-- The cursor after a page; that of the last one if the page is empty. -/
def cursorAfter (next : α → Except ε κ) (c : κ) (items : List α) : Except ε κ :=
  match items.getLast? with
  | some e => next e
  | none => .ok c

/-- Read one page. -/
def page (skip : κ → α → Except ε Bool) (next : α → Except ε κ) (limit : ℕ) (l : List α) (c : κ) :
    Except ε (Page α κ) := do
  let items ← walk (skip c) limit l
  let c' ← cursorAfter next c items
  return ⟨items, c', items.length = limit⟩

/-- Read pages until there are no more; `none` if `n` pages are not enough. -/
def pageAll (skip : κ → α → Except ε Bool) (next : α → Except ε κ) (limit : ℕ) (l : List α) :
    ℕ → κ → Option (Except ε (List α))
  | 0, _ => none
  | n + 1, c =>
    match page skip next limit l c with
    | .error e => some (.error e)
    | .ok p =>
      if p.hasMore then (pageAll skip next limit l n p.cursor).map (·.map (p.items ++ ·))
      else some (.ok p.items)

/-- The element at the end of the first `n` has a cursor, and it parts these from the rest. -/
def SplitsAt (skip : κ → α → Except ε Bool) (next : α → Except ε κ) (l : List α) (n : ℕ) : Prop :=
  ∃ e c, (l.take n).getLast? = some e ∧ next e = .ok c ∧
    (∀ x ∈ l.take n, skip c x = .ok true) ∧ ∀ x ∈ l.drop n, skip c x = .ok false

/-- There is a cursor at the end of the list, and one that parts the list at the end of
every full page. -/
def Splits (skip : κ → α → Except ε Bool) (next : α → Except ε κ) (limit : ℕ) (l : List α) :
    Prop :=
  (∀ e, l.getLast? = some e → ∃ c, next e = .ok c) ∧
    ∀ k, 0 < k → k * limit ≤ l.length → SplitsAt skip next l (k * limit)

/-! ## One walk -/

section

variable {skip : α → Except ε Bool}

attribute [local simp] walk

variable {room : ℕ} {x : α} {xs l : List α}

theorem walk_cons_true (h : skip x = .ok true) : walk skip room (x :: xs) = walk skip room xs := by
  simp [h, bind, Except.bind]

theorem walk_cons_false (h : skip x = .ok false) : walk skip room (x :: xs) =
      if room ≤ 1 then .ok [x] else (walk skip (room - 1) xs).map (x :: ·) := by
  simp only [walk, h, bind, Except.bind, Bool.false_eq_true, if_false]
  split
  · rfl
  · cases walk skip (room - 1) xs <;> rfl

theorem walk_cons_error {e : ε} (h : skip x = .error e) : walk skip room (x :: xs) = .error e := by
  simp [h, bind, Except.bind]

theorem walk_split {r : List α} (hl : ∀ x ∈ l, skip x = .ok true) (hr : ∀ x ∈ r, skip x = .ok false)
    (hroom : 0 < room) : walk skip room (l ++ r) = .ok (r.take room) := by
  induction l with
  | nil =>
    rw [List.nil_append]
    clear hl
    induction r generalizing room with
    | nil => simp
    | cons x r ih =>
      obtain ⟨hx, hr⟩ := List.forall_mem_cons.mp hr
      rw [walk_cons_false hx]
      split
      · have hone : room = 1 := by omega
        rw [hone]
        rfl
      · obtain ⟨m, rfl⟩ : ∃ m, room = m + 1 := ⟨room - 1, by omega⟩
        rw [Nat.add_sub_cancel, ih hr (by omega)]
        rfl
  | cons x l ih =>
    obtain ⟨hx, hl⟩ := List.forall_mem_cons.mp hl
    rw [List.cons_append, walk_cons_true hx]
    exact ih hl

theorem mem_walk {items : List α} (h : walk skip room l = .ok items) :
    ∀ x ∈ items, x ∈ l ∧ skip x = .ok false := by
  induction l generalizing room items with
  | nil =>
    injection h with h
    subst h
    exact fun x hx => (List.not_mem_nil hx).elim
  | cons y l ih =>
    cases hy : skip y with
    | error e =>
      rw [walk_cons_error hy] at h
      cases h
    | ok b =>
      cases b with
      | true =>
        rw [walk_cons_true hy] at h
        intro x hx
        obtain ⟨hin, hskip⟩ := ih h x hx
        exact ⟨List.mem_cons_of_mem _ hin, hskip⟩
      | false =>
        rw [walk_cons_false hy] at h
        split at h
        · injection h with h
          subst h
          intro x hx
          rw [List.mem_singleton.mp hx]
          exact ⟨List.mem_cons_self, hy⟩
        · cases hw : walk skip (room - 1) l with
          | error e => rw [hw] at h; cases h
          | ok rest =>
            rw [hw] at h
            injection h with h
            subst h
            intro x hx
            rcases List.mem_cons.mp hx with rfl | hx
            · exact ⟨List.mem_cons_self, hy⟩
            · obtain ⟨hin, hskip⟩ := ih hw x hx
              exact ⟨List.mem_cons_of_mem _ hin, hskip⟩

theorem skipped_of_walk {r items : List α} (h : walk skip room (l ++ r) = .ok items)
    (hl : ∀ x ∈ items, x ∉ l) : ∀ x ∈ l, skip x = .ok true := by
  induction l with
  | nil => exact fun x hx => (List.not_mem_nil hx).elim
  | cons y l ih =>
    rw [List.cons_append] at h
    cases hy : skip y with
    | error e =>
      rw [walk_cons_error hy] at h
      cases h
    | ok b =>
      cases b with
      | true =>
        rw [walk_cons_true hy] at h
        intro x hx
        rcases List.mem_cons.mp hx with rfl | hx
        · exact hy
        · exact ih h (fun z hz hin => hl z hz (List.mem_cons_of_mem _ hin)) x hx
      | false =>
        have hin : y ∈ items := by
          rw [walk_cons_false hy] at h
          split at h
          · injection h with h
            rw [← h]
            exact List.mem_cons_self
          · cases hw : walk skip (room - 1) (l ++ r) with
            | error e => rw [hw] at h; cases h
            | ok rest =>
              rw [hw] at h
              injection h with h
              rw [← h]
              exact List.mem_cons_self
        exact absurd List.mem_cons_self (hl y hin)

end

/-! ## All pages -/

section

variable {skip : κ → α → Except ε Bool} {next : α → Except ε κ} {limit : ℕ}

/-- The cursor of an element that was not skipped admits nothing that was. -/
def Advances (skip : κ → α → Except ε Bool) (next : α → Except ε κ) : Prop :=
  ∀ c e c' x, skip c e = .ok false → next e = .ok c' → skip c' x = .ok false → skip c x = .ok false

variable {l out : List α} {c : κ} {n : ℕ}

theorem page_ok {p : Page α κ} (h : page skip next limit l c = .ok p) :
    walk (skip c) limit l = .ok p.items ∧ cursorAfter next c p.items = .ok p.cursor ∧
      p.hasMore = decide (p.items.length = limit) := by
  unfold page at h
  cases hw : walk (skip c) limit l with
  | error e => rw [hw] at h; cases h
  | ok items =>
    rw [hw] at h
    cases hc : cursorAfter next c items with
    | error e => simp only [bind, Except.bind, hc] at h; cases h
    | ok c' =>
      simp only [bind, Except.bind, hc] at h
      injection h with h
      subst h
      exact ⟨rfl, hc, rfl⟩

theorem pageAll_ok (h : pageAll skip next limit l (n + 1) c = some (.ok out)) :
    ∃ p, page skip next limit l c = .ok p ∧
      (p.hasMore = false ∧ out = p.items ∨ p.hasMore = true ∧ ∃ rest,
        pageAll skip next limit l n p.cursor = some (.ok rest) ∧ out = p.items ++ rest) := by
  unfold pageAll at h
  cases hp : page skip next limit l c with
  | error e => rw [hp] at h; cases h
  | ok p =>
    rw [hp] at h
    refine ⟨p, rfl, ?_⟩
    dsimp only at h
    split at h
    · next hmore =>
      obtain ⟨r, hr, hmap⟩ := Option.map_eq_some_iff.mp h
      cases r with
      | error e => cases hmap
      | ok rest =>
        injection hmap with hmap
        exact .inr ⟨hmore, rest, hr, hmap.symm⟩
    · next hmore =>
      injection h with h
      injection h with h
      exact .inl ⟨Bool.eq_false_iff.mpr hmore, h.symm⟩

theorem mem_pageAll (hadv : Advances skip next)
    (h : pageAll skip next limit l n c = some (.ok out)) :
    ∀ x ∈ out, x ∈ l ∧ skip c x = .ok false := by
  induction n generalizing c out with
  | zero => cases h
  | succ n ih =>
    obtain ⟨p, hp, hrest⟩ := pageAll_ok h
    obtain ⟨hwalk, hcursor, _⟩ := page_ok hp
    rcases hrest with ⟨_, rfl⟩ | ⟨_, rest, hall, rfl⟩
    · exact mem_walk hwalk
    · intro x hx
      rcases List.mem_append.mp hx with hx | hx
      · exact mem_walk hwalk x hx
      · obtain ⟨hin, hskip⟩ := ih hall x hx
        refine ⟨hin, ?_⟩
        unfold cursorAfter at hcursor
        split at hcursor
        · next e he =>
          exact hadv c e _ x (mem_walk hwalk e (List.mem_of_getLast? he)).2 hcursor hskip
        · injection hcursor with hcursor
          rw [hcursor]
          exact hskip

theorem walk_subset_pageAll (h : pageAll skip next limit l n c = some (.ok out)) :
    ∃ items, walk (skip c) limit l = .ok items ∧ ∀ x ∈ items, x ∈ out := by
  cases n with
  | zero => cases h
  | succ n =>
    obtain ⟨p, hp, hrest⟩ := pageAll_ok h
    refine ⟨p.items, (page_ok hp).1, fun x hx => ?_⟩
    rcases hrest with ⟨_, rfl⟩ | ⟨_, rest, _, rfl⟩
    · exact hx
    · exact List.mem_append_left _ hx

/-- A page whose cursor parts the list takes the next `limit` elements. -/
theorem page_split {l r : List α} {c : κ} (hlimit : 0 < limit)
    (hl : ∀ x ∈ l, skip c x = .ok true) (hr : ∀ x ∈ r, skip c x = .ok false) :
    page skip next limit (l ++ r) c =
      (cursorAfter next c (r.take limit)).map fun c' => ⟨r.take limit, c', limit ≤ r.length⟩ := by
  have hfull : ((r.take limit).length = limit) = (limit ≤ r.length) := by
    rw [List.length_take]
    exact propext ⟨fun h => by omega, fun h => by omega⟩
  simp only [page, walk_split hl hr hlimit, bind, Except.bind, hfull]
  cases cursorAfter next c (r.take limit) <;> rfl

theorem last_iff {r : List α} (c : κ) (hr : r.length < limit) :
    (∃ c', cursorAfter next c (r.take limit) = .ok c') ↔
      ∀ e, r.getLast? = some e → ∃ c', next e = .ok c' := by
  rw [List.take_of_length_le (by omega)]
  unfold cursorAfter
  cases r.getLast? with
  | none => exact ⟨fun _ e he => (Option.some_ne_none e he.symm).elim, fun _ => ⟨c, rfl⟩⟩
  | some e =>
    refine ⟨fun h e' he => ?_, fun h => h e rfl⟩
    injection he with he
    rw [← he]
    exact h

theorem full_page_iff (hadv : Advances skip next) (hlimit : 0 < limit) (hl : l.Nodup) {j : ℕ}
    (hseen : ∀ x ∈ l.take j, skip c x = .ok true) (hrest : ∀ x ∈ l.drop j, skip c x = .ok false)
    (hfull : j + limit ≤ l.length) :
    (∃ n out, pageAll skip next limit l n c = some (.ok out) ∧ out.Perm (l.drop j)) ↔
      ∃ e c', (l.take (j + limit)).getLast? = some e ∧ next e = .ok c' ∧
        (∀ x ∈ l.take (j + limit), skip c' x = .ok true) ∧
        (∀ x ∈ l.drop (j + limit), skip c' x = .ok false) ∧
        ∃ n out, pageAll skip next limit l n c' = some (.ok out) ∧
          out.Perm (l.drop (j + limit)) := by
  have hpage := @page_split α κ ε skip next limit _ _ c hlimit hseen hrest
  have hmore : limit ≤ (l.drop j).length := by
    rw [List.length_drop]
    omega
  have htake : l.take (j + limit) = l.take j ++ (l.drop j).take limit := List.take_add
  have hdrop : l.drop j = (l.drop j).take limit ++ l.drop (j + limit) := by
    rw [← List.drop_drop, List.take_append_drop]
  obtain ⟨e, he⟩ : ∃ e, ((l.drop j).take limit).getLast? = some e := by
    cases hlast : ((l.drop j).take limit).getLast? with
    | some e => exact ⟨e, rfl⟩
    | none =>
      have hnil := List.getLast?_eq_none_iff.mp hlast
      have hlen : ((l.drop j).take limit).length = 0 := by rw [hnil]; rfl
      rw [List.length_take] at hlen
      omega
  have hlast : (l.take (j + limit)).getLast? = some e := by
    rw [htake, List.getLast?_append, he]
    rfl
  have hcursor : cursorAfter next c ((l.drop j).take limit) = next e := by
    rw [cursorAfter, he]
  rw [List.take_append_drop, hcursor] at hpage
  constructor
  · rintro ⟨n, out, hall, hperm⟩
    cases n with
    | zero => cases hall
    | succ n =>
      obtain ⟨p, hp, hcont⟩ := pageAll_ok hall
      rw [hpage] at hp
      cases hc : next e with
      | error err => rw [hc] at hp; cases hp
      | ok c' =>
        rw [hc] at hp
        injection hp with hp
        subst hp
        rcases hcont with ⟨hno, _⟩ | ⟨_, rest, hall', rfl⟩
        · exact absurd hmore (of_decide_eq_false hno)
        · have happend : ((l.drop j).take limit ++ rest).Perm
              ((l.drop j).take limit ++ l.drop (j + limit)) := by
            rw [← hdrop]
            exact hperm
          have hperm' := (List.perm_append_left_iff _).mp happend
          refine ⟨e, c', hlast, hc, ?_, ?_, n, rest, hall', hperm'⟩
          · -- the next page starts with the first element that is not skipped
            obtain ⟨items, hwalk, hin⟩ := walk_subset_pageAll hall'
            rw [← List.take_append_drop (j + limit) l] at hwalk hl
            refine skipped_of_walk hwalk fun x hx htaken => ?_
            exact List.disjoint_of_nodup_append hl htaken (hperm'.subset (hin x hx))
          · intro x hx
            exact (mem_pageAll hadv hall' x (hperm'.symm.subset hx)).2
  · rintro ⟨e', c', hlast', hc, _, _, n, out, hall, hperm⟩
    have hsame : e' = e := Option.some.inj (hlast'.symm.trans hlast)
    rw [hsame] at hc
    rw [hc] at hpage
    refine ⟨n + 1, (l.drop j).take limit ++ out, ?_, ?_⟩
    · simp only [pageAll, hpage, Except.map, hmore, decide_true, if_true, hall, Option.map_some]
    · have happend := hperm.append_left ((l.drop j).take limit)
      rwa [← hdrop] at happend

/-- From a cursor that parts the list, the rest comes up once exactly if every later page
splits it. -/
theorem rest_iff (hadv : Advances skip next) (hlimit : 0 < limit) (hl : l.Nodup) (k : ℕ)
    (hseen : ∀ x ∈ l.take (k * limit), skip c x = .ok true)
    (hrest : ∀ x ∈ l.drop (k * limit), skip c x = .ok false) :
    (∃ n out, pageAll skip next limit l n c = some (.ok out) ∧ out.Perm (l.drop (k * limit))) ↔
      (∀ e, (l.drop (k * limit)).getLast? = some e → ∃ c', next e = .ok c') ∧
        ∀ k', k < k' → k' * limit ≤ l.length → SplitsAt skip next l (k' * limit) := by
  -- the induction is on what is left to read
  induction hleft : l.length - k * limit using Nat.strong_induction_on generalizing k c with
  | _ left ih =>
  have hsucc : (k + 1) * limit = k * limit + limit := Nat.succ_mul k limit
  have hdrop : (l.drop (k * limit)).length = l.length - k * limit := List.length_drop
  by_cases hfull : k * limit + limit ≤ l.length
  · rw [full_page_iff hadv hlimit hl hseen hrest hfull]
    rw [← hsucc] at hfull ⊢
    have hlast {e : α} {c' : κ} (he : (l.take ((k + 1) * limit)).getLast? = some e)
        (hc : next e = .ok c') : (∀ e, (l.drop (k * limit)).getLast? = some e →
          ∃ c', next e = .ok c') ↔
        ∀ e, (l.drop ((k + 1) * limit)).getLast? = some e → ∃ c', next e = .ok c' := by
      rw [List.getLast?_drop, List.getLast?_drop, if_neg (by omega)]
      by_cases hend : l.length ≤ (k + 1) * limit
      · rw [if_pos hend]
        rw [List.take_of_length_le hend] at he
        refine ⟨fun _ e' he' => (Option.some_ne_none e' he'.symm).elim, fun _ e' he' => ?_⟩
        rw [he] at he'
        injection he' with he'
        rw [← he']
        exact ⟨c', hc⟩
      · rw [if_neg hend]
    constructor
    · rintro ⟨e, c', he, hc, hseen', hrest', hall⟩
      obtain ⟨hend, hlater⟩ := (ih _ (by omega) (k + 1) hseen' hrest' rfl).mp hall
      refine ⟨(hlast he hc).mpr hend, fun k' hk hle => ?_⟩
      by_cases hnext : k' = k + 1
      · rw [hnext]
        exact ⟨e, c', he, hc, hseen', hrest'⟩
      · exact hlater k' (by omega) hle
    · rintro ⟨hend, hlater⟩
      obtain ⟨e, c', he, hc, hseen', hrest'⟩ := hlater (k + 1) (by omega) hfull
      refine ⟨e, c', he, hc, hseen', hrest', ?_⟩
      exact (ih _ (by omega) (k + 1) hseen' hrest' rfl).mpr
        ⟨(hlast he hc).mp hend, fun k' hk hle => hlater k' (by omega) hle⟩
  · have hnone (k' : ℕ) (hk : k < k') (hle : k' * limit ≤ l.length) : False := by
      have hmul : (k + 1) * limit ≤ k' * limit := Nat.mul_le_mul_right _ hk
      omega
    have hpage := @page_split α κ ε skip next limit _ _ c hlimit hseen hrest
    have hshort : ¬ limit ≤ (l.drop (k * limit)).length := by omega
    rw [List.take_append_drop] at hpage
    rw [← @last_iff α κ ε next limit _ c (Nat.lt_of_not_le hshort)]
    constructor
    · rintro ⟨n, out, hall, _⟩
      cases n with
      | zero => cases hall
      | succ n =>
        obtain ⟨p, hp, _⟩ := pageAll_ok hall
        refine ⟨?_, fun k' hk hle => (hnone k' hk hle).elim⟩
        rw [hpage] at hp
        cases hc : cursorAfter next c ((l.drop (k * limit)).take limit) with
        | error e => rw [hc] at hp; cases hp
        | ok c' => exact ⟨c', rfl⟩
    · rintro ⟨⟨c', hc⟩, _⟩
      refine ⟨1, l.drop (k * limit), ?_, List.Perm.refl _⟩
      rw [hc] at hpage
      simp only [pageAll, hpage, Except.map, hshort, decide_false, Bool.false_eq_true, if_false]
      rw [List.take_of_length_le (by omega)]

/-- **Page by page, every element comes up once exactly if every full page splits the
list.** -/
theorem complete_iff (hadv : Advances skip next) (hlimit : 0 < limit) (hl : l.Nodup)
    (hstart : ∀ x ∈ l, skip c x = .ok false) :
    (∃ n out, pageAll skip next limit l n c = some (.ok out) ∧ out.Perm l) ↔
      Splits skip next limit l := by
  have h := rest_iff hadv hlimit hl 0 (c := c)
  rw [Nat.zero_mul, List.take_zero, List.drop_zero] at h
  exact h (fun x hx => (List.not_mem_nil hx).elim) hstart

end

end AiMeshChat.Lib.Paging
