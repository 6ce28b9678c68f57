import AiMeshChat.JsonText

/-!
# Reading the beginning of a text

The scanner goes from left to right, so what it has found does not change when
more text follows: a value that was followed by something is still there, and a
nesting that was too deep still is (`scanValue_stable`). Hence a text that is cut
off is at worst no JSON; it is never nested too deep if the whole was not
(`loads_prefix`).
-/

namespace AiMeshChat

/-! ## Strings -/

variable {cs rest : List Char} {c : Char}

theorem scanHex_append {n : ℕ} (h : scanHex cs = some (n, rest))
    (more : List Char) : scanHex (cs ++ more) = some (n, rest ++ more) := by
  match cs with
  | [] | [_] | [_, _] | [_, _, _] => cases h
  | a :: b :: c :: d :: cs =>
    simp only [scanHex, Option.bind_eq_bind, Option.bind_eq_some_iff, Option.some.injEq,
      Prod.mk.injEq, List.cons_append] at h ⊢
    obtain ⟨a', ha, b', hb, c', hc, d', hd, rfl, rfl⟩ := h
    exact ⟨a', ha, b', hb, c', hc, d', hd, rfl, rfl⟩

/-- A text in which a string literal ends. -/
def Closes (cs : List Char) : Prop := ∃ n x, scanString n cs = some x

theorem not_closes_nil : ¬ Closes [] := by
  rintro ⟨n, x, h⟩
  cases n <;> cases h

theorem not_closes_backslash : ¬ Closes ['\\'] := by
  rintro ⟨n, x, h⟩
  cases n <;> cases h

theorem scanUnicode_append (h : scanUnicode cs = some (c, rest)) (hrest : Closes rest)
    (more : List Char) : scanUnicode (cs ++ more) = some (c, rest ++ more) := by
  unfold scanUnicode at h ⊢
  cases hhex : scanHex cs with
  | none => simp [hhex] at h
  | some x =>
    obtain ⟨n, r⟩ := x
    simp only [hhex, Option.bind_eq_bind, Option.bind_some] at h
    simp only [scanHex_append hhex, Option.bind_eq_bind, Option.bind_some]
    split_ifs at h ⊢ with h1 h2
    · -- a high surrogate: the second half is there, or something else is
      split at h
      · next r' =>
        cases hlow : scanHex r' with
        | none => simp [hlow] at h
        | some y =>
          obtain ⟨m, r''⟩ := y
          simp only [hlow] at h
          simp only [List.cons_append, scanHex_append hlow]
          split_ifs at h ⊢ with h3
          · simp only [Option.some.injEq, Prod.mk.injEq] at h ⊢
            exact ⟨h.1, by rw [h.2]⟩
          · simp only [Option.some.injEq, Prod.mk.injEq] at h ⊢
            exact ⟨h.1, by rw [← h.2]; rfl⟩
      · next hno =>
        simp only [Option.some.injEq, Prod.mk.injEq] at h
        obtain ⟨hc, rfl⟩ := h
        have hno' : ∀ r', r ++ more ≠ '\\' :: 'u' :: r' := by
          intro r' hr'
          match r with
          | [] => exact not_closes_nil hrest
          | [a] =>
            obtain ⟨rfl, -⟩ := List.cons.inj hr'
            exact not_closes_backslash hrest
          | a :: b :: r =>
            simp only [List.cons_append, List.cons.injEq] at hr'
            obtain ⟨rfl, rfl, -⟩ := hr'
            exact hno r rfl
        split
        · next r' hr' => exact absurd hr' (hno' r')
        · rw [hc]
    · simp only [Option.some.injEq, Prod.mk.injEq] at h ⊢
      exact ⟨h.1, by rw [h.2]⟩
    · simp only [Option.some.injEq, Prod.mk.injEq] at h ⊢
      exact ⟨h.1, by rw [h.2]⟩

theorem scanEscape_append (h : scanEscape cs = some (c, rest)) (hrest : Closes rest)
    (more : List Char) : scanEscape (cs ++ more) = some (c, rest ++ more) := by
  unfold scanEscape at h
  split at h
  all_goals first
    | cases h; rfl
    | exact scanUnicode_append h hrest more
    | cases h

theorem scanChar_append (h : scanChar cs = some (c, rest)) (hrest : Closes rest)
    (more : List Char) : scanChar (cs ++ more) = some (c, rest ++ more) := by
  cases cs with
  | nil => cases h
  | cons x cs =>
    simp only [scanChar, List.cons_append] at h ⊢
    split_ifs at h ⊢
    · exact scanEscape_append h hrest more
    · cases h; rfl

theorem scanString_append {n : ℕ} {s : List Char} (more : List Char)
    (h : scanString n cs = some (s, rest)) :
    ∀ m, n ≤ m → scanString m (cs ++ more) = some (s, rest ++ more) := by
  induction n generalizing cs s with
  | zero =>
    intro m _
    cases cs with
    | nil => cases h
    | cons c cs =>
      by_cases hc : c = '"'
      · subst hc
        cases h
        cases m <;> rfl
      · simp [scanString, hc] at h
  | succ n ih =>
    intro m hm
    obtain ⟨m, rfl⟩ := Nat.exists_eq_add_of_lt (Nat.lt_of_lt_of_le (Nat.zero_lt_succ n) hm)
    simp only [Nat.zero_add] at hm ⊢
    by_cases hq : ∃ r, cs = '"' :: r
    · obtain ⟨r, rfl⟩ := hq
      cases h
      rfl
    · rw [scanString] at h
      · simp only [Option.bind_eq_bind, Option.bind_eq_some_iff, Option.some.injEq,
          Prod.mk.injEq] at h
        obtain ⟨⟨c, r⟩, hchar, ⟨s', r'⟩, hstr, rfl, rfl⟩ := h
        have hchar' := scanChar_append hchar ⟨n, _, hstr⟩ more
        have hstr' := ih hstr m (Nat.le_of_succ_le_succ hm)
        rw [scanString]
        · simp [hchar', hstr']
        · intro r₁ hr₁
          cases cs with
          | nil => cases hchar
          | cons x cs =>
            obtain ⟨rfl, -⟩ := List.cons.inj hr₁
            exact hq ⟨cs, rfl⟩
      · intro r hr
        exact hq ⟨r, hr⟩

/-! ## Numbers -/

theorem takeWhile_append {p : Char → Bool} (h : cs.dropWhile p ≠ [])
    (more : List Char) : (cs ++ more).takeWhile p = cs.takeWhile p ∧
      (cs ++ more).dropWhile p = cs.dropWhile p ++ more := by
  induction cs with
  | nil => exact absurd rfl h
  | cons c cs ih =>
    by_cases hc : p c = true
    · rw [List.dropWhile_cons_of_pos hc] at h
      obtain ⟨h1, h2⟩ := ih h
      simp [hc, h1, h2]
    · simp [hc]

theorem scanDigits_append {ds : List Char} (h : scanDigits cs = some (ds, rest)) (hrest : rest ≠ [])
    (more : List Char) : scanDigits (cs ++ more) = some (ds, rest ++ more) := by
  unfold scanDigits at h
  split at h
  · cases h
    rfl
  · next hz =>
    split_ifs at h with hne
    simp only [Option.some.injEq, Prod.mk.injEq] at h
    obtain ⟨rfl, rfl⟩ := h
    obtain ⟨h1, h2⟩ := takeWhile_append hrest more
    rw [scanDigits]
    · rw [h1, h2, if_neg hne]
    · intro r hr
      cases cs with
      | nil => exact hrest rfl
      | cons c cs =>
        obtain ⟨rfl, -⟩ := List.cons.inj hr
        exact hz cs rfl

theorem scanExp_append {ex : List Char} (h : scanExp cs = (ex, rest)) (hrest : rest ≠ [])
    (hend : numEnd rest = true) (more : List Char) : scanExp (cs ++ more) = (ex, rest ++ more) := by
  cases cs with
  | nil => exact absurd (Prod.mk.inj h).2.symm hrest
  | cons c cs =>
    by_cases hc : (c = 'e' || c = 'E') = true
    · -- it starts an exponent, so it is one
      have hsign : (scanSign cs).2.takeWhile Char.isDigit ≠ [] := by
        intro hnil
        simp only [scanExp, hnil, ne_eq, not_true_eq_false, decide_false, Bool.and_false,
          Bool.false_eq_true, if_false, Prod.mk.injEq] at h
        rw [← h.2] at hend
        simp only [Bool.or_eq_true, decide_eq_true_eq] at hc
        rcases hc with rfl | rfl <;> simp [numEnd] at hend
      simp only [scanExp, hc, ne_eq, hsign, not_false_eq_true, decide_true, Bool.and_self, if_true,
        Prod.mk.injEq] at h
      obtain ⟨rfl, rfl⟩ := h
      obtain ⟨h1, h2⟩ := takeWhile_append hrest more
      have happ : scanSign (cs ++ more) = ((scanSign cs).1, (scanSign cs).2 ++ more) := by
        cases cs with
        | nil => exact absurd rfl hsign
        | cons x cs =>
          unfold scanSign
          split <;> simp_all
      simp only [List.cons_append, scanExp, happ, hc, h1, h2, ne_eq, hsign, not_false_eq_true,
        decide_true, Bool.and_self, if_true]
    · simp only [scanExp, hc, Bool.false_and, Bool.false_eq_true, if_false, Prod.mk.injEq] at h
      obtain ⟨rfl, rfl⟩ := h
      simp [scanExp, hc]

theorem scanFrac_append {fr : List Char} (h : scanFrac cs = (fr, rest)) (hrest : rest ≠ [])
    (hdot : rest.head? ≠ some '.') (more : List Char) :
    scanFrac (cs ++ more) = (fr, rest ++ more) := by
  unfold scanFrac at h
  split at h
  · next r =>
    split_ifs at h with hne
    · cases h
      exact absurd rfl hdot
    · simp only [Prod.mk.injEq] at h
      obtain ⟨rfl, rfl⟩ := h
      obtain ⟨h1, h2⟩ := takeWhile_append hrest more
      rw [List.cons_append, scanFrac, h1, h2, if_neg hne]
  · next hno =>
    cases h
    rw [scanFrac]
    intro r hr
    cases cs with
    | nil => exact hrest rfl
    | cons c cs =>
      obtain ⟨rfl, -⟩ := List.cons.inj hr
      exact hno cs rfl

theorem scanUnsigned_append {neg : Bool} {v : Json} (h : scanUnsigned neg cs = some (v, rest))
    (hrest : rest ≠ []) (hend : numEnd rest = true)
    (more : List Char) : scanUnsigned neg (cs ++ more) = some (v, rest ++ more) := by
  unfold scanUnsigned at h
  cases hd : scanDigits cs with
  | none => simp [hd] at h
  | some x =>
    obtain ⟨ds, r₁⟩ := x
    rcases hf : scanFrac r₁ with ⟨fr, r₂⟩
    rcases he : scanExp r₂ with ⟨ex, r₃⟩
    simp only [hd, hf, he, Option.bind_eq_bind, Option.bind_some] at h
    have hr₃ : r₃ = rest := by
      split_ifs at h <;> exact (Prod.mk.inj (Option.some.inj h)).2
    rw [← hr₃] at hrest hend
    -- what is left after each part is not the end of the text
    have hr₂ : r₂ ≠ [] := by
      rintro rfl
      cases he
      exact hrest rfl
    have hdot : r₂.head? ≠ some '.' := by
      intro hh
      obtain ⟨r, rfl⟩ : ∃ r, r₂ = '.' :: r := by
        cases r₂ with
        | nil => cases hh
        | cons c r => exact ⟨r, by rw [Option.some.inj hh]⟩
      simp only [scanExp, Bool.false_and, Bool.false_eq_true, if_false, Prod.mk.injEq,
        show ('.' = 'e' || '.' = 'E') = false from rfl] at he
      rw [← he.2] at hend
      simp [numEnd] at hend
    have hr₁ : r₁ ≠ [] := by
      rintro rfl
      cases hf
      exact hr₂ rfl
    unfold scanUnsigned
    simp only [scanDigits_append hd hr₁ more, scanFrac_append hf hr₂ hdot more,
      scanExp_append he hrest hend more, Option.bind_eq_bind, Option.bind_some]
    split_ifs at h ⊢ with h1 h2 h3
    all_goals
      simp only [Option.some.injEq, Prod.mk.injEq] at h ⊢
      exact ⟨h.1, by rw [h.2]⟩

theorem scanUnsigned_head {neg : Bool} {x : Json × List Char}
    (h : scanUnsigned neg cs = some x) : ∃ c ds, cs = c :: ds ∧ c.isDigit = true := by
  cases cs with
  | nil => cases h
  | cons c cs =>
    refine ⟨c, cs, rfl, ?_⟩
    by_contra hc
    have hz : c ≠ '0' := by
      rintro rfl
      exact hc rfl
    simp [scanUnsigned, scanDigits, hz, hc] at h

/-! ## Values -/

theorem scanAtom_append {v : Json} (h : scanAtom cs = .ok (v, rest)) (hrest : rest ≠ [])
    (hend : numEnd rest = true) (more : List Char) :
    scanAtom (cs ++ more) = .ok (v, rest ++ more) := by
  -- a number: its digits come first, so no other kind of value is read
  have hnum (neg : Bool) (ds : List Char)
      (hds : (scanUnsigned neg ds).elim (.error JsonErr.invalid) .ok = Except.ok (v, rest)) :
      ∃ c ds', ds = c :: ds' ∧ c.isDigit = true ∧
        (scanUnsigned neg (c :: (ds' ++ more))).elim (.error JsonErr.invalid) .ok =
          Except.ok (v, rest ++ more) := by
    cases hs : scanUnsigned neg ds with
    | none => rw [hs] at hds; cases hds
    | some x =>
      rw [hs] at hds
      obtain rfl : x = (v, rest) := Except.ok.inj hds
      obtain ⟨c, ds', rfl, hc⟩ := scanUnsigned_head hs
      have happ := scanUnsigned_append hs hrest hend more
      rw [List.cons_append] at happ
      exact ⟨c, ds', rfl, hc, by rw [happ]; rfl⟩
  unfold scanAtom at h
  split at h
  · next cs =>
    split at h
    · next s r hs =>
      cases h
      have happ := scanString_append more hs (cs ++ more).length (by simp)
      rw [List.cons_append, scanAtom, happ]
    · cases h
  · cases h; rfl
  · cases h; rfl
  · cases h; rfl
  · cases h; rfl
  · cases h; rfl
  · cases h; rfl
  · obtain ⟨c, ds', rfl, hc, hok⟩ := hnum true _ h
    rw [List.cons_append, List.cons_append, scanAtom_minus hc, hok]
  · obtain ⟨c, ds', rfl, hc, hok⟩ := hnum false _ h
    rw [List.cons_append, scanAtom_digit hc, hok]

theorem scanAtom_not_deep (cs : List Char) : scanAtom cs ≠ .error .recursion := by
  have hnum (o : Option (Json × List Char)) :
      o.elim (.error .invalid) .ok ≠ Except.error JsonErr.recursion := by
    cases o <;> nofun
  unfold scanAtom
  split
  · split <;> nofun
  all_goals first
    | exact hnum _
    | nofun

/-- What a scanner finds stands whatever follows: a value that something delimits,
and a nesting that is too deep. -/
structure Stable (scan : Scanner) : Prop where
  empty : scan [] = .error .invalid
  found : ∀ {cs v rest}, scan cs = .ok (v, rest) → rest ≠ [] → numEnd rest = true →
    ∀ more, scan (cs ++ more) = .ok (v, rest ++ more)
  deep : ∀ {cs}, scan cs = .error .recursion → ∀ more, scan (cs ++ more) = .error .recursion

theorem skipWs_append (h : skipWs cs ≠ []) (more : List Char) :
    skipWs (cs ++ more) = skipWs cs ++ more :=
  (takeWhile_append h more).2

theorem numEnd_of_skipWs {rest r : List Char} {c : Char} (h : skipWs rest = c :: r)
    (hc : c = ',' ∨ c = ']' ∨ c = '\x7d') : rest ≠ [] ∧ numEnd rest = true := by
  cases rest with
  | nil => cases h
  | cons x xs =>
    refine ⟨by simp, ?_⟩
    by_cases hx : isWs x = true
    · simp only [isWs, Bool.or_eq_true, decide_eq_true_eq] at hx
      rcases hx with ((rfl | rfl) | rfl) | rfl <;> rfl
    · rw [skipWs, List.dropWhile_cons_of_neg hx] at h
      obtain ⟨rfl, -⟩ := List.cons.inj h
      rcases hc with rfl | rfl | rfl <;> rfl

/-- What was found in a text, against what is found when more follows. -/
def Kept {α : Type} (more : List Char) : Except JsonErr (α × List Char) →
    Except JsonErr (α × List Char) → Prop
  | .ok (v, rest), y => y = .ok (v, rest ++ more)
  | .error .recursion, y => y = .error .recursion
  | .error .invalid, _ => True

theorem Kept.map {α β : Type} {more : List Char} {x y : Except JsonErr (α × List Char)}
    (h : Kept more x y) (f : α → β) :
    Kept more (x >>= fun p => pure (f p.1, p.2)) (y >>= fun p => pure (f p.1, p.2)) := by
  rcases x with (_ | _) | ⟨v, rest⟩
  · trivial
  · rw [show y = .error .recursion from h]
    rfl
  · rw [show y = .ok (v, rest ++ more) from h]
    rfl

section

variable {scan : Scanner} (hscan : Stable scan)

include hscan

theorem scanItems_nil (n : ℕ) : scanItems scan n [] = .error .invalid := by
  cases n with
  | zero => rfl
  | succ n => simp [scanItems, hscan.empty, bind, Except.bind]

theorem scanItems_kept (more : List Char) :
    ∀ {n m : ℕ} (cs : List Char), n ≤ m →
      Kept more (scanItems scan n cs) (scanItems scan m (cs ++ more)) := by
  intro n
  induction n with
  | zero => intros; trivial
  | succ n ih =>
    intro m cs hm
    obtain ⟨m, rfl⟩ : ∃ k, m = k + 1 := ⟨m - 1, by omega⟩
    rw [scanItems, scanItems]
    rcases hx : scan cs with (_ | _) | ⟨v, rest⟩
    · trivial
    · rw [hscan.deep hx more]
      rfl
    · simp only [bind, Except.bind]
      rcases hr : skipWs rest with _ | ⟨c, r⟩
      · trivial
      · by_cases hc : c = ',' ∨ c = ']'
        · obtain ⟨hne, hend⟩ := numEnd_of_skipWs hr (by tauto)
          have hskip : skipWs (rest ++ more) = c :: (r ++ more) := by
            rw [skipWs_append (by rw [hr]; simp), hr, List.cons_append]
          rw [hscan.found hx hne hend more]
          simp only [hskip]
          rcases hc with rfl | rfl
          · by_cases hnil : skipWs r = []
            · simp only [hnil, scanItems_nil hscan]
              trivial
            · show Kept more (scanItems scan n (skipWs r) >>= fun p => pure (v :: p.1, p.2))
                (scanItems scan m (skipWs (r ++ more)) >>= fun p => pure (v :: p.1, p.2))
              rw [skipWs_append hnil]
              exact (ih (skipWs r) (by omega)).map (v :: ·)
          · rfl
        · obtain ⟨hcomma, hclose⟩ := not_or.mp hc
          split
          · next h => exact absurd (List.cons.inj h).1 hcomma
          · next h => exact absurd (List.cons.inj h).1 hclose
          · trivial

theorem memberRest_kept {more cs r : List Char} {n m : ℕ} (k : String) (hcs : skipWs r = cs)
    (ih : ∀ cs, Kept more (scanMembers scan n cs) (scanMembers scan m (cs ++ more))) :
    Kept more
      (do
        let (v, rest) ← scan cs
        match skipWs rest with
        | ',' :: rest =>
          let (kvs, rest) ← scanMembers scan n (skipWs rest)
          return ((k, v) :: kvs, rest)
        | '\x7d' :: rest => return ([(k, v)], rest)
        | _ => .error .invalid)
      (do
        let (v, rest) ← scan (skipWs (r ++ more))
        match skipWs rest with
        | ',' :: rest =>
          let (kvs, rest) ← scanMembers scan m (skipWs rest)
          return ((k, v) :: kvs, rest)
        | '\x7d' :: rest => return ([(k, v)], rest)
        | _ => .error .invalid) := by
  by_cases hnil : cs = []
  · rw [hnil, hscan.empty]
    trivial
  · rw [skipWs_append (by rwa [hcs]), hcs]
    rcases hx : scan cs with (_ | _) | ⟨v, rest⟩
    · trivial
    · rw [hscan.deep hx more]
      rfl
    · simp only [bind, Except.bind]
      rcases hr : skipWs rest with _ | ⟨c, r⟩
      · trivial
      · by_cases hc : c = ',' ∨ c = '\x7d'
        · obtain ⟨hne, hend⟩ := numEnd_of_skipWs hr (by tauto)
          have hskip : skipWs (rest ++ more) = c :: (r ++ more) := by
            rw [skipWs_append (by rw [hr]; simp), hr, List.cons_append]
          rw [hscan.found hx hne hend more]
          simp only [hskip]
          rcases hc with rfl | rfl
          · by_cases hnil : skipWs r = []
            · have hno : scanMembers scan n [] = .error .invalid := by cases n <;> rfl
              simp only [hnil, hno]
              trivial
            · show Kept more (scanMembers scan n (skipWs r) >>= fun p => pure ((k, v) :: p.1, p.2))
                (scanMembers scan m (skipWs (r ++ more)) >>= fun p => pure ((k, v) :: p.1, p.2))
              rw [skipWs_append hnil]
              exact (ih (skipWs r)).map ((k, v) :: ·)
          · rfl
        · obtain ⟨hcomma, hclose⟩ := not_or.mp hc
          split
          · next h => exact absurd (List.cons.inj h).1 hcomma
          · next h => exact absurd (List.cons.inj h).1 hclose
          · trivial

theorem scanMembers_kept (more : List Char) :
    ∀ {n m : ℕ} (cs : List Char), n ≤ m →
      Kept more (scanMembers scan n cs) (scanMembers scan m (cs ++ more)) := by
  intro n
  induction n with
  | zero => intros; trivial
  | succ n ih =>
    intro m cs hm
    obtain ⟨m, rfl⟩ : ∃ k, m = k + 1 := ⟨m - 1, by omega⟩
    by_cases hq : ∃ r, cs = '"' :: r
    · obtain ⟨cs, rfl⟩ := hq
      rw [List.cons_append, scanMembers, scanMembers]
      rcases hstr : scanString cs.length cs with _ | ⟨k, rest⟩
      · trivial
      · rw [scanString_append more hstr (cs ++ more).length (by simp)]
        rcases hr : skipWs rest with _ | ⟨c, r⟩
        · simp only [hr]
          trivial
        · have hskip : skipWs (rest ++ more) = c :: (r ++ more) := by
            rw [skipWs_append (by rw [hr]; simp), hr, List.cons_append]
          by_cases hc : c = ':'
          · subst hc
            simp only [hr, hskip]
            exact memberRest_kept hscan (String.ofList k) rfl fun cs => ih cs (by omega)
          · simp only [hr]
            split
            · next h => exact absurd (List.cons.inj h).1 hc
            · trivial
    · rw [scanMembers]
      · trivial
      · intro _ r _ hr
        exact hq ⟨r, hr⟩

theorem scanArray_kept (more cs : List Char) :
    Kept more (scanArray scan cs) (scanArray scan (cs ++ more)) := by
  unfold scanArray
  rcases hr : skipWs cs with _ | ⟨c, r⟩
  · trivial
  · have hskip : skipWs (cs ++ more) = c :: (r ++ more) := by
      rw [skipWs_append (by rw [hr]; simp), hr, List.cons_append]
    by_cases hc : c = ']'
    · subst hc
      simp only [hskip]
      rfl
    · have hitems := scanItems_kept hscan more (n := (c :: r).length)
        (m := (c :: (r ++ more)).length) (c :: r) (by simp)
      rw [hskip]
      split
      · next h => exact absurd (List.cons.inj h).1 hc
      · split
        · next h => exact absurd (List.cons.inj h).1 hc
        · exact hitems.map Json.arr

theorem scanObject_kept (more cs : List Char) :
    Kept more (scanObject scan cs) (scanObject scan (cs ++ more)) := by
  unfold scanObject
  rcases hr : skipWs cs with _ | ⟨c, r⟩
  · trivial
  · have hskip : skipWs (cs ++ more) = c :: (r ++ more) := by
      rw [skipWs_append (by rw [hr]; simp), hr, List.cons_append]
    by_cases hc : c = '\x7d'
    · subst hc
      simp only [hskip]
      rfl
    · have hmembers := scanMembers_kept hscan more (n := (c :: r).length)
        (m := (c :: (r ++ more)).length) (c :: r) (by simp)
      rw [hskip]
      split
      · next h => exact absurd (List.cons.inj h).1 hc
      · split
        · next h => exact absurd (List.cons.inj h).1 hc
        · exact hmembers.map dictOf

end

theorem Stable.of_kept {scan : Scanner} (hempty : scan [] = .error .invalid)
    (hkept : ∀ c cs more, (c = '[' ∨ c = '\x7b') → Kept more (scan (c :: cs)) (scan (c :: cs ++ more)))
    (hatom : ∀ c cs, c ≠ '[' → c ≠ '\x7b' → scan (c :: cs) = scanAtom (c :: cs)) : Stable scan := by
  refine ⟨hempty, fun {cs v rest} h hne hend more => ?_, fun {cs} h more => ?_⟩
  · cases cs with
    | nil => rw [hempty] at h; cases h
    | cons c cs =>
      by_cases hc : c = '[' ∨ c = '\x7b'
      · have := hkept c cs more hc
        rw [h] at this
        exact this
      · obtain ⟨h1, h2⟩ := not_or.mp hc
        rw [hatom c cs h1 h2] at h
        rw [List.cons_append, hatom c _ h1 h2, ← List.cons_append]
        exact scanAtom_append h hne hend more
  · cases cs with
    | nil => rw [hempty] at h; cases h
    | cons c cs =>
      by_cases hc : c = '[' ∨ c = '\x7b'
      · have := hkept c cs more hc
        rw [h] at this
        exact this
      · obtain ⟨h1, h2⟩ := not_or.mp hc
        rw [hatom c cs h1 h2] at h
        exact absurd h (scanAtom_not_deep _)

/-- **The scanner is stable** at every depth. -/
theorem scanValue_stable (d : ℕ) : Stable (scanValue d) := by
  induction d with
  | zero =>
    refine .of_kept rfl ?_ ?_
    · rintro c cs more (rfl | rfl) <;> rfl
    · intro c cs h1 h2
      rw [scanValue] <;> simp_all
  | succ d ih =>
    refine .of_kept rfl ?_ ?_
    · rintro c cs more (rfl | rfl)
      · exact scanArray_kept ih more cs
      · exact scanObject_kept ih more cs
    · intro c cs h1 h2
      rw [scanValue] <;> simp_all

/-- **The beginning of a text** that is not nested too deep is not either. -/
theorem loads_prefix {d : ℕ} {cs more : List Char} (h : loads d (cs ++ more) ≠ .error .recursion) :
    loads d cs ≠ .error .recursion := by
  intro hcs
  refine h ?_
  unfold loads at hcs ⊢
  by_cases hbom : cs.head? = some '\ufeff'
  · rw [if_pos hbom] at hcs
    cases hcs
  · rw [if_neg hbom] at hcs
    by_cases hnil : skipWs cs = []
    · rw [hnil, (scanValue_stable d).empty] at hcs
      cases hcs
    · have hbom' : ¬ (cs ++ more).head? = some '\ufeff' := by
        cases cs with
        | nil => exact absurd rfl hnil
        | cons c cs => exact hbom
      rw [if_neg hbom', skipWs_append hnil]
      rcases hx : scanValue d (skipWs cs) with (_ | _) | ⟨v, rest⟩
      · rw [hx] at hcs
        cases hcs
      · rw [(scanValue_stable d).deep hx more]
        rfl
      · rw [hx] at hcs
        simp only [bind, Except.bind] at hcs
        split_ifs at hcs
        all_goals cases hcs

theorem loads_brace {d : ℕ} {cs : List Char} {v : Json} (h : loads d ('\x7b' :: cs) = .ok v) :
    v.isDict = true := by
  have hfold (kvs : List (String × Json)) (v : Json) (hv : v.isDict = true) :
      (kvs.foldl (fun (d : Json) kv => d.set kv.1 kv.2) v).isDict = true := by
    induction kvs generalizing v with
    | nil => exact hv
    | cons kv kvs ih =>
      refine ih _ ?_
      cases v with
      | obj fields =>
        show (Json.set (.obj fields) kv.1 kv.2).isDict = true
        rw [Json.set]
        split_ifs <;> rfl
      | _ => cases hv
  cases d with
  | zero => cases h
  | succ d =>
    have hskip : skipWs ('\x7b' :: cs) = '\x7b' :: cs := rfl
    rw [loads, if_neg (by simp), hskip, scanValue] at h
    rcases hx : scanObject (scanValue d) cs with e | ⟨w, rest⟩
    · rw [hx] at h
      cases h
    · rw [hx] at h
      simp only [bind, Except.bind] at h
      split_ifs at h
      obtain rfl : w = v := Except.ok.inj h
      unfold scanObject at hx
      split at hx
      · cases hx
        rfl
      · rcases hm : scanMembers (scanValue d) (skipWs cs).length (skipWs cs) with e | ⟨kvs, r⟩
        · rw [hm] at hx
          cases hx
        · rw [hm] at hx
          cases hx
          exact hfold kvs _ rfl

end AiMeshChat
