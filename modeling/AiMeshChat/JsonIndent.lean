import AiMeshChat.JsonText

/-!
# Indented texts

`json.dumps` with `ensure_ascii=False` and `indent=2`: each item and each member stands on a
line of its own. The scanner skips the white space, so a value comes back from this text
too (`loads_dumps`).
-/

namespace AiMeshChat

/-- A line break and the indentation of depth `k`. -/
def lineStart (k : ℕ) : List Char := '\n' :: List.replicate (2 * k) ' '

mutual
/-- The characters of `dumps k`. -/
def indentText (k : ℕ) : Json → List Char
  | .arr (v :: vs) => '[' :: lineStart (k + 1) ++ indentText (k + 1) v ++ indentItems k vs
  | .obj ((f, v) :: kvs) =>
    '\x7b' :: lineStart (k + 1) ++ jsonChars f ++ [':', ' '] ++ indentText (k + 1) v ++
      indentMembers k kvs
  | .arr [] => ['[', ']']
  | .obj [] => ['\x7b', '\x7d']
  | .null => spaced .null
  | .bool b => spaced (.bool b)
  | .int i => spaced (.int i)
  | .float t => spaced (.float t)
  | .str s => spaced (.str s)

/-- The items of a list after the first, and its end. -/
def indentItems (k : ℕ) : List Json → List Char
  | [] => lineStart k ++ [']']
  | v :: vs => ',' :: lineStart (k + 1) ++ indentText (k + 1) v ++ indentItems k vs

/-- The members of a dict after the first, and its end. -/
def indentMembers (k : ℕ) : List (String × Json) → List Char
  | [] => lineStart k ++ ['\x7d']
  | (f, v) :: kvs =>
    ',' :: lineStart (k + 1) ++ jsonChars f ++ [':', ' '] ++ indentText (k + 1) v ++
      indentMembers k kvs
end

theorem lineStart_ws (k : ℕ) : (lineStart k).all isWs = true := by
  simp [lineStart, isWs]

theorem skipWs_lineStart {k : ℕ} {cs : List Char} (h : startsValue cs = true) :
    skipWs (lineStart k ++ cs) = cs := skipWs_append_ws (lineStart_ws k) h

theorem skipWs_close (k : ℕ) {c : Char} (hc : isWs c = false) (rest : List Char) :
    skipWs (lineStart k ++ c :: rest) = c :: rest := by
  have h (l : List Char) (hl : l.all isWs = true) : skipWs (l ++ c :: rest) = c :: rest := by
    rw [skipWs, List.dropWhile_append_of_pos (List.all_eq_true.mp hl),
      List.dropWhile_cons_of_neg (by rw [hc]; decide)]
  exact h _ (lineStart_ws k)

theorem startsValue_indentText (k : ℕ) {d : ℕ} {v : Json} (hv : Proper d v) :
    startsValue (indentText k v) = true := by
  cases v with
  | arr items => cases items <;> rfl
  | obj fields => rcases fields with _ | ⟨⟨f, v⟩, kvs⟩ <;> rfl
  | _ => exact startsValue_jsonText _ _ hv

theorem numEnd_indentItems (k : ℕ) (vs : List Json) (rest : List Char) :
    numEnd (indentItems k vs ++ rest) = true := by
  cases vs <;> rfl

theorem numEnd_indentMembers (k : ℕ) (kvs : List (String × Json)) (rest : List Char) :
    numEnd (indentMembers k kvs ++ rest) = true := by
  rcases kvs with _ | ⟨⟨f, v⟩, kvs⟩ <;> rfl

theorem length_indentItems (k : ℕ) (vs : List Json) :
    vs.length < (indentItems k vs).length := by
  induction vs with
  | nil => simp [indentItems, lineStart]
  | cons v vs ih =>
    rw [indentItems, List.length_append, List.length_cons]
    rw [List.length_append, List.length_cons]
    omega

theorem length_indentMembers (k : ℕ) (kvs : List (String × Json)) :
    kvs.length < (indentMembers k kvs).length := by
  induction kvs with
  | nil => simp [indentMembers, lineStart]
  | cons kv kvs ih =>
    obtain ⟨f, v⟩ := kv
    simp only [indentMembers, List.length_append, List.length_cons]
    omega

/-- Values that come back from their indented texts at the depth `d`. -/
def IndentReadsBack (d : ℕ) : Prop :=
  ∀ k v rest, Proper d v → numEnd rest = true →
    scanValue d (indentText k v ++ rest) = .ok (v, rest)

section

variable {d : ℕ}

theorem scanItems_indentText (hd : IndentReadsBack d) (k : ℕ) (rest : List Char)
    (vs : List Json) : ∀ (v : Json) (m : ℕ), vs.length < m → ProperItems d (v :: vs) →
      scanItems (scanValue d) m (indentText (k + 1) v ++ indentItems k vs ++ rest) =
        .ok (v :: vs, rest) := by
  induction vs with
  | nil =>
    intro v m hm hv
    obtain ⟨m, rfl⟩ := Nat.exists_eq_succ_of_ne_zero (Nat.ne_of_gt hm)
    have hclose : skipWs (indentItems k [] ++ rest) = ']' :: rest := by
      rw [indentItems, List.append_assoc]
      exact skipWs_close k rfl rest
    rw [List.append_assoc, scanItems, hd _ v _ hv.1 (numEnd_indentItems k _ _)]
    simp only [bind, Except.bind, hclose]
    rfl
  | cons v' vs ih =>
    intro v m hm hv
    obtain ⟨m, rfl⟩ := Nat.exists_eq_succ_of_ne_zero (Nat.ne_of_gt (Nat.zero_lt_of_lt hm))
    have hcomma : skipWs (indentItems k (v' :: vs) ++ rest) = ',' :: (lineStart (k + 1) ++
        (indentText (k + 1) v' ++ indentItems k vs ++ rest)) := by
      simp [indentItems, skipWs, isWs]
    have hskip : skipWs (lineStart (k + 1) ++
        (indentText (k + 1) v' ++ indentItems k vs ++ rest)) =
          indentText (k + 1) v' ++ indentItems k vs ++ rest := by
      refine skipWs_lineStart ?_
      rw [List.append_assoc]
      exact startsValue_append _ (startsValue_indentText _ hv.2.1)
    rw [List.append_assoc, scanItems, hd _ v _ hv.1 (numEnd_indentItems k _ _)]
    simp only [bind, Except.bind, hcomma, hskip, ih v' m (Nat.lt_of_succ_lt_succ hm) hv.2]
    rfl

theorem indentMember_text (k : ℕ) (f : String) {v : Json} (hv : Proper d v) (cs : List Char) :
    ∃ cs' r r', jsonChars f ++ [':', ' '] ++ indentText k v ++ cs = '"' :: cs' ∧
      scanString cs'.length cs' = some (f.toList, r) ∧ skipWs r = ':' :: r' ∧
      skipWs r' = indentText k v ++ cs := by
  obtain ⟨cs', hcs, hf⟩ := scanString_jsonChars f ([':', ' '] ++ indentText k v ++ cs)
  refine ⟨cs', _, ' ' :: (indentText k v ++ cs), ?_, hf, ?_, ?_⟩
  · rw [← hcs]
    simp only [List.append_assoc]
  · simp [skipWs, isWs]
  · exact skipWs_append_ws (w := [' ']) rfl
      (startsValue_append _ (startsValue_indentText k hv))

theorem scanMembers_indentText (hd : IndentReadsBack d) (k : ℕ) (rest : List Char)
    (kvs : List (String × Json)) : ∀ (f : String) (v : Json) (m : ℕ), kvs.length < m →
      ProperFields d ((f, v) :: kvs) →
      scanMembers (scanValue d) m (jsonChars f ++ [':', ' '] ++ indentText (k + 1) v ++
        (indentMembers k kvs ++ rest)) = .ok ((f, v) :: kvs, rest) := by
  induction kvs with
  | nil =>
    intro f v m hm hv
    obtain ⟨m, rfl⟩ := Nat.exists_eq_succ_of_ne_zero (Nat.ne_of_gt hm)
    obtain ⟨cs, r, r', htext, hf, hcolon, hskip⟩ :=
      @indentMember_text d (k + 1) f v hv.1 (indentMembers k [] ++ rest)
    have hclose : skipWs (indentMembers k [] ++ rest) = '\x7d' :: rest := by
      rw [indentMembers, List.append_assoc]
      exact skipWs_close k rfl rest
    rw [htext, scanMembers]
    simp only [hf, hcolon, hskip, hd _ v _ hv.1 (numEnd_indentMembers k _ _), bind, Except.bind,
      hclose, pure, Except.pure, String.ofList_toList]
  | cons kv kvs ih =>
    intro f v m hm hv
    obtain ⟨f', v'⟩ := kv
    obtain ⟨m, rfl⟩ := Nat.exists_eq_succ_of_ne_zero (Nat.ne_of_gt (Nat.zero_lt_of_lt hm))
    obtain ⟨cs, r, r', htext, hf, hcolon, hskip⟩ :=
      @indentMember_text d (k + 1) f v hv.1 (indentMembers k ((f', v') :: kvs) ++ rest)
    have hcomma : skipWs (indentMembers k ((f', v') :: kvs) ++ rest) =
        ',' :: (lineStart (k + 1) ++ (jsonChars f' ++ [':', ' '] ++ indentText (k + 1) v' ++
          (indentMembers k kvs ++ rest))) := by
      simp [indentMembers, skipWs, isWs]
    have hskip' : skipWs (lineStart (k + 1) ++ (jsonChars f' ++ [':', ' '] ++
        indentText (k + 1) v' ++ (indentMembers k kvs ++ rest))) =
          jsonChars f' ++ [':', ' '] ++ indentText (k + 1) v' ++
            (indentMembers k kvs ++ rest) := skipWs_lineStart rfl
    rw [htext, scanMembers]
    simp only [hf, hcolon, hskip, hd _ v _ hv.1 (numEnd_indentMembers k _ _), bind, Except.bind,
      hcomma, hskip', ih f' v' m (Nat.lt_of_succ_lt_succ hm) hv.2, pure, Except.pure,
      String.ofList_toList]

/-- **A value comes back from its indented text**, and the rest of the input with it. By
induction on the depth. -/
theorem indentReadsBack (d : ℕ) : IndentReadsBack d := by
  induction d with
  | zero =>
    intro k v rest hv hrest
    cases v with
    | arr items => exact hv.elim
    | obj fields => exact hv.elim
    | _ => exact readsBack separators 0 _ rest hv hrest
  | succ d ih =>
    intro k v rest hv hrest
    cases v with
    | arr items =>
      cases items with
      | nil => rfl
      | cons v vs =>
        have hstart := startsValue_append (indentItems k vs ++ rest)
          (startsValue_indentText (k + 1) hv.1)
        rw [← List.append_assoc] at hstart
        have hlen : vs.length <
            (indentText (k + 1) v ++ indentItems k vs ++ rest).length := by
          have := length_indentItems k vs
          simp only [List.length_append]
          omega
        have hitems := scanArray_of_items hstart (scanItems_indentText ih k rest vs v _ hlen hv)
        have htext : indentText k (.arr (v :: vs)) ++ rest = '[' :: (lineStart (k + 1) ++
            (indentText (k + 1) v ++ indentItems k vs ++ rest)) := by
          simp [indentText]
        rw [htext, scanValue, scanArray, skipWs_lineStart hstart, ← skipWs_of_starts hstart]
        exact hitems
    | obj fields =>
      rcases fields with _ | ⟨⟨f, v⟩, kvs⟩
      · rfl
      · have hstart : startsValue (jsonChars f ++ [':', ' '] ++ indentText (k + 1) v ++
            (indentMembers k kvs ++ rest)) = true := rfl
        have hlen : kvs.length < (jsonChars f ++ [':', ' '] ++ indentText (k + 1) v ++
            (indentMembers k kvs ++ rest)).length := by
          have := length_indentMembers k kvs
          simp only [List.length_append]
          omega
        have hmembers := scanObject_of_members hstart
          (scanMembers_indentText ih k rest kvs f v _ hlen hv.2) hv.1
        have htext : indentText k (.obj ((f, v) :: kvs)) ++ rest = '\x7b' :: (lineStart (k + 1) ++
            (jsonChars f ++ [':', ' '] ++ indentText (k + 1) v ++ (indentMembers k kvs ++ rest))) := by
          simp [indentText]
        rw [htext, scanValue, scanObject, skipWs_lineStart hstart, ← skipWs_of_starts hstart]
        exact hmembers
    | _ => exact readsBack separators (d + 1) _ rest hv hrest

end

/-! ## The text that is written -/

theorem newline_toList (k : ℕ) : (newline k).toList = lineStart k := String.toList_ofList

mutual
/-- `dumps` writes the indented text. -/
theorem dumps_toList : ∀ (k : ℕ) (v : Json), (dumps k v).toList = indentText k v
  | _, .int _ | _, .float _ => rfl
  | _, .null | _, .bool true | _, .bool false | _, .arr [] | _, .obj [] => by
    rw [dumps, indentText]
    decide
  | _, .str s => by
    rw [dumps, jsonStr, String.toList_ofList]
    rfl
  | k, .arr (v :: vs) => by
    have hitems := dumpsItems_toList k vs
    rw [dumps, dumpsItems, indentText, ← hitems]
    simp [intercalate_cons, newline_toList, dumps_toList (k + 1) v]
  | k, .obj ((f, v) :: kvs) => by
    have hfields := dumpsFields_toList k kvs
    rw [dumps, dumpsFields, indentText, ← hfields]
    simp [intercalate_cons, newline_toList, dumps_toList (k + 1) v, jsonStr]

theorem dumpsItems_toList : ∀ (k : ℕ) (vs : List Json),
    ((dumpsItems (k + 1) vs).map String.toList).flatMap ([','] ++ ·) ++ (lineStart k ++ [']']) =
      indentItems k vs
  | _, [] => rfl
  | k, v :: vs => by
    have hitems := dumpsItems_toList k vs
    rw [dumpsItems, indentItems, ← hitems]
    simp [newline_toList, dumps_toList (k + 1) v]

theorem dumpsFields_toList : ∀ (k : ℕ) (kvs : List (String × Json)),
    ((dumpsFields (k + 1) kvs).map String.toList).flatMap ([','] ++ ·) ++
      (lineStart k ++ ['\x7d']) = indentMembers k kvs
  | _, [] => rfl
  | k, (f, v) :: kvs => by
    have hfields := dumpsFields_toList k kvs
    rw [dumpsFields, indentMembers, ← hfields]
    simp [newline_toList, dumps_toList (k + 1) v, jsonStr]
end

/-- **The round trip** of an indented text. -/
theorem loads_dumps {v : Json} {d : ℕ} (hv : Proper d v) : loads d (dumps 0 v).toList = .ok v := by
  have hstart := startsValue_indentText 0 hv
  have hscan := indentReadsBack d 0 v [] hv rfl
  rw [List.append_nil] at hscan
  have hbom : (indentText 0 v).head? ≠ some '\ufeff' := by
    intro hhead
    obtain ⟨cs, hcs⟩ := List.head?_eq_some_iff.mp hhead
    rw [hcs] at hstart
    cases hstart
  rw [dumps_toList, loads, if_neg hbom, skipWs_of_starts hstart]
  simp only [hscan, bind, Except.bind]
  rfl

end AiMeshChat
