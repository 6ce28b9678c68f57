import AiMeshChat.Helper.Answers
import AiMeshChat.JsonPrefix
import AiMeshChat.Ledger.ReadBack
import AiMeshChat.Wire.MailboxReply

/-!
# A mailbox answer and its reader

The helper answers a mailbox request with a `mailbox_result` that `_send` writes on one
line, and `_run_ssh_mailbox` cuts the whole output with `str.splitlines`. JSON escapes
every line boundary that is a control character and leaves U+0085, U+2028 and U+2029 as
they are, so a text with one of them is cut in pieces and no piece is a result.

`round_trip_iff` says that these three characters are all that is wrong.
-/

namespace AiMeshChat.Helper

open Lib Wire
open Ledger (OneLine NoSeparator jsonChars_oneLine escapeChar_oneLine no_cr_of_oneLine)

/-! ## The output of the helper -/

/-- `codeagent.__version__`. -/
def PACKAGE_VERSION : String := "0.2.10"

/-- The frame with which `main` begins. -/
def readyFrame : Json :=
  send (frame "ready" [("wire_version", .int WIRE_VERSION),
    ("package_version", .str PACKAGE_VERSION)])

/-- What the helper prints for one mailbox request. -/
def mailboxOutput (stdout stderr : String) (code : ℤ) : List UInt8 :=
  encode (spaced readyFrame ++ '\n' :: (spaced (mailboxResult stdout stderr code) ++ ['\n']))

/-- The client gets what the helper sent, whatever ssh prints and returns. -/
def RoundTrip (d : ℕ) (stdout stderr : String) (code : ℤ) : Prop :=
  ∀ (sshStderr : List UInt8) (status : ℤ),
    runSshMailbox d (mailboxOutput stdout stderr code) sshStderr status =
      .ok (code, stdout, stderr)

/-! ## Frames on their lines -/

theorem decodeLine_frame {d : ℕ} {type : String} {fields : List (String × Json)}
    (htype : type ≠ "") (hnd : (("type" :: fields.map (·.1))).Nodup)
    (hproper : Proper (d + 1) (frame type fields)) (hfits : Fits (frame type fields))
    (hversion : lenientVersion false type (.obj fields) = .obj fields)
    (hschema : ∀ schema, responseRequired type = some schema →
      checkFields (reprStr type ++ " message") (.obj fields) schema = .ok ()) :
    decodeLine (d + 1) false (spaced (frame type fields)) = .ok ⟨type, .obj fields⟩ := by
  have hloads := loads_spaced hproper
  obtain ⟨cs, hcs⟩ := jsonText_obj [',', ' '] [':', ' '] (("type", .str type) :: fields)
  have hstrip : strip (spaced (frame type fields)) = spaced (frame type fields) := by
    show strip (jsonText _ _ _) = jsonText _ _ _
    rw [frame, hcs, strip_braces]
  have hne : spaced (frame type fields) ≠ [] := by
    show jsonText _ _ _ ≠ []
    rw [frame, hcs]
    simp
  have hparse : parseObject (d + 1) "wire message" (spaced (frame type fields)) =
      .ok (frame type fields) := by
    rw [parseObject, hstrip, if_neg hne, if_neg (Nat.not_lt.mpr hfits), hloads]
    rfl
  have hpop : popKey (frame type fields) "type" = .obj fields := by
    have hfilter : fields.filter (fun kv => kv.1 ≠ "type") = fields := by
      refine List.filter_eq_self.mpr fun kv hkv => ?_
      have hno := (List.nodup_cons.mp hnd).1
      simp only [ne_eq, decide_eq_true_eq]
      exact fun h => hno (h ▸ List.mem_map_of_mem hkv)
    show Json.obj (List.filter _ (("type", Json.str type) :: fields)) = _
    rw [List.filter_cons_of_neg (by simp), hfilter]
  have hget : (frame type fields).get? "type" = some (.str type) := rfl
  rw [decodeLine, hparse]
  simp only [bind, Except.bind, hget, if_neg htype, hpop, hversion]
  cases hs : responseRequired type with
  | none => rfl
  | some schema =>
    simp only [hschema schema hs]
    rfl

/-- The fields of the answer. -/
def mailboxFields (stdout stderr : String) (code : ℤ) : List (String × Json) :=
  [("stdout", .str stdout), ("stderr", .str stderr), ("exit_code", .int code)]

/-- The frame with the answer. -/
def mailboxFrame (stdout stderr : String) (code : ℤ) : Json :=
  frame "mailbox_result" (mailboxFields stdout stderr code)

section Texts

variable {stdout stderr : String} {code : ℤ}

theorem mailboxFrame_keys : ("type" :: (mailboxFields stdout stderr code).map (·.1)).Nodup :=
  (by decide : ["type", "stdout", "stderr", "exit_code"].Nodup)

theorem mailboxFrame_proper (d : ℕ) (hcode : shortInt code.natAbs) :
    Proper (d + 1) (mailboxFrame stdout stderr code) := by
  refine ⟨mailboxFrame_keys, ?_, ?_, ?_, ?_, trivial⟩
  · cases d <;> trivial
  · cases d <;> trivial
  · cases d <;> trivial
  · cases d <;> exact hcode

theorem decodeLine_mailboxFrame (d : ℕ) (hcode : shortInt code.natAbs)
    (hfits : Fits (mailboxFrame stdout stderr code)) :
    decodeLine (d + 1) false (spaced (mailboxFrame stdout stderr code)) =
      .ok ⟨"mailbox_result", .obj (mailboxFields stdout stderr code)⟩ := by
  refine decodeLine_frame (by decide) mailboxFrame_keys (mailboxFrame_proper d hcode) hfits rfl
    fun _ hs => ?_
  cases hs
  rfl

theorem readyFrame_eq : readyFrame = frame "ready" [("wire_version", .int WIRE_VERSION),
    ("package_version", .str PACKAGE_VERSION)] := by
  refine send_of_fits ?_
  show List.length _ ≤ _
  decide

theorem decodeLine_readyFrame (d : ℕ) : decodeLine (d + 1) false (spaced readyFrame) =
    .ok ⟨"ready", .obj [("wire_version", .int WIRE_VERSION),
      ("package_version", .str PACKAGE_VERSION)]⟩ := by
  rw [readyFrame_eq]
  refine decodeLine_frame (by decide) (by decide) ?_ ?_ rfl fun schema hs => ?_
  · refine ⟨by simp, ?_, ?_, ?_, trivial⟩
    · cases d <;> trivial
    · have hshort : shortInt 2 := by decide
      cases d <;> exact hshort
    · cases d <;> trivial
  · show List.length _ ≤ _
    decide
  · cases hs
    rfl

theorem readyFrame_oneLine : OneLine (spaced readyFrame) := by
  rw [readyFrame_eq]
  decide

theorem mailboxFrame_text : spaced (mailboxFrame stdout stderr code) =
    "\x7b\"type\": \"mailbox_result\", \"stdout\": \"".toList ++
      (stdout.toList.flatMap escapeChar ++
        ("\", \"stderr\": \"".toList ++ (stderr.toList.flatMap escapeChar ++
          ("\", \"exit_code\": ".toList ++ (toString code).toList ++ ['\x7d'])))) := by
  show jsonText [',', ' '] [':', ' '] (frame "mailbox_result" (mailboxFields stdout stderr code)) = _
  simp [frame, mailboxFields, jsonText, membersText, jsonChars_eq]
  rfl

/-! ## One line each -/

theorem toString_oneLine (k : ℤ) : OneLine (toString k).toList := by
  intro c hc
  rcases toString_chars k c hc with hdigit | rfl
  · have hrange := Char.isDigit_iff_toNat.mp hdigit
    have hzero : '0'.toNat = 48 := rfl
    have hnine : '9'.toNat = 57 := rfl
    simp only [isBreak, List.mem_cons, List.not_mem_nil, or_false, decide_eq_false_iff_not]
    omega
  · decide

theorem escapeChar_separator {c : Char} (hc : c.toNat ∈ [0x85, 0x2028, 0x2029]) :
    escapeChar c = [c] := by
  simp only [List.mem_cons, List.not_mem_nil, or_false] at hc
  refine escapeChar_plain (by omega) ?_ ?_
  · intro h
    rw [h] at hc
    revert hc
    decide
  · intro h
    rw [h] at hc
    revert hc
    decide

theorem escapeChar_break (c : Char) : OneLine (escapeChar c) ∨ escapeChar c = [c] := by
  by_cases hc : c.toNat ∈ [0x85, 0x2028, 0x2029]
  · exact .inr (escapeChar_separator hc)
  · exact .inl (escapeChar_oneLine hc)

variable {b : Char} {s pre rest cs piece : List Char} {v : Json} {d : ℕ} {m : WireMessage}

theorem escape_break (hb : isBreak b = true) (h : s.flatMap escapeChar = pre ++ b :: rest) :
    ∃ s' : List Char, rest = s'.flatMap escapeChar := by
  induction s generalizing pre with
  | nil =>
    have hnil : ([] : List Char) = pre ++ b :: rest := h
    simp at hnil
  | cons c s ih =>
    rw [List.flatMap_cons] at h
    rcases List.append_eq_append_iff.mp h with ⟨pre', hpre, hrest⟩ | ⟨mid, hmid, hrest⟩
    · exact ih hrest
    · -- the boundary is in the escape of the first character, which is then this character
      cases mid with
      | nil => exact @ih [] hrest.symm
      | cons x mid =>
        obtain ⟨rfl, htail⟩ := List.cons.inj hrest
        rcases escapeChar_break c with hone | hone
        · have hmem : b ∈ escapeChar c := by
            rw [hmid]
            simp
          rw [hone b hmem] at hb
          cases hb
        · rw [hone] at hmid
          have hlen := congrArg List.length hmid
          simp only [List.length_append, List.length_cons, List.length_nil] at hlen
          have hmid : mid = [] := List.length_eq_zero_iff.mp (by omega)
          rw [hmid] at htail
          exact ⟨s, htail⟩

/-! ## A piece of the answer is no frame -/

theorem quote_of_escape {tail : List Char} (hquote : '"' ∉ pre) (hslash : '\\' ∉ pre)
    (h : pre ++ '"' :: tail = s.flatMap escapeChar ++ '"' :: rest) : tail = rest := by
  induction s generalizing pre with
  | nil =>
    cases pre with
    | nil => exact (List.cons.inj h).2
    | cons c pre =>
      have hc : c = '"' := (List.cons.inj h).1
      exact absurd (hc ▸ List.mem_cons_self ..) hquote
  | cons a s ih =>
    obtain ⟨x, xs, hx, hne⟩ := escapeChar_head a
    rw [List.flatMap_cons] at h
    cases pre with
    | nil =>
      rw [hx] at h
      exact absurd (List.cons.inj h).1.symm hne
    | cons c pre =>
      rcases escapeChar_slash a with ha | ⟨ys, ha⟩
      · rw [ha] at h
        exact ih (fun hm => hquote (List.mem_cons_of_mem _ hm))
          (fun hm => hslash (List.mem_cons_of_mem _ hm)) (List.cons.inj h).2
      · rw [ha] at h
        have hc : c = '\\' := (List.cons.inj h).1
        exact absurd (hc ▸ List.mem_cons_self ..) hslash

theorem scanAtom_get? (h : scanAtom cs = .ok (v, rest)) (key : String) : v.get? key = none := by
  have hnum {neg : Bool} {ds : List Char}
      (h : (scanUnsigned neg ds).elim (.error .invalid) .ok =
        (.ok (v, rest) : Except JsonErr (Json × List Char))) : v.get? key = none := by
    cases hu : scanUnsigned neg ds with
    | none =>
      rw [hu] at h
      cases h
    | some x =>
      rw [hu] at h
      cases h
      simp only [scanUnsigned, Option.bind_eq_bind, Option.bind_eq_some_iff] at hu
      obtain ⟨y, -, hy⟩ := hu
      split_ifs at hy <;> cases hy <;> rfl
  unfold scanAtom at h
  split at h
  · split at h <;> cases h
    rfl
  all_goals first
    | exact hnum h
    | (cases h; rfl)

theorem loads_scan (h : loads d cs = .ok v) : ∃ rest, scanValue d (skipWs cs) = .ok (v, rest) := by
  unfold loads at h
  split_ifs at h
  cases hv : scanValue d (skipWs cs) with
  | error e =>
    rw [hv] at h
    cases h
  | ok y =>
    rw [hv] at h
    simp only [bind, Except.bind] at h
    split_ifs at h
    cases h
    exact ⟨y.2, rfl⟩

theorem loads_member {key : String} {x : Json} (h : loads d cs = .ok v)
    (hget : v.get? key = some x) :
    ∃ r q name t t', skipWs cs = '\x7b' :: r ∧ skipWs r = '"' :: q ∧
      scanString q.length q = some (name, t) ∧ skipWs t = ':' :: t' := by
  obtain ⟨rest, hv⟩ := loads_scan h
  unfold scanValue at hv
  split at hv
  · next d r hr =>
    -- a list has no members
    unfold scanArray at hv
    split at hv
    · cases hv
      cases hget
    · cases hi : scanItems (scanValue d) (skipWs r).length (skipWs r) with
      | error e =>
        rw [hi] at hv
        cases hv
      | ok y =>
        rw [hi] at hv
        cases hv
        cases hget
  · next d r hr =>
    unfold scanObject at hv
    split at hv
    · cases hv
      cases hget
    · cases hm : scanMembers (scanValue d) (skipWs r).length (skipWs r) with
      | error e =>
        rw [hm] at hv
        cases hv
      | ok y =>
        unfold scanMembers at hm
        split at hm
        · next n q hlen hq =>
          split at hm
          · cases hm
          · next name t hname =>
            split at hm
            · next t' ht => exact ⟨r, q, name, t, t', hr, hq, hname, ht⟩
            · cases hm
        · cases hm
  · cases hv
  · cases hv
  · exact absurd hget (by rw [scanAtom_get? hv]; simp)

theorem strip_split (cs : List Char) : ∃ pre post, cs = pre ++ strip cs ++ post ∧
    pre.all isSpace = true := by
  refine ⟨cs.takeWhile isSpace,
    ((cs.dropWhile isSpace).reverse.takeWhile isSpace).reverse, ?_, ?_⟩
  · rw [strip, List.append_assoc, ← List.reverse_append, List.takeWhile_append_dropWhile,
      List.reverse_reverse, List.takeWhile_append_dropWhile]
  · exact List.all_takeWhile

theorem decodeLine_member {l : List Char} (h : decodeLine d false (strip l) = .ok m) :
    ∃ obj x, loads d (strip (strip l)) = .ok obj ∧ obj.get? "type" = some x := by
  unfold decodeLine at h
  cases hp : parseObject d "wire message" (strip l) with
  | error e =>
    rw [hp] at h
    cases h
  | ok obj =>
    rw [hp] at h
    simp only [bind, Except.bind] at h
    refine ⟨obj, ?_⟩
    cases hg : obj.get? "type" with
    | none =>
      rw [hg] at h
      cases h
    | some x =>
      refine ⟨x, ?_, rfl⟩
      unfold parseObject at hp
      split_ifs at hp
      cases hl : loads d (strip (strip l)) with
      | error e =>
        rw [hl] at hp
        cases e <;> cases hp
      | ok v =>
        rw [hl] at hp
        simp only at hp
        split_ifs at hp
        exact congrArg Except.ok (Except.ok.inj hp)

theorem skipWs_split (cs : List Char) : ∃ w, cs = w ++ skipWs cs ∧ w.all isWs = true :=
  ⟨cs.takeWhile isWs, (List.takeWhile_append_dropWhile ..).symm, List.all_takeWhile⟩

theorem decodeLine_split (h : decodeLine d false (strip piece) = .ok m) :
    ∃ pre r post q name t t' y, piece = pre ++ '\x7b' :: (r ++ post) ∧
      (∀ c ∈ pre, isSpace c = true ∨ isWs c = true) ∧ scanValue d ('\x7b' :: r) = .ok y ∧
      skipWs r = '"' :: q ∧ scanString q.length q = some (name, t) ∧ skipWs t = ':' :: t' := by
  obtain ⟨obj, x, hloads, hget⟩ := decodeLine_member h
  obtain ⟨r, q, name, t, t', hbrace, hq, hname, ht⟩ := loads_member hloads hget
  obtain ⟨rest, hscan⟩ := loads_scan hloads
  rw [hbrace] at hscan
  obtain ⟨pre₁, post₁, hpiece, hpre₁⟩ := strip_split piece
  obtain ⟨pre₂, post₂, hstrip, hpre₂⟩ := strip_split (strip piece)
  obtain ⟨w, hw, hws⟩ := skipWs_split (strip (strip piece))
  rw [hbrace] at hw
  refine ⟨pre₁ ++ pre₂ ++ w, r, post₂ ++ post₁, q, name, t, t', _, ?_, ?_, hscan, hq, hname, ht⟩
  · generalize strip (strip piece) = u at hstrip hw
    generalize strip piece = v at hpiece hstrip
    rw [hpiece, hstrip, hw]
    simp
  · intro c hc
    rcases List.mem_append.mp hc with hc | hc
    · rcases List.mem_append.mp hc with hc | hc
      · exact .inl (List.all_eq_true.mp hpre₁ c hc)
      · exact .inl (List.all_eq_true.mp hpre₂ c hc)
    · exact .inr (List.all_eq_true.mp hws c hc)

/-- **A later piece is no frame.**  It starts inside of a text; behind the text stand a
comma and the name of the next member. -/
theorem piece_not_frame {post : List Char} {c : Char} {more : List Char} (hc : isWs c = false)
    (hcolon : c ≠ ':')
    (h : piece ++ post = s.flatMap escapeChar ++ '"' :: ',' :: ' ' :: '"' :: c :: more) :
    decodeLine d false (strip piece) ≠ .ok m := by
  intro hm
  obtain ⟨pre, r, post', q, name, t, t', y, hpiece, hpre, -, hq, hname, ht⟩ := decodeLine_split hm
  obtain ⟨w, hw, hws⟩ := skipWs_split r
  -- the quote of the name is the first one, and no backslash stands before it
  have htext : (pre ++ '\x7b' :: w) ++ '"' :: (q ++ (post' ++ post)) =
      s.flatMap escapeChar ++ '"' :: ',' :: ' ' :: '"' :: c :: more := by
    rw [← h, hpiece, hw, hq]
    simp
  have hplain (y : Char) (hy : isSpace y = false) (hy' : isWs y = false) (hne : y ≠ '\x7b') :
      y ∉ pre ++ '\x7b' :: w := by
    intro hin
    rcases List.mem_append.mp hin with hin | hin
    · rcases hpre y hin with hsp | hsp
      · rw [hsp] at hy
        cases hy
      · rw [hsp] at hy'
        cases hy'
    · rcases List.mem_cons.mp hin with hin | hin
      · exact hne hin
      · rw [List.all_eq_true.mp hws y hin] at hy'
        cases hy'
  have htail := quote_of_escape (hplain '"' (by decide) (by decide) (by decide))
    (hplain '\\' (by decide) (by decide) (by decide)) htext
  -- so the name is a comma and a blank, and no colon follows
  have hscan := scanString_append (post' ++ post) hname (q.length + 2) (by omega)
  have hcomma : scanString (q.length + 2) (',' :: ' ' :: '"' :: c :: more) =
      some ([',', ' '], c :: more) := scanString_escape [',', ' '] (c :: more) _ (by simp)
  rw [htail, hcomma] at hscan
  have hrest : c :: more = t ++ (post' ++ post) := congrArg Prod.snd (Option.some.inj hscan)
  cases t with
  | nil => cases ht
  | cons y t =>
    have hy : c = y := (List.cons.inj hrest).1
    rw [← hy, skipWs, List.dropWhile_cons_of_neg (by rw [hc]; decide)] at ht
    exact hcolon (List.cons.inj ht).1

/-- **The first piece is no frame** if it is not the whole answer: where a dict has ended,
nothing follows. -/
theorem prefix_not_frame {more : List Char} (hcode : shortInt code.natAbs) (hmore : more ≠ [])
    (h : spaced (mailboxFrame stdout stderr code) = piece ++ more) :
    decodeLine d false (strip piece) ≠ .ok m := by
  intro hm
  obtain ⟨pre, r, post, -, -, -, -, y, hpiece, hpre, hscan, -⟩ := decodeLine_split hm
  cases d with
  | zero => cases hscan
  | succ d =>
    -- the answer starts with its brace, so there are no blanks in front of it
    obtain ⟨cs, hcs⟩ := jsonText_obj [',', ' '] [':', ' ']
      (("type", .str "mailbox_result") :: mailboxFields stdout stderr code)
    have htext : '\x7b' :: (cs ++ ['\x7d']) = pre ++ '\x7b' :: (r ++ (post ++ more)) := by
      have h : jsonText _ _ (mailboxFrame stdout stderr code) = piece ++ more := h
      rw [mailboxFrame, frame, hcs, hpiece] at h
      simpa using h
    have hnil : pre = [] := by
      cases pre with
      | nil => rfl
      | cons c pre =>
        have hc : '\x7b' = c := (List.cons.inj htext).1
        rcases hpre c (List.mem_cons_self ..) with hsp | hsp
        · rw [← hc] at hsp
          cases hsp
        · rw [← hc] at hsp
          cases hsp
    rw [hnil] at htext
    have hproper : Proper (d + 1) (mailboxFrame stdout stderr code) := mailboxFrame_proper d hcode
    have hback := readsBack separators (d + 1) _ [] hproper rfl
    rw [List.append_nil, mailboxFrame, frame, hcs] at hback
    have hfull : scanObject (scanValue d) (r ++ (post ++ more)) =
        .ok (mailboxFrame stdout stderr code, []) := by
      rw [← (List.cons.inj htext).2]
      exact hback
    have hkept := scanObject_kept (scanValue_stable d) (post ++ more) r
    have hscan : scanObject (scanValue d) r = .ok y := hscan
    rw [hscan] at hkept
    have hkept : scanObject (scanValue d) (r ++ (post ++ more)) = .ok (y.1, y.2 ++ (post ++ more)) :=
      hkept
    rw [hfull, Except.ok.injEq, Prod.mk.injEq] at hkept
    have hlen := congrArg List.length hkept.2
    simp only [List.length_nil, List.length_append] at hlen
    exact hmore (List.length_eq_zero_iff.mp (by omega))

/-! ## Where the answer is cut -/

theorem break_after (hb : isBreak b = true) {ds : List Char} (hcs : OneLine cs)
    (h : cs ++ ds = pre ++ b :: rest) : ∃ pre', ds = pre' ++ b :: rest := by
  rcases List.append_eq_append_iff.mp h with ⟨pre', -, hds⟩ | ⟨mid, hmid, hrest⟩
  · exact ⟨pre', hds⟩
  · cases mid with
    | nil => exact ⟨[], hrest.symm⟩
    | cons x mid =>
      obtain ⟨rfl, -⟩ := List.cons.inj hrest
      have hno := hcs b (by rw [hmid]; simp)
      rw [hno] at hb
      cases hb

theorem break_in_text (hb : isBreak b = true) {ds : List Char}
    (h : s.flatMap escapeChar ++ ds = pre ++ b :: rest) :
    (∃ s' : List Char, rest = s'.flatMap escapeChar ++ ds) ∨ ∃ pre', ds = pre' ++ b :: rest := by
  rcases List.append_eq_append_iff.mp h with ⟨pre', -, hds⟩ | ⟨mid, hmid, hrest⟩
  · exact .inr ⟨pre', hds⟩
  · cases mid with
    | nil => exact .inr ⟨[], hrest.symm⟩
    | cons x mid =>
      obtain ⟨rfl, htail⟩ := List.cons.inj hrest
      obtain ⟨s', hs'⟩ := escape_break hb hmid
      exact .inl ⟨s', by rw [htail, ← hs']; rfl⟩

theorem answer_break (hb : isBreak b = true)
    (h : spaced (mailboxFrame stdout stderr code) = pre ++ b :: rest) :
    ∃ (s : List Char) (c : Char) (more : List Char), isWs c = false ∧ c ≠ ':' ∧
      rest = s.flatMap escapeChar ++ '"' :: ',' :: ' ' :: '"' :: c :: more := by
  rw [mailboxFrame_text] at h
  obtain ⟨pre₁, h₁⟩ := break_after hb (by decide) h
  rcases break_in_text hb h₁ with ⟨s, hs⟩ | ⟨pre₂, h₂⟩
  · exact ⟨s, 's', _, rfl, by decide, hs⟩
  · obtain ⟨pre₃, h₃⟩ := break_after hb (by decide) h₂
    rcases break_in_text hb h₃ with ⟨s, hs⟩ | ⟨pre₄, h₄⟩
    · exact ⟨s, 'e', _, rfl, by decide, hs⟩
    · have hone : OneLine ("\", \"exit_code\": ".toList ++ (toString code).toList ++ ['\x7d']) :=
        (OneLine.append (by decide) (toString_oneLine code)).append (by decide)
      have hno := hone b (by rw [h₄]; simp)
      rw [hno] at hb
      cases hb

/-- **No piece is a frame** of an answer that has a line boundary in it. -/
theorem no_piece_is_frame (hcode : shortInt code.natAbs)
    (hbreak : ¬ OneLine (spaced (mailboxFrame stdout stderr code)))
    (hpiece : piece ∈ linesOn isBreak (spaced (mailboxFrame stdout stderr code) ++ ['\n']))
    (m : WireMessage) : decodeLine d false (strip piece) ≠ .ok m := by
  have hhead {cs l : List Char} (hl : (linesOn isBreak cs).head? = some l) :
      OneLine l ∧ ∃ post, cs = l ++ post := by
    obtain ⟨ls, hls⟩ := List.head?_eq_some_iff.mp hl
    obtain ⟨hone, hrest⟩ := linesOn_eq_cons hls
    rcases hrest with ⟨hcs, -⟩ | ⟨b, rest, -, hcs, -⟩
    · exact ⟨hone, [], by rw [hcs, List.append_nil]⟩
    · exact ⟨hone, _, hcs⟩
  rcases mem_linesOn hpiece with hfirst | ⟨pre, b, rest, hb, htext, hnext⟩
  · obtain ⟨hone, post, hpost⟩ := hhead hfirst
    rcases List.append_eq_append_iff.mp hpost with ⟨mid, hmid, -⟩ | ⟨mid, hmid, -⟩
    · exact absurd (fun c hc => hone c (by rw [hmid]; exact List.mem_append_left _ hc)) hbreak
    · refine prefix_not_frame hcode (fun hnil => hbreak ?_) hmid
      rw [hmid, hnil, List.append_nil]
      exact hone
  · obtain ⟨-, post, hpost⟩ := hhead hnext
    rcases List.append_eq_append_iff.mp htext with ⟨mid, -, hmid⟩ | ⟨mid, hmid, hrest⟩
    · -- nothing follows the newline at the end
      have hlen := congrArg List.length hmid
      simp only [List.length_append, List.length_cons, List.length_nil] at hlen
      rw [List.length_eq_zero_iff.mp (show rest.length = 0 by omega)] at hnext
      cases hnext
    · cases mid with
      | nil =>
        have hrest : b :: rest = ['\n'] := hrest
        rw [(List.cons.inj hrest).2] at hnext
        cases hnext
      | cons x mid =>
        obtain ⟨rfl, htail⟩ := List.cons.inj hrest
        obtain ⟨s, c, more, hc, hcolon, hs⟩ := answer_break hb hmid
        have htext : piece ++ post =
            s.flatMap escapeChar ++ '"' :: ',' :: ' ' :: '"' :: c :: (more ++ ['\n']) := by
          rw [← hpost, htail]
          show mid ++ ['\n'] = _
          rw [hs]
          simp
        exact piece_not_frame hc hcolon htext

/-! ## The round trip -/

theorem no_cr_of_printable (h : Printable cs) : '\r' ∉ cs := by
  intro hin
  exact absurd (h _ hin) (by decide)

theorem mailboxFrame_printable : Printable (spaced (mailboxFrame stdout stderr code)) := by
  refine jsonText_printable (by decide) (by decide) ?_
  refine ⟨trivial, trivial, trivial, trivial, trivial⟩

theorem localLines_mailboxOutput (hfits : Fits (mailboxFrame stdout stderr code)) :
    localLines (mailboxOutput stdout stderr code) = spaced readyFrame ::
      linesOn isBreak (spaced (mailboxFrame stdout stderr code) ++ ['\n']) := by
  have hsend : mailboxResult stdout stderr code = mailboxFrame stdout stderr code :=
    send_of_fits hfits
  have hcr : '\r' ∉ spaced readyFrame ++ '\n' :: (spaced (mailboxFrame stdout stderr code) ++
      ['\n']) := by
    simp only [List.mem_append, List.mem_cons, List.not_mem_nil, or_false, not_or]
    exact ⟨no_cr_of_oneLine readyFrame_oneLine, by decide,
      no_cr_of_printable mailboxFrame_printable, by decide⟩
  rw [localLines, mailboxOutput, utf8Replace_encode, hsend, splitLines, joinCrLf_of_no_cr hcr,
    linesOn_line readyFrame_oneLine (by decide)]

theorem mem_framesRead {ls : List (List Char)} :
    ∀ {bad : ℕ}, m ∈ (framesRead d bad ls).1 → ∃ l ∈ ls, decodeLine d false l = .ok m := by
  induction ls with
  | nil =>
    intro bad h
    cases h
  | cons l ls ih =>
    intro bad h
    rw [framesRead] at h
    cases hl : decodeLine d false l with
    | error e =>
      rw [hl] at h
      cases e with
      | recursion => cases h
      | value text =>
        simp only at h
        split_ifs at h
        · cases h
        · obtain ⟨l', hl', hm⟩ := ih h
          exact ⟨l', List.mem_cons_of_mem _ hl', hm⟩
    | ok m' =>
      rw [hl] at h
      rcases List.mem_cons.mp h with rfl | h
      · exact ⟨l, List.mem_cons_self .., hl⟩
      · obtain ⟨l', hl', hm⟩ := ih h
        exact ⟨l', List.mem_cons_of_mem _ hl', hm⟩

theorem escape_oneLine_iff (s : String) :
    OneLine (s.toList.flatMap escapeChar) ↔ NoSeparator s := by
  constructor
  · intro h c hc hsep
    have hmem : c ∈ escapeChar c := by
      rw [escapeChar_separator hsep]
      exact List.mem_singleton_self _
    have hno := h c (List.mem_flatMap.mpr ⟨c, hc, hmem⟩)
    simp only [isBreak, List.mem_cons, List.not_mem_nil, or_false, decide_eq_false_iff_not]
      at hno hsep
    omega
  · intro h x hx
    obtain ⟨c, hc, hxc⟩ := List.mem_flatMap.mp hx
    exact escapeChar_oneLine (h c hc) x hxc

theorem mailboxFrame_oneLine_iff : OneLine (spaced (mailboxFrame stdout stderr code)) ↔
    NoSeparator stdout ∧ NoSeparator stderr := by
  rw [mailboxFrame_text, ← escape_oneLine_iff, ← escape_oneLine_iff]
  constructor
  · intro h
    refine ⟨fun c hc => h c ?_, fun c hc => h c ?_⟩
    · exact List.mem_append_right _ (List.mem_append_left _ hc)
    · exact List.mem_append_right _ (List.mem_append_right _ (List.mem_append_right _
        (List.mem_append_left _ hc)))
  · intro h
    refine OneLine.append (by decide) (h.1.append (OneLine.append (by decide) (h.2.append ?_)))
    exact (OneLine.append (by decide) (toString_oneLine code)).append (by decide)

/-- The message that the ready frame is decoded to. -/
def readyMessage : WireMessage := ⟨"ready", .obj [("wire_version", .int WIRE_VERSION),
  ("package_version", .str PACKAGE_VERSION)]⟩

theorem strip_spaced (fields : List (String × Json)) :
    strip (spaced (.obj fields)) = spaced (.obj fields) ∧ spaced (.obj fields) ≠ [] := by
  obtain ⟨cs, hcs⟩ := jsonText_obj [',', ' '] [':', ' '] fields
  show strip (jsonText _ _ _) = jsonText _ _ _ ∧ jsonText _ _ _ ≠ []
  rw [hcs]
  exact ⟨strip_braces cs, by simp⟩

theorem nonBlank_cons (fields : List (String × Json)) (ls : List (List Char)) :
    nonBlank (spaced (.obj fields) :: ls) = spaced (.obj fields) :: nonBlank ls := by
  obtain ⟨hstrip, hne⟩ := strip_spaced fields
  simp [nonBlank, hstrip, hne]

theorem nonBlank_output (hfits : Fits (mailboxFrame stdout stderr code)) :
    nonBlank (localLines (mailboxOutput stdout stderr code)) = spaced readyFrame ::
      nonBlank (linesOn isBreak (spaced (mailboxFrame stdout stderr code) ++ ['\n'])) := by
  rw [localLines_mailboxOutput hfits, readyFrame_eq]
  exact nonBlank_cons _ _

theorem roundTrip_of_oneLine (d : ℕ) (hcode : code ≠ -1) (hshort : shortInt code.natAbs)
    (hfits : Fits (mailboxFrame stdout stderr code))
    (hone : OneLine (spaced (mailboxFrame stdout stderr code))) :
    RoundTrip (d + 1) stdout stderr code := by
  intro sshStderr status
  have hlines : nonBlank (localLines (mailboxOutput stdout stderr code)) =
      [spaced readyFrame, spaced (mailboxFrame stdout stderr code)] := by
    rw [nonBlank_output hfits, linesOn_line hone (by decide)]
    exact congrArg _ (nonBlank_cons _ _)
  have hready : decodeLine (d + 1) false (spaced readyFrame) = .ok readyMessage :=
    decodeLine_readyFrame d
  have hanswer := decodeLine_mailboxFrame d hshort hfits
  have hms : framesRead (d + 1) 0 (nonBlank (localLines (mailboxOutput stdout stderr code))) =
      ([readyMessage, ⟨"mailbox_result", .obj (mailboxFields stdout stderr code)⟩], false) := by
    simp only [hlines, framesRead, hready, hanswer]
  have hbroken : brokenRead (d + 1) 0 (nonBlank (localLines (mailboxOutput stdout stderr code))) =
      false := by
    simp only [hlines, brokenRead, hready, hanswer]
  have hrun := runSshMailbox_eq (d + 1) (mailboxOutput stdout stderr code) sshStderr status hms
  rw [if_neg, if_neg (by decide), hbroken] at hrun
  · rw [hrun]
    simp [List.foldl, takeMailbox, readyMessage, MailboxReply.spoil, Wire.mailboxResult,
      refuseInvalid, WireMessage.mailboxFields, mailboxFields, Json.get?, List.lookup_cons, hcode]
  · intro hmis
    obtain ⟨m, hm, htype, hversion⟩ := hmis
    simp only [List.mem_cons, List.not_mem_nil, or_false] at hm
    rcases hm with rfl | rfl
    · exact hversion rfl
    · exact absurd htype (by decide : ¬ "mailbox_result" = "ready")

theorem not_roundTrip_of_break (d : ℕ) (hshort : shortInt code.natAbs)
    (hfits : Fits (mailboxFrame stdout stderr code))
    (hbreak : ¬ OneLine (spaced (mailboxFrame stdout stderr code))) :
    ¬ RoundTrip (d + 1) stdout stderr code := by
  intro hround
  have hrun := hround [] 0
  generalize hls : nonBlank (linesOn isBreak (spaced (mailboxFrame stdout stderr code) ++ ['\n'])) =
    ls
  have hnone : ∀ bad, (framesRead (d + 1) bad ls).1 = [] := by
    intro bad
    refine List.eq_nil_iff_forall_not_mem.mpr fun m hm => ?_
    obtain ⟨l, hl, hok⟩ := mem_framesRead hm
    rw [← hls] at hl
    obtain ⟨piece, hpiece, rfl⟩ := List.mem_map.mp (List.mem_of_mem_filter hl)
    exact no_piece_is_frame hshort hbreak hpiece m hok
  have hready : decodeLine (d + 1) false (spaced readyFrame) = .ok readyMessage :=
    decodeLine_readyFrame d
  have hms : framesRead (d + 1) 0 (nonBlank (localLines (mailboxOutput stdout stderr code))) =
      ([readyMessage], (framesRead (d + 1) 0 ls).2) := by
    simp only [nonBlank_output hfits, hls, framesRead, hready, hnone]
  have hans := runSshMailbox_eq (d + 1) (mailboxOutput stdout stderr code) [] 0 hms
  have hmis : ¬ ∃ m ∈ [readyMessage], m.Mismatch := by
    intro hmis
    obtain ⟨m, hm, -, hversion⟩ := hmis
    rw [List.mem_singleton.mp hm] at hversion
    exact hversion rfl
  rw [if_neg hmis, hrun] at hans
  cases hdeep : (framesRead (d + 1) 0 ls).2 with
  | true =>
    rw [hdeep] at hans
    cases hans
  | false =>
    rw [hdeep, if_neg (by decide), Except.ok.injEq] at hans
    refine hbreak (mailboxFrame_oneLine_iff.mpr ?_)
    cases hbroken : brokenRead (d + 1) 0
        (nonBlank (localLines (mailboxOutput stdout stderr code))) with
    | true =>
      rw [hbroken] at hans
      have hans : (code, stdout, stderr) =
          (1, "", "invalid mailbox_result response from remote helper") := hans
      cases hans
      exact ⟨by decide, by decide⟩
    | false =>
      rw [hbroken] at hans
      have hans : (code, stdout, stderr) = (1, "", NO_TERMINAL_FRAME_MSG) := hans
      cases hans
      exact ⟨by decide, by decide⟩

/-- **The round trip** of a mailbox answer holds exactly if neither text has U+0085, U+2028
or U+2029 in it. -/
theorem round_trip_iff (d : ℕ) (stdout stderr : String) (code : ℤ) (hcode : code ≠ -1)
    (hshort : shortInt code.natAbs) (hfits : Fits (mailboxFrame stdout stderr code)) :
    RoundTrip (d + 1) stdout stderr code ↔ NoSeparator stdout ∧ NoSeparator stderr := by
  rw [← @mailboxFrame_oneLine_iff stdout stderr code]
  constructor
  · intro h
    by_contra hbreak
    exact not_roundTrip_of_break d hshort hfits hbreak h
  · exact roundTrip_of_oneLine d hcode hshort hfits

end Texts

/-- A text with other characters outside of ASCII and a newline comes back. -/
theorem round_trip_iff_lines : RoundTrip 9 "é\nü" "" 0 := by
  have hfits : Fits (mailboxFrame "é\nü" "" 0) := by
    show List.length _ ≤ _
    decide +kernel
  exact (round_trip_iff 8 "é\nü" "" 0 (by decide) (by decide) hfits).mpr (by decide)

/-! ### A line separator -/

/-- A successful answer with U+2028 in its output arrives as a failure without output. -/
theorem separator_cuts_answer : ¬ ∀ d stdout stderr code, code ≠ -1 → shortInt code.natAbs →
    Fits (mailboxFrame stdout stderr code) → RoundTrip (d + 1) stdout stderr code := by
  intro h
  have hfits : Fits (mailboxFrame "a\u2028b" "" 0) := by
    show List.length _ ≤ _
    decide +kernel
  have hround := h 8 "a\u2028b" "" 0 (by decide) (by decide) hfits [] 0
  have hrun : runSshMailbox 9 (mailboxOutput "a\u2028b" "" 0) [] 0 =
      .ok (1, "", "invalid mailbox_result response from remote helper") := by
    decide +kernel
  rw [hrun] at hround
  exact absurd hround (by decide)

end AiMeshChat.Helper
