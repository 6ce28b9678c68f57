import AiMeshChat.Kernel.State
import AiMeshChat.Lib.Paging
import AiMeshChat.Mailbox.Claims
import Mathlib.Data.String.Basic

/-!
# Reading an inbox page by page

`SwarmKernel.poll`. The files of an inbox are walked in the order of their modification
times, and a page ends after `limit` messages. The cursor is the pair of `created_at` and
`msg_id` of the last message, written as one text; on the next page every message is
skipped whose pair is at most that.

So an inbox is read completely only where the two orders agree: `poll_complete_iff`. The
times have a resolution of one second and the ids are random, and two messages of one
second are enough for them to disagree.

A readable message is a JSON object; its fields may have any values or be missing. The
callbacks of subscriptions have no effect on the result and are left out. The directory
is listed in the same order by every call, since it does not change.
-/

namespace AiMeshChat.Kernel.Poll

open Mailbox (agentIdOk isMessageName)
open Lib.Paging

/-- What `poll` raises: an error of the checks, a `KeyError` or a `TypeError`. -/
inductive PollError
  | kernel (e : PyErr)
  | key (name : String)
  | type
  deriving DecidableEq

/-- A file of an inbox, with the JSON object in it; `none` if it cannot be read. -/
structure InboxFile where
  name : String
  mtime : ℕ
  fields : Option (List (String × Json))

/-- The files of an inbox, in the order in which the directory is listed. -/
structure Inbox where
  files : List InboxFile
  nodup : (files.map (·.name)).Nodup

/-- A message with the name of the file that it was read from. -/
structure Entry where
  name : String
  fields : List (String × Json)
  deriving DecidableEq

/-- `list_messages`: the oldest files first. -/
def Inbox.listMessages (inbox : Inbox) : List InboxFile :=
  (inbox.files.filter (isMessageName ·.name)).insertionSort fun f g => f.mtime ≤ g.mtime

/-- The messages of an inbox that can be read. -/
def Inbox.readable (inbox : Inbox) : List Entry :=
  inbox.listMessages.filterMap fun f => f.fields.map (Entry.mk f.name)

/-! ## Cursors -/

/-- `cursor.rsplit("|", 1)`; `none` if there is no bar. -/
def rsplitBar : List Char → Option (List Char × List Char)
  | [] => none
  | c :: cs =>
    match rsplitBar cs with
    | some (ts, id) => some (c :: ts, id)
    | none => if c = '|' then some ([], cs) else none

/-- The time and the id that a cursor stands for. -/
def parseCursor (cursor : String) : String × String :=
  match rsplitBar cursor.toList with
  | some (ts, id) => (String.ofList ts, String.ofList id)
  | none => (cursor, "")

/-- `msg.get(key, "")`. -/
def Entry.get (e : Entry) (key : String) : Json := (e.fields.lookup key).getD (.str "")

/-- `msg[key]`. -/
def Entry.item (e : Entry) (key : String) : Except PollError Json :=
  match e.fields.lookup key with
  | some v => .ok v
  | none => .error (.key key)

/-- `v <= text`, which raises unless `v` is a text. -/
def leText (v : Json) (text : String) : Except PollError Bool :=
  match v with
  | .str s => .ok (s ≤ text)
  | _ => .error .type

/-- `(msg_ts, msg_id) <= (cursor_ts, cursor_id)`: the ids decide if the times are equal. -/
def Entry.atMost (e : Entry) (c : String × String) : Except PollError Bool :=
  if e.get "created_at" = .str c.1 then leText (e.get "msg_id") c.2
  else leText (e.get "created_at") c.1

/-- Whether a message was seen before the cursor; an empty cursor has seen none. -/
def seen (cursor : String) (e : Entry) : Except PollError Bool :=
  if cursor = "" then .ok false else e.atMost (parseCursor cursor)

/-- The cursor after a message. -/
def Entry.cursor (e : Entry) : Except PollError String := do
  let ts ← e.item "created_at"
  let id ← e.item "msg_id"
  return strOf ts ++ "|" ++ strOf id

/-! ## `poll` -/

/-- `PollResult`. -/
abbrev PollResult := Page Entry String

/-- `poll`, with the inboxes of all agents. -/
def poll (k : Mem) (inboxes : String → String → Inbox) (sid aid cursor : String) (limit : ℕ) :
    Except PollError PollResult := do
  let _ ← (requireSession k sid).mapError .kernel
  (validateAgentId aid).mapError .kernel
  (validateAgentId sid).mapError .kernel
  page seen Entry.cursor limit (inboxes sid aid).readable cursor

/-- Feed every cursor back until there is no more; `none` if `n` calls are not enough. -/
def pollAll (k : Mem) (inboxes : String → String → Inbox) (sid aid : String) (limit : ℕ) :
    ℕ → String → Option (Except PollError (List Entry))
  | 0, _ => none
  | n + 1, cursor =>
    match poll k inboxes sid aid cursor limit with
    | .error e => some (.error e)
    | .ok r =>
      if r.hasMore then
        (pollAll k inboxes sid aid limit n r.cursor).map (·.map (r.items ++ ·))
      else some (.ok r.items)

/-- At the end of every full page, the messages up to there are at most the cursor, and all
others are more. -/
abbrev OrdersAgree (inbox : Inbox) (limit : ℕ) : Prop :=
  Splits seen Entry.cursor limit inbox.readable

/-! ## The cursor goes forward -/

theorem rsplitBar_append (l : List Char) {r ts id : List Char} (h : rsplitBar r = some (ts, id)) :
    rsplitBar (l ++ r) = some (l ++ ts, id) := by
  induction l with
  | nil => exact h
  | cons c l ih => rw [List.cons_append, rsplitBar, ih, List.cons_append]

theorem parseCursor_text (ts id : String) : parseCursor (ts ++ "|" ++ id) = (ts, id) ∨
    ts < (parseCursor (ts ++ "|" ++ id)).1 := by
  have htext : (ts ++ "|" ++ id).toList = ts.toList ++ '|' :: id.toList := by
    simp [String.toList_append]
  unfold parseCursor
  rw [htext]
  cases hid : rsplitBar id.toList with
  | none =>
    have hbar : rsplitBar ('|' :: id.toList) = some ([], id.toList) := by
      simp [rsplitBar, hid]
    rw [rsplitBar_append ts.toList hbar]
    simp
  | some x =>
    obtain ⟨a, b⟩ := x
    have hbar : rsplitBar ('|' :: id.toList) = some ('|' :: a, b) := by
      simp [rsplitBar, hid]
    rw [rsplitBar_append ts.toList hbar]
    refine .inr ?_
    rw [String.lt_iff_toList_lt, String.toList_ofList]
    have hlt : ts.toList ++ [] < ts.toList ++ '|' :: a := List.append_left_lt (List.nil_lt_cons _ _)
    rwa [List.append_nil] at hlt

theorem leText_eq_false {v : Json} {text : String} (h : leText v text = .ok false) :
    ∃ s, v = .str s ∧ text < s := by
  cases v with
  | str s =>
    injection h with h
    exact ⟨s, rfl, not_le.mp (of_decide_eq_false h)⟩
  | _ => cases h

theorem atMost_eq_false {e : Entry} {c : String × String} :
    e.atMost c = .ok false ↔ ∃ ts, e.get "created_at" = .str ts ∧
      (c.1 < ts ∨ ts = c.1 ∧ ∃ id, e.get "msg_id" = .str id ∧ c.2 < id) := by
  unfold Entry.atMost
  constructor
  · intro h
    split at h
    · next hts =>
      obtain ⟨id, hid, hlt⟩ := leText_eq_false h
      exact ⟨c.1, hts, .inr ⟨rfl, id, hid, hlt⟩⟩
    · obtain ⟨ts, hts, hlt⟩ := leText_eq_false h
      exact ⟨ts, hts, .inl hlt⟩
  · rintro ⟨ts, hts, hlt | ⟨rfl, id, hid, hlt⟩⟩
    · have hne : ts ≠ c.1 := fun he => lt_irrefl _ (he ▸ hlt)
      rw [hts, if_neg (fun he => hne (Json.str.inj he)), leText, decide_eq_false (not_le.mpr hlt)]
    · rw [hts, if_pos rfl, hid, leText, decide_eq_false (not_le.mpr hlt)]

theorem cursor_eq_ok {e : Entry} {text : String} (h : e.cursor = .ok text) :
    text = strOf (e.get "created_at") ++ "|" ++ strOf (e.get "msg_id") := by
  unfold Entry.cursor Entry.item at h
  unfold Entry.get
  cases hts : e.fields.lookup "created_at" with
  | none => rw [hts] at h; cases h
  | some ts =>
    cases hid : e.fields.lookup "msg_id" with
    | none => rw [hts, hid] at h; cases h
    | some id =>
      rw [hts, hid] at h
      injection h with h
      exact h.symm

theorem text_ne_empty (ts id : String) : ts ++ "|" ++ id ≠ "" := by
  intro h
  have hlist := congrArg String.toList h
  simp [String.toList_append] at hlist

/-- **The cursor of a message that was returned is after the one that it was returned by.** -/
theorem seen_advances : Advances seen Entry.cursor := by
  intro c e c' x he hcursor hx
  unfold seen at he hx ⊢
  split
  · rfl
  · next hc =>
    rw [if_neg hc] at he
    obtain ⟨ts, hts, he⟩ := atMost_eq_false.mp he
    have htext := cursor_eq_ok hcursor
    rw [hts] at htext
    subst htext
    rw [if_neg (text_ne_empty _ _)] at hx
    obtain ⟨u, hu, hx⟩ := atMost_eq_false.mp hx
    refine atMost_eq_false.mpr ⟨u, hu, ?_⟩
    -- the pair of the new cursor is after that of the old one
    have hafter : (parseCursor c).1 < (parseCursor (strOf (.str ts) ++ "|" ++
        strOf (e.get "msg_id"))).1 ∨ (parseCursor c).1 = (parseCursor (strOf (.str ts) ++ "|" ++
        strOf (e.get "msg_id"))).1 ∧ (parseCursor c).2 < (parseCursor (strOf (.str ts) ++ "|" ++
        strOf (e.get "msg_id"))).2 := by
      rcases parseCursor_text ts (strOf (e.get "msg_id")) with heq | hlonger
      · rw [show strOf (.str ts) = ts from rfl, heq]
        rcases he with hlt | ⟨rfl, id, hid, hlt⟩
        · exact .inl hlt
        · exact .inr ⟨rfl, by rw [hid]; exact hlt⟩
      · rcases he with hlt | ⟨rfl, _⟩
        · exact .inl (hlt.trans hlonger)
        · exact .inl hlonger
    rcases hx with hlt | ⟨hueq, v, hv, hlt⟩
    · rcases hafter with hafter | ⟨hafter, _⟩
      · exact .inl (hafter.trans hlt)
      · exact .inl (hafter ▸ hlt)
    · rcases hafter with hafter | ⟨hafter, hid⟩
      · exact .inl (hueq ▸ hafter)
      · exact .inr ⟨hueq.trans hafter.symm, v, hv, hid.trans hlt⟩

/-! ## Completeness -/

theorem readable_names (l : List InboxFile) :
    ((l.filterMap fun f => f.fields.map (Entry.mk f.name)).map (·.name)).Sublist
      (l.map (·.name)) := by
  induction l with
  | nil => exact List.Sublist.refl _
  | cons f l ih =>
    cases hf : f.fields with
    | none =>
      rw [List.filterMap_cons_none (by rw [hf]; rfl)]
      exact ih.cons _
    | some fields =>
      rw [List.filterMap_cons_some (by rw [hf]; rfl)]
      exact ih.cons_cons _

theorem readable_nodup (inbox : Inbox) : inbox.readable.Nodup := by
  have hperm : inbox.listMessages.Perm (inbox.files.filter (isMessageName ·.name)) :=
    List.perm_insertionSort _ _
  have hnames : (inbox.listMessages.map (·.name)).Nodup :=
    ((hperm.map _).nodup_iff).mpr (inbox.nodup.sublist (List.filter_sublist.map _))
  exact List.Nodup.of_map _ (hnames.sublist (readable_names _))

theorem pollAll_eq {k : Mem} (inboxes : String → String → Inbox) {sid aid : String}
    (hs : (k.sessions sid).isSome) (hsid : agentIdOk sid = true) (haid : agentIdOk aid = true)
    (limit n : ℕ) (cursor : String) : pollAll k inboxes sid aid limit n cursor =
      Lib.Paging.pageAll seen Entry.cursor limit (inboxes sid aid).readable n cursor := by
  have hpoll (cursor : String) : poll k inboxes sid aid cursor limit =
      page seen Entry.cursor limit (inboxes sid aid).readable cursor := by
    obtain ⟨s, hs⟩ := Option.isSome_iff_exists.mp hs
    unfold poll validateAgentId requireSession
    rw [hs, haid, hsid]
    rfl
  induction n generalizing cursor with
  | zero => rfl
  | succ n ih =>
    unfold pollAll pageAll
    rw [hpoll]
    cases page seen Entry.cursor limit (inboxes sid aid).readable cursor with
    | error e => rfl
    | ok r =>
      dsimp only
      rw [ih]

/-- **Polling until there is no more returns every message once exactly if the two orders
agree at the end of every full page**, whatever the inbox holds. -/
theorem poll_complete_iff {k : Mem} (inboxes : String → String → Inbox) {sid aid : String}
    (hs : (k.sessions sid).isSome) (hsid : agentIdOk sid = true) (haid : agentIdOk aid = true)
    {limit : ℕ} (hlimit : 1 ≤ limit) :
    (∃ n out, pollAll k inboxes sid aid limit n "" = some (.ok out) ∧
        out.Perm (inboxes sid aid).readable) ↔ OrdersAgree (inboxes sid aid) limit := by
  simp only [pollAll_eq inboxes hs hsid haid]
  exact complete_iff seen_advances hlimit (readable_nodup _) fun _ _ => if_pos rfl

/-! ## Inboxes in order -/

/-- A message with texts for its time and its id, and no bar in the id. -/
structure Entry.Plain (e : Entry) (c : String × String) : Prop where
  createdAt : e.fields.lookup "created_at" = some (.str c.1)
  msgId : e.fields.lookup "msg_id" = some (.str c.2)
  noBar : '|' ∉ c.2.toList

/-- One pair is before another: by the time, then by the id. -/
def Before (c d : String × String) : Prop := c.1 < d.1 ∨ c.1 = d.1 ∧ c.2 < d.2

theorem rsplitBar_eq_none {cs : List Char} (h : '|' ∉ cs) : rsplitBar cs = none := by
  induction cs with
  | nil => rfl
  | cons c cs ih =>
    rw [List.mem_cons, not_or] at h
    rw [rsplitBar, ih h.2]
    exact if_neg (Ne.symm h.1)

theorem Entry.Plain.cursor {e : Entry} {c : String × String} (h : e.Plain c) :
    e.cursor = .ok (c.1 ++ "|" ++ c.2) ∧ parseCursor (c.1 ++ "|" ++ c.2) = c := by
  constructor
  · simp only [Entry.cursor, Entry.item, h.createdAt, h.msgId, bind, Except.bind]
    rfl
  · have htext : (c.1 ++ "|" ++ c.2).toList = c.1.toList ++ '|' :: c.2.toList := by
      simp [String.toList_append]
    have hbar : rsplitBar ('|' :: c.2.toList) = some ([], c.2.toList) := by
      simp [rsplitBar, rsplitBar_eq_none h.noBar]
    rw [parseCursor, htext, rsplitBar_append _ hbar]
    simp

theorem Entry.Plain.atMost {e : Entry} {c : String × String} (h : e.Plain c)
    (d : String × String) : (Before d c → e.atMost d = .ok false) ∧
      (Before c d ∨ c = d → e.atMost d = .ok true) := by
  have hts : e.get "created_at" = .str c.1 := by rw [Entry.get, h.createdAt]; rfl
  have hid : e.get "msg_id" = .str c.2 := by rw [Entry.get, h.msgId]; rfl
  constructor
  · rintro (hlt | ⟨heq, hlt⟩)
    · exact atMost_eq_false.mpr ⟨c.1, hts, .inl hlt⟩
    · exact atMost_eq_false.mpr ⟨c.1, hts, .inr ⟨heq.symm, c.2, hid, hlt⟩⟩
  · unfold Entry.atMost
    rw [hts, hid]
    rintro ((hlt | ⟨heq, hlt⟩) | rfl)
    · have hne : ¬ Json.str c.1 = .str d.1 := fun he => hlt.ne (Json.str.inj he)
      rw [if_neg hne, leText, decide_eq_true hlt.le]
    · rw [if_pos (heq ▸ rfl), leText, decide_eq_true hlt.le]
    · rw [if_pos rfl, leText, decide_eq_true le_rfl]

theorem ordersAgree_of_sorted {inbox : Inbox} {limit : ℕ} (hlimit : 1 ≤ limit)
    (pair : Entry → String × String) (hplain : ∀ e ∈ inbox.readable, e.Plain (pair e))
    (hsorted : inbox.readable.Pairwise fun e f => Before (pair e) (pair f)) :
    OrdersAgree inbox limit := by
  refine ⟨fun e he => ⟨_, (hplain e (List.mem_of_getLast? he)).cursor.1⟩, fun k hk hle => ?_⟩
  have hpos : 0 < k * limit := Nat.mul_pos hk hlimit
  obtain ⟨front, e, htake⟩ : ∃ front e, inbox.readable.take (k * limit) = front ++ [e] := by
    have hne : inbox.readable.take (k * limit) ≠ [] := by
      intro hnil
      have hlen : (inbox.readable.take (k * limit)).length = 0 := by rw [hnil]; rfl
      rw [List.length_take] at hlen
      omega
    exact ⟨_, _, (List.dropLast_append_getLast hne).symm⟩
  rw [← List.take_append_drop (k * limit) inbox.readable, htake] at hsorted hplain
  obtain ⟨hfront, _, hdrop⟩ := List.pairwise_append.mp hsorted
  obtain ⟨_, _, hlast⟩ := List.pairwise_append.mp hfront
  have he := (hplain e (by simp)).cursor
  have hseen (x : Entry) : seen ((pair e).1 ++ "|" ++ (pair e).2) x = x.atMost (pair e) := by
    rw [seen, if_neg (text_ne_empty _ _), he.2]
  refine ⟨e, _, by rw [htake]; simp, he.1, fun x hx => ?_, fun x hx => ?_⟩
  · rw [hseen]
    rw [htake] at hx
    refine ((hplain x (List.mem_append_left _ hx)).atMost _).2 ?_
    rcases List.mem_append.mp hx with hx | hx
    · exact .inl (hlast x hx e List.mem_cons_self)
    · exact .inr (by rw [List.mem_singleton.mp hx])
  · rw [hseen]
    exact ((hplain x (List.mem_append_right _ hx)).atMost _).1 (hdrop e (by simp) x hx)

/-! ### Two messages of one second -/

/-- A kernel with the session `s1`. -/
def kernelS1 : Mem :=
  (createSession ⟨{}, fun _ => {}⟩ { sessionId := "s1", managerId := "m", roster := ["w"] } "").2.mem

/-- A message of noon. -/
def noon (id : String) : Entry :=
  ⟨id ++ ".json", [("msg_id", .str id), ("created_at", .str "12:00:00")]⟩

/-- An inbox with two messages, the first of which was written first. -/
def twoMessages (id id' : String) (h : id ++ ".json" ≠ id' ++ ".json") : Inbox where
  files := [⟨id ++ ".json", 1, some (noon id).fields⟩, ⟨id' ++ ".json", 2, some (noon id').fields⟩]
  nodup := by simp [h]

theorem noon_plain {id : String} (h : '|' ∉ id.toList) : (noon id).Plain ("12:00:00", id) :=
  ⟨rfl, rfl, h⟩

theorem poll_complete_iff_two : ∃ n out,
    pollAll kernelS1 (fun _ _ => twoMessages "a" "b" (by decide)) "s1" "w" 1 n "" = some (.ok out) ∧
      out.Perm (twoMessages "a" "b" (by decide)).readable := by
  refine (poll_complete_iff _ (by decide +kernel) (by decide) (by decide) le_rfl).mpr ?_
  have hread : (twoMessages "a" "b" (by decide)).readable = [noon "a", noon "b"] := by
    decide +kernel
  refine ordersAgree_of_sorted le_rfl
    (fun e => ("12:00:00", strOf (e.get "msg_id"))) (fun e he => ?_) ?_
  · rw [hread] at he
    rcases List.mem_cons.mp he with rfl | he
    · exact noon_plain (by decide)
    · rw [List.mem_singleton.mp he]
      exact noon_plain (by decide)
  · rw [hread]
    refine List.pairwise_pair.mpr (.inr ⟨rfl, ?_⟩)
    decide

/-- The second message of a page is lost if its id comes first. -/
theorem poll_skips_message : ¬ ∀ (k : Mem) (inboxes : String → String → Inbox) (sid aid : String)
    (limit : ℕ), (k.sessions sid).isSome → agentIdOk sid = true → agentIdOk aid = true →
    1 ≤ limit → ∃ n out, pollAll k inboxes sid aid limit n "" = some (.ok out) ∧
      out.Perm (inboxes sid aid).readable := by
  intro h
  have hs : (kernelS1.sessions "s1").isSome := by decide +kernel
  obtain ⟨n, out, hall, hperm⟩ := h kernelS1 (fun _ _ => twoMessages "b" "a" (by decide)) "s1" "w" 1
    hs (by decide) (by decide) le_rfl
  have hread : (twoMessages "b" "a" (by decide)).readable = [noon "b", noon "a"] := by
    decide +kernel
  rw [pollAll_eq _ hs (by decide) (by decide)] at hall
  have hsplits := (complete_iff seen_advances one_pos (readable_nodup _)
    fun _ _ => if_pos rfl).mp ⟨n, out, hall, hperm⟩
  rw [hread] at hsplits
  obtain ⟨e, c, he, hc, _, hafter⟩ := hsplits.2 1 one_pos (by decide)
  have hfirst : noon "b" = e := Option.some.inj he
  rw [← hfirst, (noon_plain (by decide)).cursor.1] at hc
  injection hc with hc
  have hlost := hafter (noon "a") (by decide)
  rw [← hc] at hlost
  exact absurd hlost (by decide +kernel)

end AiMeshChat.Kernel.Poll
