import AiMeshChat.Lib.Pool
import AiMeshChat.Python

/-!
# The metadata of a review

`oracle.py`: `meta.json` of a review key holds the backend session the review is bound to,
and the anchor of the latest ask. `_write_oracle_meta` and `_record_last_ask` read the whole
file, carry the other one's fields forward and replace the file, without a lock.

Calls run interleaved, in any order of their operations; the write of the temporary file and
the rename are one of them. A rename may fail, and the call goes on. The log of what was
read and renamed is kept beside the file, for the statements; no call looks at it.

A file never loses an update exactly when every call, at its rename, still carries what the
last rename by a call of the other kind since its first read has written (`updates_kept`).
-/

namespace AiMeshChat.Oracle

open Lib

/-! ## Operations -/

/-- `replaceMeta` writes the text to a temporary file and renames that to `meta.json`. -/
inductive MetaOp
  | readMeta
  | clock
  | replaceMeta (doc : Json)
  deriving DecidableEq

/-- The file is read as a dict, `replaceMeta` answers whether it was replaced. -/
abbrev MetaAns : MetaOp → Type
  | .readMeta => Json
  | .clock => ℕ
  | .replaceMeta _ => Bool

/-- The time, and whether a rename fails. -/
structure MetaChoice where
  time : ℕ := 0
  fault : Bool := false

inductive Access
  | read (dict : Json)
  | rename (doc : Json)
  deriving DecidableEq

/-- The file, and who has read or renamed it, the last one first. -/
structure MetaFile where
  doc : Option Json
  log : List (ℕ × Access) := []

/-- `_read_oracle_meta`: a file that is missing or holds no dict counts as empty. -/
def MetaFile.dict (s : MetaFile) : Json :=
  match s.doc with
  | some doc => if doc.isDict then doc else .obj []
  | none => .obj []

def metaWorld : World MetaOp MetaAns MetaFile MetaChoice where
  perform i o c s :=
    match o with
    | .readMeta => some (s.dict, { s with log := (i, .read s.dict) :: s.log })
    | .clock => some (c.time, s)
    | .replaceMeta doc =>
      if c.fault then some (false, s) else some (true, ⟨some doc, (i, .rename doc) :: s.log⟩)
  crash _ s := s

abbrev MetaCall := Prog MetaOp MetaAns Empty

/-! ## The two updates -/

/-- `_LAST_ASK_FIELDS`. -/
def LAST_ASK_FIELDS : List String :=
  ["last_ask_at", "last_request_id", "last_command_state", "last_generation"]

/-- The fields of the binding that `_record_last_ask` carries over. -/
def BINDING_FIELDS : List String := ["backend_session_id", "status"]

/-- The anchor fields of an earlier write, carried forward. -/
def carryAnchor (previous doc : Json) : Json :=
  LAST_ASK_FIELDS.foldl (fun doc field => match previous.get? field with
    | some v => doc.set field v
    | none => doc) doc

/-- `meta.update(extra)`. -/
def updateMeta (doc : Json) (extra : List (String × Json)) : Json :=
  extra.foldl (fun doc kv => doc.set kv.1 kv.2) doc

/-- The document that `_write_oracle_meta` writes. -/
def metaDoc (reviewKey : String) (backendSessionId status swarmSessionId previous : Json)
    (now : ℕ) (extra : List (String × Json)) : Json :=
  updateMeta (carryAnchor previous (.obj [("review_key", .str reviewKey),
    ("swarm_session_id", swarmSessionId), ("backend_session_id", backendSessionId),
    ("bound_at", .str (isoFormat now)), ("status", status)])) extra

/-- `_write_oracle_meta`. -/
def writeOracleMeta (reviewKey : String) (backendSessionId status swarmSessionId : Json)
    (extra : List (String × Json)) : MetaCall Json := do
  let previous ← Prog.op MetaOp.readMeta
  let now ← Prog.op MetaOp.clock
  let doc := metaDoc reviewKey backendSessionId status swarmSessionId previous now extra
  let _ ← Prog.op (MetaOp.replaceMeta doc)
  return doc

/-- `meta.get(key) or ""`. -/
def orEmpty (doc : Json) (key : String) : Json :=
  match doc.get? key with
  | some v => if v.truthy then v else .str ""
  | none => .str ""

/-- The anchor fields of an ask. -/
def anchorFields (requestId commandState : String) (generation : Option ℤ) (now : ℕ) :
    List (String × Json) :=
  [("last_ask_at", .str (isoFormat now)), ("last_request_id", .str requestId),
    ("last_command_state", .str commandState),
    ("last_generation", (generation.map Json.int).getD .null)]

/-- `_record_last_ask`; `generation` is what `int` makes of it, if it makes anything. -/
def recordLastAsk (reviewKey requestId commandState : String) (generation : Option ℤ) :
    MetaCall Json := do
  let doc ← Prog.op MetaOp.readMeta
  let now ← Prog.op MetaOp.clock
  writeOracleMeta reviewKey (orEmpty doc "backend_session_id") (orEmpty doc "status")
    (orEmpty doc "swarm_session_id") (anchorFields requestId commandState generation now)

/-! ### What the documents hold -/

variable {doc : Json} {extra : List (String × Json)}

theorem get?_updateMeta {key : String}
    (h : key ∉ extra.map Prod.fst) : (updateMeta doc extra).get? key = doc.get? key := by
  unfold updateMeta
  induction extra generalizing doc with
  | nil => rfl
  | cons kv rest ih =>
    simp only [List.map_cons, List.mem_cons, not_or] at h
    rw [List.foldl_cons, ih h.2]
    exact Json.get?_set_ne _ _ h.1

theorem get?_updateMeta_mem (hnodup : (extra.map Prod.fst).Nodup) (hdict : doc.isDict = true)
    {kv : String × Json} (h : kv ∈ extra) : (updateMeta doc extra).get? kv.1 = some kv.2 := by
  induction extra generalizing doc with
  | nil => cases h
  | cons kv' rest ih =>
    obtain ⟨hfirst, hrest⟩ := List.nodup_cons.mp hnodup
    have hdict' : (doc.set kv'.1 kv'.2).isDict = true := (Json.isDict_set _ _ _).trans hdict
    rcases List.mem_cons.mp h with rfl | h
    · have hlater : (updateMeta (doc.set kv.1 kv.2) rest).get? kv.1 = (doc.set kv.1 kv.2).get? kv.1 :=
        get?_updateMeta hfirst
      exact hlater.trans (Json.get?_set_self _ _ hdict)
    · exact ih hrest hdict' h

theorem isDict_updateMeta (doc : Json) (extra : List (String × Json)) :
    (updateMeta doc extra).isDict = doc.isDict := by
  unfold updateMeta
  induction extra generalizing doc with
  | nil => rfl
  | cons kv rest ih => rw [List.foldl_cons, ih, Json.isDict_set]

theorem isDict_carry (previous doc : Json) (fields : List String) :
    (fields.foldl (fun doc field => match previous.get? field with
      | some v => doc.set field v
      | none => doc) doc).isDict = doc.isDict := by
  induction fields generalizing doc with
  | nil => rfl
  | cons field rest ih =>
    rw [List.foldl_cons, ih]
    split
    · exact Json.isDict_set _ _ _
    · rfl

theorem get?_carry {previous : Json} {fields : List String} (hdict : doc.isDict = true)
    (key : String) : (fields.foldl (fun doc field => match previous.get? field with
      | some v => doc.set field v
      | none => doc) doc).get? key =
      if key ∈ fields then (previous.get? key).or (doc.get? key) else doc.get? key := by
  induction fields generalizing doc with
  | nil => rfl
  | cons field rest ih =>
    rw [List.foldl_cons]
    cases hp : previous.get? field with
    | none =>
      rw [ih hdict]
      by_cases hkey : key = field
      · subst hkey
        simp [hp]
      · simp [hkey]
    | some v =>
      rw [ih ((Json.isDict_set _ _ _).trans hdict)]
      by_cases hkey : key = field
      · subst hkey
        simp [hp, Json.get?_set_self v key hdict]
      · simp [hkey, Json.get?_set_ne doc v hkey]

theorem metaDoc_anchor (reviewKey : String) (backend status swarm previous : Json) (now : ℕ)
    {field : String} (h : field ∈ LAST_ASK_FIELDS) :
    (metaDoc reviewKey backend status swarm previous now []).get? field = previous.get? field := by
  rw [metaDoc, updateMeta, List.foldl_nil, carryAnchor, get?_carry rfl, if_pos h]
  simp only [LAST_ASK_FIELDS, List.mem_cons, List.not_mem_nil, or_false] at h
  rcases h with rfl | rfl | rfl | rfl <;>
    exact Option.or_none

theorem isDict_metaDoc (reviewKey : String) (backend status swarm previous : Json) (now : ℕ)
    (extra : List (String × Json)) :
    (metaDoc reviewKey backend status swarm previous now extra).isDict = true := by
  rw [metaDoc, isDict_updateMeta, carryAnchor, isDict_carry]
  rfl

theorem metaDoc_backend (reviewKey : String) (backend status swarm previous : Json) (now : ℕ)
    (h : "backend_session_id" ∉ extra.map Prod.fst) :
    (metaDoc reviewKey backend status swarm previous now extra).get? "backend_session_id" =
      some backend := by
  rw [metaDoc, get?_updateMeta h, carryAnchor, get?_carry rfl, if_neg (by decide)]
  rfl

theorem metaDoc_status (reviewKey : String) (backend status swarm previous : Json) (now : ℕ)
    (h : "status" ∉ extra.map Prod.fst) :
    (metaDoc reviewKey backend status swarm previous now extra).get? "status" = some status := by
  rw [metaDoc, get?_updateMeta h, carryAnchor, get?_carry rfl, if_neg (by decide)]
  rfl

theorem get?_metaDoc_extra {reviewKey : String} {backend status swarm previous : Json} {now : ℕ}
    (hnodup : (extra.map Prod.fst).Nodup) {kv : String × Json} (h : kv ∈ extra) :
    (metaDoc reviewKey backend status swarm previous now extra).get? kv.1 = some kv.2 := by
  refine get?_updateMeta_mem hnodup ?_ h
  exact isDict_carry _ _ _

/-! ## Calls in any order -/

/-- One call: a rebinding, or an ask that records its anchor. -/
inductive MetaArgs
  | rebind (backendSessionId status swarmSessionId : String)
  | ask (requestId commandState : String) (generation : Option ℤ)

def MetaArgs.call (reviewKey : String) : MetaArgs → MetaCall Json
  | .rebind backend status swarm =>
    writeOracleMeta reviewKey (.str backend) (.str status) (.str swarm) []
  | .ask requestId commandState generation =>
    recordLastAsk reviewKey requestId commandState generation

inductive Kind
  | binding
  | anchor
  deriving DecidableEq

def MetaArgs.kind : MetaArgs → Kind
  | .rebind .. => .binding
  | .ask .. => .anchor

/-- The fields that a call of the kind is there to write. -/
def Kind.fields : Kind → List String
  | .binding => BINDING_FIELDS
  | .anchor => LAST_ASK_FIELDS

def Kind.other : Kind → Kind
  | .binding => .anchor
  | .anchor => .binding

/-- What a call of the kind writes into a field of the other one, having read `doc`. -/
def Kind.carries : Kind → Json → String → Option Json
  | .binding, doc, field => doc.get? field
  | .anchor, doc, field => some (orEmpty doc field)

/-- The document holds what the call is there to write. -/
def MetaArgs.Wrote : MetaArgs → Json → Prop
  | .rebind backend status _, doc =>
    doc.get? "backend_session_id" = some (.str backend) ∧ doc.get? "status" = some (.str status)
  | .ask requestId commandState generation, doc =>
    ∃ now, ∀ kv ∈ anchorFields requestId commandState generation now, doc.get? kv.1 = some kv.2

/-- The calls before any has begun. -/
def metaPool (reviewKey : String) (doc : Option Json) (calls : ℕ → Option MetaArgs) :
    Pool MetaOp MetaAns MetaFile Empty Json :=
  ⟨⟨doc, []⟩, fun i => match calls i with
    | some args => args.call reviewKey
    | none => .hang⟩

section Log

variable (calls : ℕ → Option MetaArgs)

/-- The last rename by a call of the kind, and who made it. -/
def lastRename (k : Kind) : List (ℕ × Access) → Option (ℕ × Json)
  | [] => none
  | (i, .rename doc) :: log =>
    if (calls i).map MetaArgs.kind = some k then some (i, doc) else lastRename k log
  | (_, .read _) :: log => lastRename k log

/-- What process `i` read first, and what has happened since. -/
def sinceRead (i : ℕ) : List (ℕ × Access) → Option (Json × List (ℕ × Access))
  | [] => none
  | x :: log =>
    match sinceRead i log with
    | some (v, later) => some (v, x :: later)
    | none =>
      match x with
      | (j, .read v) => if j = i then some (v, []) else none
      | (_, .rename _) => none

/-- The file holds, for either kind, what the last rename by a call of that kind wrote, and
that is what the call was there to write. -/
def MetaFile.UpToDate (s : MetaFile) : Prop :=
  ∀ k i m, lastRename calls k s.log = some (i, m) →
    (∃ args, calls i = some args ∧ args.Wrote m) ∧ ∀ field ∈ k.fields, s.dict.get? field = m.get? field

/-- At a rename that goes through, the call carries what the last rename by a call of the
other kind since its first read, if there is one, has written. -/
def Undisturbed (s : MetaFile) (i : ℕ) : MetaOp → MetaChoice → Prop
  | .replaceMeta _, c => c.fault = false → ∀ args v later j m, calls i = some args →
      sinceRead i s.log = some (v, later) →
      lastRename calls args.kind.other later = some (j, m) →
      ∀ field ∈ args.kind.other.fields, args.kind.carries v field = m.get? field
  | _, _ => True

end Log

/-! ### What one call does -/

/-- A call, and what it read first. -/
structure Begun where
  args : Option MetaArgs
  first : Option Json

/-- A rename comes after a read, holds what the call is there to write, and carries the rest. -/
def metaRole : Role MetaOp MetaAns where
  St := Begun
  allows q o := ∀ doc, o = .replaceMeta doc → ∃ args v, q = ⟨some args, some v⟩ ∧
    doc.isDict = true ∧ args.Wrote doc ∧
    ∀ field ∈ args.kind.other.fields, doc.get? field = args.kind.carries v field
  assumes _ _ _ := True
  next q o a :=
    match o, a with
    | .readMeta, dict => { q with first := some (q.first.getD dict) }
    | .clock, _ => q
    | .replaceMeta _, _ => q

theorem rebind_keeps (reviewKey backend status swarm : String) :
    (writeOracleMeta reviewKey (.str backend) (.str status) (.str swarm) []).Keeps metaRole
      ⟨some (.rebind backend status swarm), none⟩ fun _ _ => True := by
  refine Prog.keeps_op_bind nofun fun previous _ => Prog.keeps_op_bind nofun fun now _ =>
    Prog.keeps_op_bind ?_ fun _ _ => trivial
  intro doc hdoc
  cases hdoc
  refine ⟨_, _, rfl, isDict_metaDoc .., ⟨metaDoc_backend _ _ _ _ _ _ (by decide),
    metaDoc_status _ _ _ _ _ _ (by decide)⟩, fun field hfield => ?_⟩
  exact metaDoc_anchor _ _ _ _ _ _ hfield

theorem ask_keeps (reviewKey requestId commandState : String) (generation : Option ℤ) :
    (recordLastAsk reviewKey requestId commandState generation).Keeps metaRole
      ⟨some (.ask requestId commandState generation), none⟩ fun _ _ => True := by
  refine Prog.keeps_op_bind nofun fun first _ => Prog.keeps_op_bind nofun fun now _ =>
    Prog.keeps_op_bind nofun fun previous _ => Prog.keeps_op_bind nofun fun bound _ =>
    Prog.keeps_op_bind ?_ fun _ _ => trivial
  intro doc hdoc
  cases hdoc
  refine ⟨_, _, rfl, isDict_metaDoc .., ⟨now, fun kv hkv => ?_⟩, fun field hfield => ?_⟩
  · exact get?_metaDoc_extra (by simp [anchorFields]) hkv
  · simp only [MetaArgs.kind, Kind.other, Kind.fields, BINDING_FIELDS, List.mem_cons,
      List.not_mem_nil, or_false] at hfield
    rcases hfield with rfl | rfl
    · exact metaDoc_backend _ _ _ _ _ _ (by simp [anchorFields])
    · exact metaDoc_status _ _ _ _ _ _ (by simp [anchorFields])

/-! ### What all calls keep -/

section Runs

variable {calls : ℕ → Option MetaArgs}

theorem MetaFile.dict_some {doc : Json} (h : doc.isDict = true) (log : List (ℕ × Access)) :
    (⟨some doc, log⟩ : MetaFile).dict = doc := if_pos h

theorem Kind.other_ne (k : Kind) : k ≠ k.other := by cases k <;> decide

variable {k : Kind} {i : ℕ} {s : MetaFile} {q : ℕ → Begun}

theorem Kind.eq_other {k' : Kind} (h : k' ≠ k) : k' = k.other := by
  cases k <;> cases k' <;> first | rfl | exact absurd rfl h

theorem lastRename_kind {log : List (ℕ × Access)} {m : Json}
    (h : lastRename calls k log = some (i, m)) : (calls i).map MetaArgs.kind = some k := by
  induction log with
  | nil => cases h
  | cons x log ih =>
    rcases x with ⟨j, dict | doc⟩
    · exact ih h
    · rw [lastRename] at h
      split at h
      · next hk =>
        cases h
        exact hk
      · exact ih h

theorem lastRename_of_later {log later : List (ℕ × Access)} {v : Json}
    (hsince : sinceRead i log = some (v, later)) {x : ℕ × Json}
    (h : lastRename calls k later = some x) : lastRename calls k log = some x := by
  induction log generalizing later with
  | nil => cases hsince
  | cons y log ih =>
    cases hlog : sinceRead i log with
    | some w =>
      obtain ⟨v', later'⟩ := w
      simp only [sinceRead, hlog] at hsince
      cases hsince
      rcases y with ⟨j, dict | doc⟩
      · exact ih hlog h
      · rw [lastRename] at h ⊢
        split at h
        · next hk =>
          rw [if_pos hk]
          exact h
        · next hk =>
          rw [if_neg hk]
          exact ih hlog h
    | none =>
      rcases y with ⟨j, dict | doc⟩
      · simp only [sinceRead, hlog] at hsince
        split at hsince
        · cases hsince
          cases h
        · cases hsince
      · simp only [sinceRead, hlog] at hsince
        cases hsince

theorem carries_of_read {args args' : MetaArgs} {v m : Json} (hkind : args'.kind = args.kind.other)
    (hwrote : args'.Wrote m) {field : String} (hfield : field ∈ args.kind.other.fields)
    (h : v.get? field = m.get? field) : args.kind.carries v field = m.get? field := by
  cases args with
  | rebind => exact h
  | ask =>
    cases args' with
    | ask => cases hkind
    | rebind backend status swarm =>
      have hstr : ∃ b, m.get? field = some (.str b) := by
        simp only [MetaArgs.kind, Kind.other, Kind.fields, BINDING_FIELDS, List.mem_cons,
          List.not_mem_nil, or_false] at hfield
        rcases hfield with rfl | rfl
        · exact ⟨backend, hwrote.1⟩
        · exact ⟨status, hwrote.2⟩
      obtain ⟨b, hb⟩ := hstr
      rw [hb] at h ⊢
      show some (orEmpty v field) = some (.str b)
      rw [orEmpty, h]
      by_cases hempty : b = ""
      · simp [hempty]
      · simp [Json.truthy, hempty]

/-- The file and the calls in the middle of a run. -/
structure MetaInv (calls : ℕ → Option MetaArgs) (s : MetaFile) (q : ℕ → Begun) : Prop where
  args : ∀ i, (q i).args = calls i
  first : ∀ i, (q i).first = (sinceRead i s.log).map Prod.fst
  upToDate : s.UpToDate calls
  seen : ∀ i v later, sinceRead i s.log = some (v, later) → ∀ k j m,
    lastRename calls k s.log = some (j, m) → lastRename calls k later = none →
    ∀ field ∈ k.fields, v.get? field = m.get? field

theorem MetaInv.read (h : MetaInv calls s q) (i : ℕ) :
    MetaInv calls { s with log := (i, .read s.dict) :: s.log }
      (Function.update q i { q i with first := some ((q i).first.getD s.dict) }) := by
  refine ⟨fun j => ?_, fun j => ?_, h.upToDate, fun j v later hj k l m hlast hlater => ?_⟩
  · by_cases hij : j = i
    · subst hij
      rw [Function.update_self]
      exact h.args j
    · rw [Function.update_of_ne hij]
      exact h.args j
  · have hfirst := h.first j
    by_cases hij : j = i
    · subst hij
      rw [Function.update_self]
      cases hlog : sinceRead j s.log with
      | some w => simp [sinceRead, hlog, hfirst]
      | none => simp [sinceRead, hlog, hfirst]
    · rw [Function.update_of_ne hij, hfirst]
      cases hlog : sinceRead j s.log with
      | some w => simp [sinceRead, hlog]
      | none => simp [sinceRead, hlog, Ne.symm hij]
  · cases hlog : sinceRead j s.log with
    | some w =>
      rw [sinceRead, hlog] at hj
      cases hj
      exact h.seen j _ _ hlog k l m hlast hlater
    | none =>
      rw [sinceRead, hlog] at hj
      simp only at hj
      split at hj
      · cases hj
        exact (h.upToDate k l m hlast).2
      · cases hj

theorem MetaInv.rename (h : MetaInv calls s q) {doc : Json} {c : MetaChoice}
    (hfault : c.fault = false) (hallow : metaRole.allows (q i) (.replaceMeta doc))
    (hG : Undisturbed calls s i (.replaceMeta doc) c) :
    MetaInv calls ⟨some doc, (i, .rename doc) :: s.log⟩ q := by
  obtain ⟨args, v, hq, hdict, hwrote, hcarried⟩ := hallow doc rfl
  have hargs : calls i = some args := by rw [← h.args i, hq]
  have hv := h.first i
  rw [hq] at hv
  obtain ⟨⟨v', later⟩, hsince, hvv⟩ := Option.map_eq_some_iff.mp hv.symm
  obtain rfl : v' = v := hvv
  refine ⟨h.args, fun j => ?_, fun k j m hlast => ?_, fun j w later' hj k l m hlast hlater => ?_⟩
  · rw [h.first j, sinceRead]
    cases sinceRead j s.log with
    | some w => rfl
    | none => rfl
  · rw [MetaFile.dict_some hdict]
    simp only [lastRename, hargs, Option.map_some, Option.some.injEq] at hlast
    split at hlast
    · cases hlast
      exact ⟨⟨args, hargs, hwrote⟩, fun _ _ => rfl⟩
    · next hk =>
      -- the other kind: what was carried is what the last of its calls wrote
      obtain rfl := Kind.eq_other (Ne.symm hk)
      obtain ⟨⟨args', hargs', hwrote'⟩, hheld⟩ := h.upToDate _ j m hlast
      have hkind : args'.kind = args.kind.other := by
        have h := lastRename_kind hlast
        rw [hargs'] at h
        exact Option.some.inj h
      refine ⟨⟨args', hargs', hwrote'⟩, fun field hfield => ?_⟩
      rw [hcarried field hfield]
      cases hlater : lastRename calls args.kind.other later with
      | some x =>
        obtain rfl := Option.some.inj ((lastRename_of_later hsince hlater).symm.trans hlast)
        exact hG hfault args v' later j m hargs hsince hlater field hfield
      | none =>
        exact carries_of_read hkind hwrote' hfield
          (h.seen i v' later hsince _ j m hlast hlater field hfield)
  · cases hlog : sinceRead j s.log with
    | some x =>
      rw [sinceRead, hlog] at hj
      cases hj
      rw [lastRename] at hlast hlater
      split at hlast
      · next hk =>
        rw [if_pos hk] at hlater
        cases hlater
      · next hk =>
        rw [if_neg hk] at hlater
        exact h.seen j _ _ hlog k l m hlast hlater
    | none =>
      rw [sinceRead, hlog] at hj
      cases hj

theorem metaInv_op : Pool.OpKeeps metaWorld metaRole (Undisturbed calls) (MetaInv calls) := by
  intro s q i o c a s' hJ hallow hG hw
  refine ⟨trivial, ?_⟩
  cases o with
  | readMeta =>
    cases hw
    exact hJ.read i
  | clock =>
    cases hw
    rw [show metaRole.next (q i) .clock c.time = q i from rfl, Function.update_eq_self]
    exact hJ
  | replaceMeta doc =>
    rw [show metaRole.next (q i) (.replaceMeta doc) a = q i from rfl, Function.update_eq_self]
    cases hfault : c.fault with
    | true =>
      simp only [metaWorld, hfault, if_true, Option.some.injEq, Prod.mk.injEq] at hw
      rw [← hw.2]
      exact hJ
    | false =>
      simp only [metaWorld, hfault, Bool.false_eq_true, if_false, Option.some.injEq,
        Prod.mk.injEq] at hw
      rw [← hw.2]
      exact hJ.rename hfault hallow hG

theorem metaInv_crash : Pool.CrashKeeps metaWorld metaRole (MetaInv calls) := by
  intro s q i hJ
  refine ⟨q i, ?_⟩
  rw [Function.update_eq_self]
  exact hJ

theorem outdated {o : MetaOp} {c : MetaChoice} (hJ : MetaInv calls s q)
    (hallow : metaRole.allows (q i) o) (hno : ¬ Undisturbed calls s i o c) :
    ∃ a s', metaWorld.perform i o c s = some (a, s') ∧ ¬ s'.UpToDate calls := by
  cases o with
  | readMeta => exact absurd trivial hno
  | clock => exact absurd trivial hno
  | replaceMeta doc =>
    simp only [Undisturbed] at hno
    push Not at hno
    obtain ⟨hfault, args, v, later, j, m, hargs, hsince, hlater, field, hfield, hne⟩ := hno
    refine ⟨true, ⟨some doc, (i, .rename doc) :: s.log⟩, by simp [metaWorld, hfault], fun hup => ?_⟩
    obtain ⟨args', v', hq, hdict, -, hcarried⟩ := hallow doc rfl
    have hargs' := hJ.args i
    rw [hq, hargs] at hargs'
    cases hargs'
    have hv := hJ.first i
    rw [hq, hsince] at hv
    cases hv
    have hlast : lastRename calls args.kind.other ((i, .rename doc) :: s.log) = some (j, m) := by
      rw [lastRename, hargs, if_neg]
      · exact lastRename_of_later hsince hlater
      · exact fun h => args.kind.other_ne (Option.some.inj h)
    refine hne ?_
    rw [← (hup _ j m hlast).2 field hfield, MetaFile.dict_some hdict, hcarried field hfield]

theorem metaPool_kept (reviewKey : String) (doc : Option Json) :
    (metaPool reviewKey doc calls).Kept metaRole (MetaInv calls) fun _ _ _ => True := by
  refine ⟨fun i => ⟨calls i, none⟩, ⟨fun _ => rfl, fun _ => rfl, nofun, nofun⟩, fun i => ?_⟩
  cases hcall : calls i with
  | none =>
    simp only [metaPool, hcall]
    exact trivial
  | some args =>
    simp only [metaPool, hcall]
    cases args with
    | rebind backend status swarm => exact rebind_keeps ..
    | ask requestId commandState generation => exact ask_keeps ..

end Runs

/-- **When no update is lost.**  Whatever calls run interleaved, crashes included: the file
holds in every state what the last rebinding and the last ask have written, exactly if every
rename carries what the last rename by a call of the other kind since the call's first read
has written. -/
theorem updates_kept (reviewKey : String) (doc : Option Json) (calls : ℕ → Option MetaArgs)
    (es : List (Event MetaChoice)) :
    (∀ es₁, es₁ <+: es →
      (Pool.run metaWorld (metaPool reviewKey doc calls) es₁).shared.UpToDate calls) ↔
    (metaPool reviewKey doc calls).Admits metaWorld (Undisturbed calls) es :=
  (Pool.admits_iff_always metaInv_op metaInv_crash (fun _ _ hJ => hJ.upToDate)
    (fun _ _ _ _ _ hJ hallow hno => outdated hJ hallow hno) es
    (metaPool_kept reviewKey doc)).symm

/-! ## An update that is lost -/

/-- The call of every process has returned. -/
def MetaEnded (calls : ℕ → Option MetaArgs) (t : Pool MetaOp MetaAns MetaFile Empty Json) : Prop :=
  ∀ i args, calls i = some args → ∃ doc, t.procs i = .ret doc

/-- An ask and a rebinding of one review. -/
def askAndRebind : ℕ → Option MetaArgs
  | 0 => some (.ask "r1" "DELIVERED" (some 1))
  | 1 => some (.rebind "s1" "bound" "")
  | _ => none

/-- The rebinding happens between the ask's first read and its second. -/
def rebindWhileAsking : List (Event MetaChoice) :=
  [.tick 0 {}, .tick 1 {}, .tick 1 {}, .tick 1 {}, .tick 0 {}, .tick 0 {}, .tick 0 {}, .tick 0 {}]

theorem binding_lost : ¬ ∀ (reviewKey : String) (doc : Option Json) (calls : ℕ → Option MetaArgs)
    (es : List (Event MetaChoice)),
    MetaEnded calls (Pool.run metaWorld (metaPool reviewKey doc calls) es) →
    (Pool.run metaWorld (metaPool reviewKey doc calls) es).shared.UpToDate calls := by
  intro h
  have hended : MetaEnded askAndRebind
      (Pool.run metaWorld (metaPool "k" none askAndRebind) rebindWhileAsking) := by
    intro i args hargs
    match i with
    | 0 => exact ⟨_, rfl⟩
    | 1 => exact ⟨_, rfl⟩
    | n + 2 => cases hargs
  have hup := h "k" none askAndRebind rebindWhileAsking hended
  have hlost := (hup .binding 1 _ rfl).2 "backend_session_id" (by decide)
  exact absurd hlost (by decide +kernel)

end AiMeshChat.Oracle
