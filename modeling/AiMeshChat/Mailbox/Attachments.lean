import AiMeshChat.Lib.Counted
import AiMeshChat.Mailbox.Store
import Mathlib.Data.Prod.Lex
import Mathlib.Data.Setoid.Basic
import Mathlib.Data.String.Basic
import Mathlib.Order.CompletePartialOrder

/-!
# Attachments, compared

`_attachments_eq` decides whether a repeated send has the attachments of its earlier copy. It
compares the numbers of references and the sets of their text forms. A set forgets how often a
reference stands in a list, and a text forgets what it is the text of: `1` and `"1"` are one.

When two values are the same is a parameter here, an equivalence: identity, or the `==` of Python,
for which `1` is `True` and the keys of a dict have no order. `refsEq_iff` says, for each, which
lists are told apart wrongly, and what that makes of the check of a replay.
-/

namespace AiMeshChat.Mailbox

open Lib

/-- A reference as it is passed: a dict or an `AttachmentRef`. -/
inductive Ref
  | dict (fields : List (String × Json))
  | ref (a : AttachmentRef)

namespace Ref

def toDict : Ref → Json
  | dict fields => .obj fields
  | ref a => a.toDict

/-- `_norm`. -/
def norm (x : Ref) : List (String × String) := attachmentNorm x.toDict

/-- `_attachments_eq`. -/
def refsEq (a b : List Ref) : Bool := attachmentsEq (a.map toDict) (b.map toDict)

/-- Neither has the key, or both have it with the same value. -/
def SameAt (same : Setoid Json) : Option Json → Option Json → Prop
  | none, none => True
  | some v, some w => same v w
  | _, _ => False

/-- References as maps from keys to values. -/
def sameMap (same : Setoid Json) : Setoid Ref where
  r x y := ∀ key, SameAt same (x.toDict.get? key) (y.toDict.get? key)
  iseqv := by
    constructor
    · intro x key
      cases x.toDict.get? key with
      | none => trivial
      | some v => exact same.refl v
    · intro x y h key
      have hkey := h key
      revert hkey
      cases x.toDict.get? key <;> cases y.toDict.get? key
      · exact id
      · exact False.elim
      · exact False.elim
      · exact same.symm
    · intro x y z hxy hyz key
      have h := hxy key
      have h' := hyz key
      revert h h'
      cases x.toDict.get? key <;> cases y.toDict.get? key <;> cases z.toDict.get? key
      · exact fun _ _ => trivial
      · exact fun _ => False.elim
      · exact fun h => h.elim
      · exact fun h => h.elim
      · exact fun h => h.elim
      · exact fun h => h.elim
      · exact fun _ => False.elim
      · exact same.trans

end Ref

open Ref

/-- The comparison answers whether the lists are permutations of each other, as lists of maps. -/
def EqualUpToOrder (same : Setoid Json) (a b : List Ref) : Prop :=
  refsEq a b = true ↔ SameElements (sameMap same) a b

/-- Lists of one length with the same text forms, but not with equally many of each reference. -/
structure Miscounted (same : Setoid Json) (a b : List Ref) : Prop where
  length : a.length = b.length
  texts : ∀ t, t ∈ a.map norm ↔ t ∈ b.map norm
  differ : ∃ x, occurrences (sameMap same) x a ≠ occurrences (sameMap same) x b

/-- Equally many of each reference, but one of them has another text form in the other list. -/
structure Miswritten (same : Setoid Json) (a b : List Ref) : Prop where
  agree : ∀ x, occurrences (sameMap same) x a = occurrences (sameMap same) x b
  text : ∃ t, ¬ (t ∈ a.map norm ↔ t ∈ b.map norm)

/-- A repeated send with other attachments than its earlier copy is refused as conflicting. -/
def RejectsOthers (same : Setoid Json) (earlier : List Ref) (refs : List AttachmentRef) : Prop :=
  ¬ SameElements (sameMap same) earlier (refs.map .ref) →
    ∀ (existing : Json) (a : SendArgs) (mid : String) (recipients : List String),
      existing.isDict = true → existing.get? "attachments" = some (.arr (earlier.map toDict)) →
        replay a mid recipients refs existing =
          .raise (.value ("msg_id already exists with different payload: " ++ mid))

variable {same : Setoid Json} {a b : List Ref}

theorem refsEq_eq_true_iff :
    refsEq a b = true ↔ a.length = b.length ∧ ∀ t, t ∈ a.map norm ↔ t ∈ b.map norm := by
  have hnorm (l : List Ref) : (l.map toDict).map attachmentNorm = l.map norm := List.map_map
  simp only [refsEq, attachmentsEq, Bool.and_eq_true, decide_eq_true_eq, List.length_map,
    List.all_map, List.all_eq_true, hnorm, and_assoc, Function.comp_apply]
  refine and_congr_right fun _ => ?_
  constructor
  · intro h t
    constructor
    · intro ht
      obtain ⟨x, hx, rfl⟩ := List.mem_map.mp ht
      exact h.1 x hx
    · intro ht
      obtain ⟨x, hx, rfl⟩ := List.mem_map.mp ht
      exact h.2 x hx
  · intro h
    exact ⟨fun x hx => (h _).mp (List.mem_map_of_mem hx),
      fun x hx => (h _).mpr (List.mem_map_of_mem hx)⟩

theorem length_eq_of_sameElements (h : SameElements (sameMap same) a b) : a.length = b.length :=
  Multiset.card_eq_card_of_rel h

theorem miscounted_iff :
    Miscounted same a b ↔ refsEq a b = true ∧ ¬ SameElements (sameMap same) a b := by
  rw [refsEq_eq_true_iff, sameElements_iff, not_forall]
  exact ⟨fun h => ⟨⟨h.length, h.texts⟩, h.differ⟩, fun h => ⟨h.1.1, h.1.2, h.2⟩⟩

theorem miswritten_iff :
    Miswritten same a b ↔ SameElements (sameMap same) a b ∧ ¬ refsEq a b = true := by
  rw [refsEq_eq_true_iff]
  constructor
  · intro h
    refine ⟨sameElements_iff.mpr h.agree, fun heq => ?_⟩
    obtain ⟨t, ht⟩ := h.text
    exact ht (heq.2 t)
  · intro h
    refine ⟨sameElements_iff.mp h.1, ?_⟩
    by_contra hno
    exact h.2 ⟨length_eq_of_sameElements h.1, fun t => not_not.mp fun ht => hno ⟨t, ht⟩⟩

/-- An earlier copy that differs from a send in its attachments alone. -/
def copyWith (a : SendArgs) (earlier : List Ref) : Json :=
  .obj [("session_id", .str a.sessionId), ("from", .str a.fromId), ("to", .str a.toId),
    ("subject", .str a.subject), ("body", .str a.body), ("kind", .str a.kind),
    ("reply_to", .str a.replyTo), ("run_id", .str a.runId), ("request_id", .str a.requestId),
    ("command_id", .str a.commandId), ("trace_id", .str a.traceId),
    ("causation_id", .str a.causationId), ("require_ack", .bool a.requireAck),
    ("receipt_type", .str a.receiptType), ("attachments", .arr (earlier.map toDict))]

theorem samePayload_copyWith (args : SendArgs) (earlier : List Ref) (refs : List AttachmentRef) :
    samePayload (copyWith args earlier) args refs = refsEq earlier (refs.map .ref) := by
  have hrefs : (refs.map Ref.ref).map toDict = refs.map AttachmentRef.toDict := List.map_map
  rw [refsEq, hrefs]
  simp [samePayload, copyWith, sameText, Json.get?, List.lookup_cons, Json.truthy]

theorem samePayload_eq_false {existing : Json} {args : SendArgs} {refs : List AttachmentRef}
    {earlier : List Ref} (h : existing.get? "attachments" = some (.arr (earlier.map toDict)))
    (hne : refsEq earlier (refs.map .ref) = false) : samePayload existing args refs = false := by
  have hrefs : (refs.map Ref.ref).map toDict = refs.map AttachmentRef.toDict := List.map_map
  rw [refsEq, hrefs] at hne
  simp [samePayload, h, hne]

def emptySend : SendArgs where
  sessionId := ""
  fromId := ""
  toId := ""
  subject := ""
  body := ""

theorem rejectsOthers_iff {refs : List AttachmentRef} :
    RejectsOthers same a refs ↔ ¬ Miscounted same a (refs.map .ref) := by
  rw [miscounted_iff]
  constructor
  · intro h hmis
    have hraise := h hmis.2 (copyWith emptySend a) emptySend "" [] rfl rfl
    rw [replay, samePayload_copyWith, hmis.1] at hraise
    cases hraise
  · intro h hne existing args mid recipients hdict hatts
    have hfalse : refsEq a (refs.map .ref) = false := by
      rw [← Bool.not_eq_true]
      exact fun htrue => h ⟨htrue, hne⟩
    rw [replay, hdict, samePayload_eq_false hatts hfalse]
    rfl

/-! ## Values compared as they are -/

namespace Ref

def fields : Ref → List (String × Json)
  | dict fields => fields
  | ref a => [("artifact_id", .str a.artifactId), ("source_host", .str a.sourceHost),
      ("remote_root", .str a.remoteRoot), ("relative_path", .str a.relativePath),
      ("size", .int a.size), ("sha256", .str a.sha256), ("media_type", .str a.mediaType)]

theorem toDict_eq (x : Ref) : x.toDict = .obj x.fields := by
  cases x <;> rfl

/-- A dict has one value for a key. -/
def DistinctKeys (x : Ref) : Prop := (x.fields.map Prod.fst).Nodup

end Ref

theorem sorted_pairs_eq {l l' : List (String × String)} (h : l.Perm l') :
    l.insertionSort (fun a b => a.1 < b.1 ∨ a.1 = b.1 ∧ a.2 ≤ b.2) =
      l'.insertionSort (fun a b => a.1 < b.1 ∨ a.1 = b.1 ∧ a.2 ≤ b.2) := by
  have hle : (fun a b : String × String => a.1 < b.1 ∨ a.1 = b.1 ∧ a.2 ≤ b.2) =
      fun a b => toLex a ≤ toLex b := by
    funext a b
    exact propext Prod.Lex.toLex_le_toLex.symm
  have htotal : Std.Total fun a b : String × String => a.1 < b.1 ∨ a.1 = b.1 ∧ a.2 ≤ b.2 := by
    rw [hle]
    exact ⟨fun a b => le_total (toLex a) (toLex b)⟩
  have htrans : IsTrans (String × String) fun a b => a.1 < b.1 ∨ a.1 = b.1 ∧ a.2 ≤ b.2 := by
    rw [hle]
    exact ⟨fun a b c => le_trans⟩
  refine List.Perm.eq_of_pairwise (fun a b _ _ hab hba => ?_)
    (List.pairwise_insertionSort _ l) (List.pairwise_insertionSort _ l') ?_
  · have h₁ : toLex a ≤ toLex b := Prod.Lex.toLex_le_toLex.mpr hab
    have h₂ : toLex b ≤ toLex a := Prod.Lex.toLex_le_toLex.mpr hba
    exact toLex_inj.mp (le_antisymm h₁ h₂)
  · exact ((List.perm_insertionSort _ l).trans h).trans (List.perm_insertionSort _ l').symm

theorem mem_iff_lookup {l : List (String × Json)} (h : (l.map Prod.fst).Nodup)
    {p : String × Json} : p ∈ l ↔ l.lookup p.1 = some p.2 := by
  induction l with
  | nil => simp
  | cons q l ih =>
    rw [List.map_cons, List.nodup_cons] at h
    rw [List.mem_cons, List.lookup_cons]
    by_cases hq : p.1 = q.1
    · rw [hq, beq_self_eq_true]
      constructor
      · intro hp
        rcases hp with rfl | hp
        · rfl
        · exact absurd (hq ▸ List.mem_map_of_mem hp) h.1
      · intro hp
        exact .inl (Prod.ext hq (Option.some.inj hp).symm)
    · rw [beq_false_of_ne hq, ← ih h.2]
      exact or_iff_right fun heq => hq (by rw [heq])

theorem sameAt_bot {v w : Option Json} (h : SameAt ⊥ v w) : v = w := by
  cases v <;> cases w
  · rfl
  · exact h.elim
  · exact h.elim
  · exact congrArg some h

theorem norm_eq_of_same {x y : Ref} (hx : x.DistinctKeys) (hy : y.DistinctKeys)
    (h : sameMap ⊥ x y) : x.norm = y.norm := by
  have hperm : x.fields.Perm y.fields := by
    refine (List.perm_ext_iff_of_nodup hx.of_map hy.of_map).mpr fun p => ?_
    have hp := sameAt_bot (h p.1)
    rw [toDict_eq, toDict_eq] at hp
    rw [mem_iff_lookup hx, mem_iff_lookup hy]
    exact iff_of_eq (congrArg (· = some p.2) hp)
  rw [Ref.norm, Ref.norm, toDict_eq, toDict_eq]
  exact sorted_pairs_eq (hperm.map _)

theorem not_miswritten_bot (ha : ∀ x ∈ a, x.DistinctKeys) (hb : ∀ x ∈ b, x.DistinctKeys) :
    ¬ Miswritten ⊥ a b := by
  intro h
  obtain ⟨t, ht⟩ := h.text
  refine ht ⟨fun hmem => ?_, fun hmem => ?_⟩
  · obtain ⟨x, hx, rfl⟩ := List.mem_map.mp hmem
    obtain ⟨y, hy, hxy⟩ := exists_of_forall_occurrences h.agree hx
    exact List.mem_map.mpr ⟨y, hy, (norm_eq_of_same (ha x hx) (hb y hy) hxy).symm⟩
  · obtain ⟨y, hy, rfl⟩ := List.mem_map.mp hmem
    obtain ⟨x, hx, hyx⟩ := exists_of_forall_occurrences (fun z => (h.agree z).symm) hy
    exact List.mem_map.mpr ⟨x, hx, (norm_eq_of_same (hb y hy) (ha x hx) hyx).symm⟩

/-! ## The comparison and the replay -/

def attachmentAt (path : String) : AttachmentRef where
  artifactId := "a"
  sourceHost := "host"
  remoteRoot := "/srv"
  relativePath := path
  size := 1
  sha256 := String.ofList (List.replicate 64 '0')

/-- A reference with a field of the caller's own. -/
def noted (v : Json) : Ref :=
  .dict [("artifact_id", .str "a"), ("source_host", .str "host"), ("remote_root", .str "/srv"),
    ("relative_path", .str "x"), ("size", .int 1),
    ("sha256", .str (String.ofList (List.replicate 64 '0'))), ("note", v)]

theorem occurrences_nil (x : Ref) : occurrences (sameMap same) x [] = 0 := rfl

theorem not_same_path : ¬ sameMap ⊥ (.ref (attachmentAt "x")) (.ref (attachmentAt "y")) := by
  intro h
  exact absurd (sameAt_bot (h "relative_path")) (by decide)

theorem not_same_note : ¬ sameMap ⊥ (noted (.int 1)) (noted (.str "1")) := by
  intro h
  exact absurd (sameAt_bot (h "note")) (by decide)

theorem miscounted_attachments :
    Miscounted ⊥ [.ref (attachmentAt "x"), .ref (attachmentAt "x"), .ref (attachmentAt "y")]
      [.ref (attachmentAt "x"), .ref (attachmentAt "y"), .ref (attachmentAt "y")] := by
  have heq : refsEq [.ref (attachmentAt "x"), .ref (attachmentAt "x"), .ref (attachmentAt "y")]
      [.ref (attachmentAt "x"), .ref (attachmentAt "y"), .ref (attachmentAt "y")] = true := by
    decide +kernel
  obtain ⟨hlength, htexts⟩ := refsEq_eq_true_iff.mp heq
  refine ⟨hlength, htexts, .ref (attachmentAt "x"), ?_⟩
  have hxx : sameMap ⊥ (.ref (attachmentAt "x")) (.ref (attachmentAt "x")) := Setoid.refl' _ _
  simp only [occurrences_cons, occurrences_nil, if_pos hxx, if_neg not_same_path]
  decide

theorem miscounted_notes : Miscounted ⊥ [noted (.int 1)] [noted (.str "1")] := by
  have heq : refsEq [noted (.int 1)] [noted (.str "1")] = true := by decide +kernel
  obtain ⟨hlength, htexts⟩ := refsEq_eq_true_iff.mp heq
  refine ⟨hlength, htexts, noted (.int 1), ?_⟩
  have hxx : sameMap ⊥ (noted (.int 1)) (noted (.int 1)) := Setoid.refl' _ _
  simp only [occurrences_cons, occurrences_nil, if_pos hxx, if_neg not_same_note]
  decide

theorem not_equalUpToOrder (h : Miscounted same a b) : ¬ EqualUpToOrder same a b := by
  obtain ⟨heq, hne⟩ := miscounted_iff.mp h
  exact fun hiff => hne (hiff.mp heq)

end AiMeshChat.Mailbox
