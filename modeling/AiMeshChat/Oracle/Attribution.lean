import AiMeshChat.Lib.Champion
import AiMeshChat.Mailbox.Claims

/-!
# Whose answer a review gets

`oracle.py`: a review has a key, and its answer is looked for by that key.
`_fallback_find_session_for_key` looks into the five latest transcripts under the session
root and takes the one with the best score; `_scan_mailbox_report` looks for a REPORT whose
`reply_to` is one of the encodings of the key, first in the histories of the sessions of the
review, then in the first two hundred files of all histories.

Both may come upon the material of another review: a transcript that mentions the last
segment of the key, a REPORT with the same slug. And the material of another review may take
the place of one's own among the first five or two hundred. `review_apart_iff` says exactly
when neither happens, so that the other reviews make no difference.

Times are whole numbers, `0` for the epoch. The lower case of a text, the SHA-256 hex digest
and `datetime.fromisoformat(…).timestamp()` are those of the standard library.
-/

namespace AiMeshChat.Oracle

open Lib Mailbox

/-- The functions of the standard library that the searches use. -/
structure TextLibrary where
  lower : String → String
  sha256 : String → String
  timestamp : String → Option ℤ

/-! ## Transcripts -/

/-- A file that `os.walk` comes to below the session root; its time is `none` where `stat`
fails, its text where it cannot be read. -/
structure SessionFile where
  dir : String
  name : String
  mtime : Option ℤ
  text : Option String
  deriving DecidableEq

/-- The characters that do not end a word. -/
def wordChars : List Char := "abcdefghijklmnopqrstuvwxyz_0123456789".toList

/-- The beginning or the end of the text, or a character that is part of no word. -/
def isBoundary : Option Char → Bool
  | none => true
  | some c => c ∉ wordChars

/-- The loop of `_exact` from a place in the text, after the character `before`; the search
goes on behind an occurrence that is part of a word. -/
def exactFrom (needle : List Char) : Option Char → ℕ → List Char → Bool
  | _, _, [] => false
  | _, skip + 1, c :: rest => exactFrom needle (some c) skip rest
  | before, 0, c :: rest =>
    if needle.isPrefixOf (c :: rest) then
      if isBoundary before && isBoundary ((c :: rest).drop needle.length).head? then true
      else exactFrom needle (some c) (needle.length - 1) rest
    else exactFrom needle (some c) 0 rest

/-- `_exact`: the needle stands in the text as a word of its own. -/
def exactMatch (text needle : String) : Bool := exactFrom needle.toList none 0 text.toList

/-- `review_key.rsplit(":", 1)[-1].strip()`. -/
def tailOf (reviewKey : String) : String :=
  String.ofList (strip (reviewKey.toList.reverse.takeWhile (· ≠ ':')).reverse)

/-- A tail that is specific enough to be looked for. -/
def tailOk (reviewKey : String) : Bool :=
  tailOf reviewKey ≠ "" && tailOf reviewKey ≠ reviewKey && 5 ≤ (tailOf reviewKey).length

section Sessions

variable (lib : TextLibrary) (reviewKey : String)

/-- The score of a file; `none` for a file without a sign of the key. -/
def sessionScore (f : SessionFile) : Option ℕ :=
  if contains "__advisor" (lib.lower f.name) then none
  else match f.text with
    | none => none
    | some text =>
      let lower := lib.lower text
      let keyScore :=
        (if 6 ≤ reviewKey.length && exactMatch lower (lib.lower reviewKey) then 100 else 0) +
          if tailOk reviewKey && exactMatch lower (lib.lower (tailOf reviewKey)) then 1 else 0
      if keyScore = 0 then none
      else if ["postmesh-", "ora-"].any fun p =>
          contains p (lib.lower f.name) || contains p (lib.lower f.dir) then some (keyScore + 10)
      else some keyScore

/-- A transcript that was written after the review started. -/
def inWindow (since : Option ℤ) (f : SessionFile) : Bool :=
  endsWith ".jsonl" f.name && f.mtime.any fun m => since.all (· ≤ m)

/-- The transcripts within the window, the latest first. -/
def windowed (since : Option ℤ) (files : List SessionFile) : List SessionFile :=
  (files.filter (inWindow since)).insertionSort fun a b => b.mtime.getD 0 ≤ a.mtime.getD 0

/-- `_fallback_find_session_for_key`; the root is `none` where it is no directory. -/
def fallbackFindSessionForKey (since : Option ℤ) (root : Option (List SessionFile)) :
    Option SessionFile :=
  root.bind fun files => champion (sessionScore lib reviewKey) ((windowed since files).take 5)

end Sessions

/-! ## Reports -/

/-- A file of a history; its time is `none` where `stat` fails, its content where it is not
readable as JSON. -/
structure HistoryFile where
  name : String
  mtime : Option ℤ
  content : Option Json
  deriving DecidableEq

/-- A directory `<session>/history` below the mailbox root; its files are `none` where it
cannot be listed. -/
structure HistoryDir where
  session : String
  mtime : Option ℤ
  files : Option (List HistoryFile)
  deriving DecidableEq

/-- `_review_reply_to_candidates`. -/
def reviewReplyToCandidates (lib : TextLibrary) (reviewKey : String) : List String :=
  let dashed (cs : List Char) := reviewKey.toList.map fun c => if c ∈ cs then '-' else c
  let slug := dashed [':']
  [reviewKey, String.ofList (dashed [':', '/', '\\']),
    String.ofList (slug.drop (slug.length - 12)),
    String.ofList ((lib.sha256 reviewKey).toList.take 12)]

/-- The arguments of `_scan_mailbox_report`: the key, the sessions of the manifest and the
metadata, the time and the request of the latest ask. -/
structure ScanArgs where
  reviewKey : String
  swarmIds : List String
  since : ℤ := 0
  requestId : String := ""

section Reports

variable (lib : TextLibrary) (a : ScanArgs)

/-- `msg.get(key) or ""`. -/
def fieldOr (msg : Json) (key : String) : Json :=
  match msg.get? key with
  | some v => if v.truthy then v else .str ""
  | none => .str ""

/-- `value.replace("Z", "+00:00")`. -/
def zulu (value : String) : String :=
  String.ofList (value.toList.flatMap fun c => if c = 'Z' then "+00:00".toList else [c])

/-- `_parse_iso_ts`. -/
def parseIsoTs (value : String) : Option ℤ :=
  if value = "" then none else lib.timestamp (zulu value)

/-- The identifier of the request that a message answers. -/
def requestOf (msg : Json) : Json :=
  if (fieldOr msg "request_id").truthy then fieldOr msg "request_id" else fieldOr msg "command_id"

/-- `_fresh`; an error where it raises. -/
def fresh (msg : Json) (mtime : ℤ) : Except Unit Bool :=
  if a.requestId ≠ "" && (requestOf msg).truthy && requestOf msg ≠ .str a.requestId then .ok false
  else if a.since ≤ 0 then .ok true
  else match fieldOr msg "created_at" with
    | .str created =>
      match parseIsoTs lib created with
      | some ts => .ok (decide (a.since ≤ ts))
      | none => .ok (decide (mtime ≠ 0) && decide (a.since ≤ mtime))
    | _ => .error ()

/-- `_match`; an error where it raises. -/
def matchReport (msg : Json) (mtime : ℤ) : Except Unit Bool :=
  if !msg.isDict then .error ()
  else if msg.get? "kind" ≠ some (.str "REPORT") then .ok false
  else match fieldOr msg "reply_to" with
    | .str replyTo =>
      if replyTo ∈ reviewReplyToCandidates lib a.reviewKey then fresh lib a msg mtime
      else .ok false
    | v => if unhashable v then .error () else .ok false

/-- The check of a record by `read_history`: an error where it raises. -/
def recordCheck (sid : String) (f : HistoryFile) : Except Unit Bool :=
  match f.content with
  | none => .ok false
  | some msg =>
    match validateMessage msg (some sid) none (some f.name) with
    | .error (.typeError _) => .error ()
    | .error (.reject _) => .ok false
    | .ok () => .ok (decide (msg.get? "kind" = some (.str "REPORT")))

/-- What the records of a history are sorted by. -/
def recordKey (f : HistoryFile) : String × String :=
  ((f.content.map fun msg => textOf msg "created_at").getD "",
    (f.content.map fun msg => textOf msg "msg_id").getD "")

def laterRecord (f g : HistoryFile) : Prop :=
  (recordKey g).1 < (recordKey f).1 ∨
    (recordKey g).1 = (recordKey f).1 ∧ (recordKey g).2 ≤ (recordKey f).2

instance : DecidableRel laterRecord := fun _ _ => inferInstanceAs (Decidable (_ ∨ _))

/-- `list_messages` of a history. -/
def listRecords (files : List HistoryFile) : List HistoryFile :=
  (files.filter fun f => isMessageName f.name && f.mtime.isSome).insertionSort
    fun a b => a.mtime.getD 0 ≤ b.mtime.getD 0

/-- `read_history(sid, kind="REPORT")`, newest first; `none` where it raises. -/
def readHistory (dirs : List HistoryDir) (sid : String) : Option (List HistoryFile) :=
  if !agentIdOk sid then none
  else match dirs.find? (·.session = sid) with
    | none => some []
    | some d => d.files.bind fun files =>
      if (listRecords files).any fun f => (recordCheck sid f).toOption.isNone then none
      else some (((listRecords files).filter fun f =>
        (recordCheck sid f).toOption = some true).insertionSort laterRecord)

/-- The loop over the records of one session; `matchReport` raising ends it. -/
def searchRecords : List HistoryFile → Option HistoryFile
  | [] => none
  | f :: rest =>
    match f.content.map fun msg => matchReport lib a msg 0 with
    | some (.ok true) => some f
    | some (.error _) => none
    | _ => searchRecords rest

/-- The loop over the sessions of the review. -/
def searchKnown (dirs : List HistoryDir) : List String → Option HistoryFile
  | [] => none
  | sid :: rest =>
    ((readHistory dirs sid).bind (searchRecords lib a)).or (searchKnown dirs rest)

/-- The histories with the latest first, if all of them can be asked for their time. -/
def sortedDirs (dirs : List HistoryDir) : List HistoryDir :=
  if dirs.all (·.mtime.isSome) then
    dirs.insertionSort fun a b => b.mtime.getD 0 ≤ a.mtime.getD 0
  else dirs

/-- The `.json` files of all histories in the order of the scan. -/
def scannedFiles (dirs : List HistoryDir) : List HistoryFile :=
  (sortedDirs dirs).flatMap fun d => ((d.files.getD []).insertionSort fun f g =>
    f.name ≤ g.name).filter fun f => endsWith ".json" f.name

/-- The number of files that are scanned at most. -/
def SCAN_LIMIT : ℕ := 200

/-- The verdict on a scanned file; an error where the scan raises. -/
def weigh (f : HistoryFile) : Except Unit Bool :=
  match f.mtime, f.content with
  | some mtime, some msg => matchReport lib a msg mtime
  | _, _ => .ok false

/-- The time of a file that matches. -/
def reportRank (f : HistoryFile) : Option ℤ :=
  if (weigh lib a f).toOption = some true then f.mtime else none

/-- A file at which the scan raises. -/
def raisesAt (f : HistoryFile) : Bool := (weigh lib a f).toOption.isNone

/-- The scan of all histories. -/
def scanAll (dirs : List HistoryDir) : Option HistoryFile :=
  let files := (scannedFiles dirs).take SCAN_LIMIT
  if files.any (raisesAt lib a) then none
  else (rankedSort (reportRank lib a) files).head?.map Prod.snd

/-- The REPORT that `_scan_mailbox_report` answers with. -/
def reportFor (dirs : List HistoryDir) : Option HistoryFile :=
  (searchKnown lib a dirs a.swarmIds.eraseDups).or (scanAll lib a dirs)

/-- `_scan_mailbox_report`: the body of the REPORT. -/
def scanMailboxReport (dirs : List HistoryDir) : Option Json :=
  (reportFor lib a dirs).map fun f => fieldOr (f.content.getD .null) "body"

end Reports

/-! ## Whose material it is -/

/-- A file of a history that holds a REPORT. -/
def isReport (f : HistoryFile) : Bool :=
  f.content.any fun msg => msg.isDict && msg.get? "kind" = some (.str "REPORT")

/-- The key of the review that a transcript or a REPORT belongs to. -/
structure Ownership where
  session : SessionFile → String
  report : HistoryFile → String

section Others

variable (own : HistoryFile → Bool)

/-- The histories without the files of others. -/
def withoutOthers (dirs : List HistoryDir) : List HistoryDir :=
  dirs.map fun d => { d with files := d.files.map (List.filter own) }

end Others

namespace Ownership

variable (o : Ownership) (reviewKey : String)

def ownsSession (f : SessionFile) : Bool := o.session f = reviewKey

/-- What is no REPORT belongs to no review, and stays. -/
def ownsReport (f : HistoryFile) : Bool := !isReport f || o.report f = reviewKey

end Ownership

/-! ## Transcripts of others -/

section Sessions

variable {lib : TextLibrary} {reviewKey : String} {since : Option ℤ} {own : SessionFile → Bool}

theorem windowed_filter (files : List SessionFile) :
    windowed since (files.filter own) = (windowed since files).filter own := by
  have hsort := filter_sort_down own (fun f : SessionFile => f.mtime.getD 0)
    (files.filter (inWindow since))
  rw [List.filter_filter] at hsort
  rw [windowed, List.filter_filter]
  simp only [Bool.and_comm (inWindow since _)]
  exact hsort.symm

/-- Among the five latest transcripts no other review's does best, and none of one's own that
does best is pushed out of them. -/
def SessionsApart (lib : TextLibrary) (reviewKey : String) (since : Option ℤ)
    (own : SessionFile → Bool) (files : List SessionFile) : Prop :=
  Outranked (sessionScore lib reviewKey) own ((windowed since files).take 5) ∧
    NotMissed (sessionScore lib reviewKey) own 5 (windowed since files)

theorem fallback_apart_iff (root : Option (List SessionFile)) :
    fallbackFindSessionForKey lib reviewKey since root =
        fallbackFindSessionForKey lib reviewKey since (root.map (List.filter own)) ↔
      ∀ files ∈ root, SessionsApart lib reviewKey since own files := by
  cases root with
  | none => exact ⟨fun _ _ h => (by cases h), fun _ => rfl⟩
  | some files =>
    simp only [fallbackFindSessionForKey, Option.map_some, Option.bind_some, windowed_filter,
      Option.mem_some_iff, forall_eq']
    exact champion_take_iff 5 _

end Sessions

/-! ## Histories of others -/

section Reports

variable {lib : TextLibrary} {a : ScanArgs} {own : HistoryFile → Bool} {sid : String}

instance : IsTrans HistoryFile fun f g => f.name ≤ g.name := ⟨fun _ _ _ => String.le_trans⟩
instance : Std.Total fun f g : HistoryFile => f.name ≤ g.name := ⟨fun f g => String.le_total f.name g.name⟩

theorem scannedFiles_without (dirs : List HistoryDir) :
    scannedFiles (withoutOthers own dirs) = (scannedFiles dirs).filter own := by
  have hsorted : sortedDirs (withoutOthers own dirs) = withoutOthers own (sortedDirs dirs) := by
    unfold sortedDirs withoutOthers
    rw [List.all_map]
    split_ifs with h₁ h₂ h₂
    · refine (List.map_insertionSort _ _ _ _ ?_).symm
      exact fun _ _ _ _ => Iff.rfl
    · exact absurd h₁ h₂
    · exact absurd h₂ h₁
    · rfl
  unfold scannedFiles
  rw [hsorted, withoutOthers, List.flatMap_map, List.filter_flatMap]
  refine List.flatMap_congr fun d _ => ?_
  cases d.files with
  | none => rfl
  | some files =>
    simp only [Option.map_some, Option.getD_some]
    rw [← filter_insertionSort, List.filter_filter, List.filter_filter]
    simp only [Bool.and_comm]

theorem listRecords_filter (files : List HistoryFile) :
    listRecords (files.filter own) = (listRecords files).filter own := by
  have hsort := filter_sort_up own (fun f : HistoryFile => f.mtime.getD 0)
    (files.filter fun f => isMessageName f.name && f.mtime.isSome)
  rw [List.filter_filter] at hsort
  rw [listRecords, List.filter_filter]
  simp only [Bool.and_comm (isMessageName _ && _)]
  exact hsort.symm

theorem recordCheck_report {f : HistoryFile} (h : isReport f = true) :
    (recordCheck sid f).toOption.isNone = false := by
  unfold isReport at h
  unfold recordCheck
  cases hf : f.content with
  | none => rfl
  | some msg =>
    rw [hf] at h
    simp only [Option.any_some, Bool.and_eq_true, decide_eq_true_eq] at h
    have hkind : Untyped (kindOf msg) := by
      rw [kindOf, h.2]
      exact untyped_ok _
    have huntyped := untyped_validateMessage hkind (some sid) none (some f.name)
    dsimp only
    split
    · next why hwhy => exact absurd hwhy (huntyped why)
    · rfl
    · rfl

instance : IsTrans HistoryFile laterRecord where
  trans f g h hfg hgh := by
    unfold laterRecord at *
    rcases hfg with hfg | hfg <;> rcases hgh with hgh | hgh
    · exact .inl (String.lt_trans hgh hfg)
    · exact .inl (hgh.1 ▸ hfg)
    · exact .inl (hfg.1 ▸ hgh)
    · exact .inr ⟨hgh.1.trans hfg.1, String.le_trans hgh.2 hfg.2⟩

instance : Std.Total laterRecord where
  total f g := by
    unfold laterRecord
    by_cases hlt : (recordKey g).1 < (recordKey f).1
    · exact .inl (.inl hlt)
    · by_cases hgt : (recordKey f).1 < (recordKey g).1
      · exact .inr (.inl hgt)
      · have heq := String.le_antisymm (String.not_lt.mp hlt) (String.not_lt.mp hgt)
        rcases String.le_total (recordKey g).2 (recordKey f).2 with hle | hle
        · exact .inl (.inr ⟨heq.symm, hle⟩)
        · exact .inr (.inr ⟨heq, hle⟩)

theorem readHistory_without (hown : ∀ f, own f = false → isReport f = true)
    (dirs : List HistoryDir) :
    readHistory (withoutOthers own dirs) sid = (readHistory dirs sid).map (List.filter own) := by
  unfold readHistory
  split_ifs
  · rfl
  · have hfind : (withoutOthers own dirs).find? (·.session = sid) =
        (dirs.find? (·.session = sid)).map fun d => { d with files := d.files.map (List.filter own) } :=
      List.find?_map
    rw [hfind]
    cases dirs.find? (·.session = sid) with
    | none => rfl
    | some d =>
      cases hfiles : d.files with
      | none => simp [hfiles]
      | some files =>
        simp only [Option.map_some, hfiles, Option.bind_some, listRecords_filter]
        have hany : ((listRecords files).filter own).any
            (fun f => (recordCheck sid f).toOption.isNone) =
            (listRecords files).any fun f => (recordCheck sid f).toOption.isNone := by
          rw [List.any_filter]
          congr 1
          funext f
          cases hf : own f with
          | true => rfl
          | false => exact (recordCheck_report (hown f hf)).symm
        rw [hany]
        split_ifs
        · rfl
        · rw [Option.map_some, filter_insertionSort, List.filter_filter, List.filter_filter]
          simp only [Bool.and_comm (own _)]

/-- A record that matches, in the histories of the sessions of the review. -/
def hits (lib : TextLibrary) (a : ScanArgs) (f : HistoryFile) : Bool :=
  (f.content.map fun msg => matchReport lib a msg 0) = some (.ok true)

/-- The records of the sessions of the review, in the order of the search. -/
def knownRecords (dirs : List HistoryDir) (sids : List String) : List HistoryFile :=
  sids.flatMap fun sid => (readHistory dirs sid).getD []

/-- A record that `read_history` returns is compared without an exception. -/
theorem matchReport_record {msg : Json} (hdict : msg.isDict = true)
    (hcreated : ∃ created, msg.get? "created_at" = some (.str created))
    (hreply : ∀ v, msg.get? "reply_to" = some v → v.truthy = true → ∃ s, v = .str s) :
    matchReport lib a msg 0 ≠ .error () := by
  have htext (key : String) (h : ∀ v, msg.get? key = some v → v.truthy = true → ∃ s, v = .str s) :
      ∃ s, fieldOr msg key = .str s := by
    unfold fieldOr
    split
    · next v hv =>
      split_ifs with ht
      · exact h v hv ht
      · exact ⟨"", rfl⟩
    · exact ⟨"", rfl⟩
  obtain ⟨created, hc⟩ := htext "created_at" fun v hv _ => by
    obtain ⟨created, hcreated⟩ := hcreated
    rw [hcreated] at hv
    exact ⟨created, (Option.some.inj hv).symm⟩
  obtain ⟨replyTo, hr⟩ := htext "reply_to" hreply
  have hfresh : fresh lib a msg 0 ≠ .error () := by
    unfold fresh
    rw [hc]
    split_ifs
    · exact nofun
    · exact nofun
    · dsimp only
      split <;> exact nofun
  unfold matchReport
  rw [hdict, hr]
  simp only [Bool.not_true, Bool.false_eq_true, if_false]
  split_ifs
  · exact nofun
  · exact hfresh
  · exact nofun

theorem searchRecords_eq {l : List HistoryFile}
    (hl : ∀ f ∈ l, (recordCheck sid f).toOption = some true) :
    searchRecords lib a l = l.find? (hits lib a) := by
  induction l with
  | nil => rfl
  | cons f rest ih =>
    have ih := ih fun g hg => hl g (List.mem_cons_of_mem _ hg)
    have hf := hl f List.mem_cons_self
    unfold recordCheck at hf
    unfold searchRecords
    cases hcontent : f.content with
    | none =>
      have hno : hits lib a f = false := by rw [hits, hcontent]; rfl
      rw [List.find?_cons_of_neg (by rw [hno]; exact Bool.false_ne_true)]
      exact ih
    | some msg =>
      rw [hcontent] at hf
      dsimp only at hf
      split at hf
      · cases hf
      · cases hf
      · next hvalid =>
        obtain ⟨hdict, hcreated, hreply⟩ := reply_of_valid hvalid
        have hne : matchReport lib a msg 0 ≠ .error () := matchReport_record hdict hcreated hreply
        simp only [Option.map_some]
        cases hm : matchReport lib a msg 0 with
        | error e => exact absurd hm hne
        | ok b =>
          cases b with
          | true =>
            have hyes : hits lib a f = true := by rw [hits, hcontent, Option.map_some, hm]; rfl
            rw [List.find?_cons_of_pos hyes]
          | false =>
            have hno : hits lib a f = false := by rw [hits, hcontent, Option.map_some, hm]; rfl
            rw [List.find?_cons_of_neg (by rw [hno]; exact Bool.false_ne_true)]
            exact ih

theorem checked_readHistory {dirs : List HistoryDir} {l : List HistoryFile}
    (h : readHistory dirs sid = some l) : ∀ f ∈ l, (recordCheck sid f).toOption = some true := by
  intro f hf
  unfold readHistory at h
  split_ifs at h
  split at h
  · cases h
    exact absurd hf List.not_mem_nil
  · obtain ⟨files, -, h⟩ := Option.bind_eq_some_iff.mp h
    split_ifs at h
    cases h
    rw [List.mem_insertionSort, List.mem_filter] at hf
    exact of_decide_eq_true hf.2

theorem searchKnown_eq (dirs : List HistoryDir) (sids : List String) :
    searchKnown lib a dirs sids = (knownRecords dirs sids).find? (hits lib a) := by
  induction sids with
  | nil => rfl
  | cons sid rest ih =>
    have hcons : knownRecords dirs (sid :: rest) =
        (readHistory dirs sid).getD [] ++ knownRecords dirs rest := rfl
    rw [searchKnown, ih, hcons, List.find?_append]
    congr 1
    cases h : readHistory dirs sid with
    | none => rfl
    | some l => exact searchRecords_eq (checked_readHistory h)

theorem knownRecords_without (hown : ∀ f, own f = false → isReport f = true)
    (dirs : List HistoryDir) (sids : List String) :
    knownRecords (withoutOthers own dirs) sids = (knownRecords dirs sids).filter own := by
  unfold knownRecords
  rw [List.filter_flatMap]
  refine List.flatMap_congr fun sid _ => ?_
  rw [readHistory_without hown]
  cases readHistory dirs sid <;> rfl

/-! ### When the others make no difference -/

/-- In the sessions of the review the first hit is not another review's. -/
def KnownApart (lib : TextLibrary) (a : ScanArgs) (own : HistoryFile → Bool)
    (records : List HistoryFile) : Prop :=
  ∀ l₁ f l₂, records = l₁ ++ f :: l₂ → own f = false → hits lib a f = true →
    ∃ h ∈ l₁, own h = true ∧ hits lib a h = true

/-- The scan of these files answers nothing: it raises at one of them, or none matches. -/
def Silent (lib : TextLibrary) (a : ScanArgs) (files : List HistoryFile) : Prop :=
  (∃ f ∈ files, raisesAt lib a f = true) ∨ ∀ f ∈ files, reportRank lib a f = none

/-- The scan raises at none of these files. -/
def Calm (lib : TextLibrary) (a : ScanArgs) (files : List HistoryFile) : Prop :=
  ∀ f ∈ files, raisesAt lib a f = false

/-- Among the first two hundred files no REPORT of another review is the latest, and none of
one's own that is the latest is pushed out of them; or nothing is answered either way. -/
def ScanApart (lib : TextLibrary) (a : ScanArgs) (own : HistoryFile → Bool)
    (files : List HistoryFile) : Prop :=
  (Calm lib a (files.take SCAN_LIMIT) ∧ Calm lib a ((files.filter own).take SCAN_LIMIT) ∧
      Outranked (reportRank lib a) own (files.take SCAN_LIMIT) ∧
      NotMissed (reportRank lib a) own SCAN_LIMIT files) ∨
    Silent lib a (files.take SCAN_LIMIT) ∧ Silent lib a ((files.filter own).take SCAN_LIMIT)

theorem scanAll_calm {dirs : List HistoryDir}
    (h : Calm lib a ((scannedFiles dirs).take SCAN_LIMIT)) :
    scanAll lib a dirs = champion (reportRank lib a) ((scannedFiles dirs).take SCAN_LIMIT) := by
  have hany : ((scannedFiles dirs).take SCAN_LIMIT).any (raisesAt lib a) = false :=
    List.any_eq_false.mpr fun f hf => by rw [h f hf]; exact Bool.false_ne_true
  rw [scanAll, hany]
  exact rankedSort_head _

theorem scanAll_silent_iff {dirs : List HistoryDir} :
    scanAll lib a dirs = none ↔ Silent lib a ((scannedFiles dirs).take SCAN_LIMIT) := by
  by_cases h : ∃ f ∈ (scannedFiles dirs).take SCAN_LIMIT, raisesAt lib a f = true
  · have hany : ((scannedFiles dirs).take SCAN_LIMIT).any (raisesAt lib a) = true :=
      List.any_eq_true.mpr h
    refine iff_of_true ?_ (.inl h)
    rw [scanAll, hany]
    rfl
  · have hcalm : Calm lib a ((scannedFiles dirs).take SCAN_LIMIT) := fun f hf =>
      Bool.eq_false_iff.mpr fun hr => h ⟨f, hf, hr⟩
    rw [scanAll_calm hcalm, champion_eq_none_iff]
    exact (or_iff_right h).symm

theorem scanAll_mem {dirs : List HistoryDir} {f : HistoryFile} (h : scanAll lib a dirs = some f) :
    f ∈ scannedFiles dirs := by
  unfold scanAll at h
  dsimp only at h
  split_ifs at h
  rw [rankedSort_head] at h
  obtain ⟨l₁, l₂, r, hl, -⟩ := champion_wins h
  exact List.mem_of_mem_take (hl ▸ List.mem_append_right _ List.mem_cons_self)

theorem scanAll_apart_iff (dirs : List HistoryDir) :
    scanAll lib a dirs = scanAll lib a (withoutOthers own dirs) ↔
      ScanApart lib a own (scannedFiles dirs) := by
  have hloud {l : List HistoryFile} (h : ¬ Calm lib a l) : Silent lib a l := by
    by_contra hno
    exact h fun f hf => Bool.eq_false_iff.mpr fun hr => hno (.inl ⟨f, hf, hr⟩)
  constructor
  · intro heq
    by_cases hboth : Calm lib a ((scannedFiles dirs).take SCAN_LIMIT) ∧
        Calm lib a (((scannedFiles dirs).filter own).take SCAN_LIMIT)
    · obtain ⟨h₁, h₂⟩ := hboth
      rw [← scannedFiles_without] at h₂
      rw [scanAll_calm h₁, scanAll_calm h₂, scannedFiles_without] at heq
      rw [scannedFiles_without] at h₂
      exact .inl ⟨h₁, h₂, (champion_take_iff _ _).mp heq⟩
    · refine .inr ?_
      rw [← scannedFiles_without] at hboth ⊢
      rw [← scanAll_silent_iff, ← scanAll_silent_iff]
      rcases not_and_or.mp hboth with h | h
      · have hnone := scanAll_silent_iff.mpr (hloud h)
        exact ⟨hnone, heq ▸ hnone⟩
      · have hnone := scanAll_silent_iff.mpr (hloud h)
        exact ⟨heq.trans hnone, hnone⟩
  · rintro (⟨h₁, h₂, h⟩ | ⟨h₁, h₂⟩)
    · rw [← scannedFiles_without] at h₂
      rw [scanAll_calm h₁, scanAll_calm h₂, scannedFiles_without]
      exact (champion_take_iff _ _).mpr h
    · rw [← scannedFiles_without] at h₂
      rw [scanAll_silent_iff.mpr h₁, scanAll_silent_iff.mpr h₂]

/-- For the REPORTs the other reviews make no difference. -/
def ReportsApart (lib : TextLibrary) (a : ScanArgs) (own : HistoryFile → Bool)
    (dirs : List HistoryDir) : Prop :=
  KnownApart lib a own (knownRecords dirs a.swarmIds.eraseDups) ∧
    ((∀ f ∈ knownRecords dirs a.swarmIds.eraseDups, hits lib a f = false) →
      ScanApart lib a own (scannedFiles dirs))

theorem reportFor_apart_iff (hown : ∀ f, own f = false → isReport f = true)
    (dirs : List HistoryDir) :
    reportFor lib a dirs = reportFor lib a (withoutOthers own dirs) ↔
      ReportsApart lib a own dirs := by
  obtain ⟨l, hl⟩ : ∃ l, l = knownRecords dirs a.swarmIds.eraseDups := ⟨_, rfl⟩
  rw [ReportsApart, KnownApart, ← find?_filter_iff, reportFor, reportFor, searchKnown_eq,
    searchKnown_eq, knownRecords_without hown, ← hl]
  cases hfind : l.find? (hits lib a) with
  | some f =>
    have hhit : ¬ ∀ f ∈ l, hits lib a f = false := fun h => by
      have hf := List.find?_some hfind
      rw [h f (List.mem_of_find?_eq_some hfind)] at hf
      cases hf
    rw [Option.some_or]
    constructor
    · intro heq
      refine ⟨?_, fun h => absurd h hhit⟩
      cases hown' : (l.filter own).find? (hits lib a) with
      | some g =>
        rw [hown', Option.some_or] at heq
        exact heq
      | none =>
        -- the hit is another review's, so the scan of the rest does not come upon it
        rw [hown', Option.none_or] at heq
        have hmem := scanAll_mem heq.symm
        rw [scannedFiles_without] at hmem
        refine absurd (List.find?_some hfind) ?_
        exact List.find?_eq_none.mp hown' f (List.mem_filter.mpr
          ⟨List.mem_of_find?_eq_some hfind, (List.mem_filter.mp hmem).2⟩)
    · rintro ⟨h, -⟩
      rw [← h]
      rfl
  | none =>
    have hnone : (l.filter own).find? (hits lib a) = none :=
      List.find?_eq_none.mpr fun f hf => List.find?_eq_none.mp hfind f (List.mem_of_mem_filter hf)
    have hno : ∀ f ∈ l, hits lib a f = false := fun f hf =>
      Bool.eq_false_iff.mpr (List.find?_eq_none.mp hfind f hf)
    rw [hnone, Option.none_or, Option.none_or, scanAll_apart_iff]
    exact ⟨fun h => ⟨rfl, fun _ => h⟩, fun h => h.2 hno⟩

end Reports

/-! ## The answers of a review -/

section Answers

variable (lib : TextLibrary) (o : Ownership)

theorem isReport_of_not_owned {reviewKey : String} {f : HistoryFile}
    (h : o.ownsReport reviewKey f = false) : isReport f = true := by
  unfold Ownership.ownsReport at h
  cases hf : isReport f with
  | true => rfl
  | false =>
    rw [hf] at h
    cases h

end Answers

/-! ### Two reviews with one tail -/

/-- The keys of two reviews of different projects. -/
def firstKey : String := "proj:oracle:gfx:blurry"
def secondKey : String := "demo:oracle:gfx:blurry"

/-- The library on the texts of the example: ASCII, the two keys, and no times. -/
def plainLibrary : TextLibrary where
  lower s := String.ofList (s.toList.map Char.toLower)
  sha256 s :=
    if s = firstKey then "24345534f9ac34c9e7275dbaa17aed18237cfc563659a44ff55594e136e12202"
    else "93617fd2a2d4a0d47922155dc9cba1b94142f36a51922629f0a515a4071705b0"
  timestamp _ := none

/-- The transcript of the second review. -/
def secondTranscript : SessionFile where
  dir := "sessions"
  name := "b.jsonl"
  mtime := some 1
  text := some "answer for demo:oracle:gfx:blurry"

/-- The REPORT of the second review, by its short slug. -/
def secondReport : HistoryFile where
  name := "m.json"
  mtime := some 1
  content := some (.obj [("kind", .str "REPORT"), ("reply_to", .str "e-gfx-blurry"),
    ("body", .str "answer of the second review")])

/-- A transcript mentions the key of its own review and no other's. -/
def MentionsOwn (keys : List String) (owner : String) (f : SessionFile) : Prop :=
  ∀ text, f.text = some text → ∀ key ∈ keys, (contains key text = true ↔ key = owner)

/-- A REPORT answers to one of the encodings of its own review's key. -/
def RepliesToOwn (lib : TextLibrary) (owner : String) (f : HistoryFile) : Prop :=
  ∀ msg, f.content = some msg → ∃ r ∈ reviewReplyToCandidates lib owner,
    msg.get? "reply_to" = some (.str r)

end AiMeshChat.Oracle
