import AiMeshChat.Mailbox.LeaseRole
import AiMeshChat.Mailbox.Replay

/-!
# What a mailbox holds

The four boxes and the claim files of one mailbox stand for one thing: where each message
is, and for a message in `processing` who has claimed it (`Holding`). A disk shows a holding
if its boxes hold the messages where the holding has them and its claims are those of the
messages in `processing`, each named after its message and its owner (`Shows`).

An operation of the store that moves a message renames its file and creates or removes its
claim in two steps. The rules below say what each pair of steps does to the holding.
-/

namespace AiMeshChat.Mailbox.Holdings

open Lib Replay

/-! ## Holdings -/

/-- Where a message is; one in `processing` has been claimed. -/
inductive Spot
  | inbox
  | held (owner : String)
  | archive
  | corrupt

def Spot.box : Spot → Box
  | inbox => .inbox
  | held _ => .processing
  | archive => .archive
  | corrupt => .corrupt

/-- The place of every message of a mailbox. -/
abbrev Holding := String → Option Spot

/-- The claim `j` is on the message `m` and has the owner `o`. -/
structure IsOn (m o : String) (j : Json) : Prop where
  dict : j.isDict = true
  message : j.get? "msg_id" = some (.str m)
  owner : j.get? "owner" = some (.str o)

theorem IsOn.inj {m m' o o' : String} {j : Json} (h : IsOn m o j) (h' : IsOn m' o' j) :
    m = m' ∧ o = o' := by
  have hm := h.message.symm.trans h'.message
  have ho := h.owner.symm.trans h'.owner
  simp only [Option.some.injEq, Json.str.injEq] at hm ho
  exact ⟨hm, ho⟩

section

variable (sid agent : String)

/-- The boxes hold the messages where `h` has them, and no other files but hidden ones. -/
structure Boxed (s : Disk) (h : Holding) : Prop where
  plain : ∀ m spot, h m = some spot → dotted (jsonName m) = false
  place : ∀ b m, dotted (jsonName m) = false →
    ((s.files.get? ⟨.box sid agent b, jsonName m⟩).isSome = true ↔ (h m).map Spot.box = some b)
  hidden : ∀ name, isMessageName name = true → dotted name = true →
    s.files.get? ⟨.box sid agent .inbox, name⟩ = none

/-- The claims are those of the messages in `processing`, each under its name. -/
structure Claiming (s : Disk) (h : Holding) : Prop where
  named : ∀ name f, startsWith ".claim-" name = true →
    s.files.get? ⟨.box sid agent .processing, name⟩ = some f →
    ∃ m o j, name = claimName (claimKey m o) ∧ f.data = .json j ∧ IsOn m o j ∧ h m = some (.held o)
  held : ∀ m o, h m = some (.held o) →
    ∃ f j, s.files.get? ⟨.box sid agent .processing, claimName (claimKey m o)⟩ = some f ∧
      f.data = .json j ∧ IsOn m o j

/-- The disk shows the holding. -/
structure Shows (s : Disk) (h : Holding) : Prop where
  boxes : Boxed sid agent s h
  claims : Claiming sid agent s h

end

/-! ## Changes of the files -/

/-- The path `p` holds `x`, and the others hold what they held. -/
def Sets (s : Disk) (p : MPath) (x : Option MFile) (s' : Disk) : Prop :=
  ∀ q, s'.files.get? q = if q = p then x else s.files.get? q

/-- The file at `src` is now at `dst`. -/
def Moves (s : Disk) (src dst : MPath) (s' : Disk) : Prop :=
  ∃ f, s.files.get? src = some f ∧
    ∀ q, s'.files.get? q = if q = dst then some f else if q = src then none else s.files.get? q

/-- Only drafts differ. -/
def Drafts (s s' : Disk) : Prop :=
  ∀ p : MPath, startsWith ".tmp-" p.name = false → s'.files.get? p = s.files.get? p

theorem Sets.drafts {s s' : Disk} {p : MPath} {x : Option MFile} (h : Sets s p x s')
    (hp : startsWith ".tmp-" p.name = true) : Drafts s s' := by
  intro q hq
  rw [h q, if_neg]
  rintro rfl
  rw [hp] at hq
  cases hq

theorem drafts_of_files {s s' : Disk} (h : s'.files = s.files) : Drafts s s' :=
  fun _ _ => by rw [h]

/-! ### Names -/

theorem not_tmp_of_plain {name : String} (h : dotted name = false) :
    startsWith ".tmp-" name = false := by
  rw [← Bool.not_eq_true] at h ⊢
  exact fun ht => h (startsWith_trans (by decide) ht)

theorem not_tmp_of_claim {name : String} (h : startsWith ".claim-" name = true) :
    startsWith ".tmp-" name = false := by
  rw [← Bool.not_eq_true]
  exact fun ht => not_startsWith_both (by decide) (by decide) h ht

theorem not_tmp_of_message {name : String} (h : isMessageName name = true) :
    startsWith ".tmp-" name = false := by
  simp only [isMessageName, Bool.and_eq_true, Bool.not_eq_true'] at h
  exact h.2

theorem claimName_ne_jsonName {m key : String} (hm : dotted (jsonName m) = false) :
    claimName key ≠ jsonName m := by
  intro h
  rw [← h, dotted_of_claim (startsWith_claimName key)] at hm
  cases hm

theorem endsWith_append (p s : String) : endsWith s (p ++ s) = true := by
  simp [endsWith, String.toList_append, List.isSuffixOf_iff_suffix]

theorem isMessageName_of_plain {m : String} (h : dotted (jsonName m) = false) :
    isMessageName (jsonName m) = true := by
  have hend : endsWith ".json" (jsonName m) = true := endsWith_append _ _
  have hsync : startsWith ".sync-conflict-" (jsonName m) = false := by
    rw [← Bool.not_eq_true] at h ⊢
    exact fun ht => h (startsWith_trans (by decide) ht)
  rw [isMessageName, hend, hsync, not_tmp_of_plain h]
  rfl

theorem globMatch_of_claimName (key : String) : globMatch ".claim-" ".json" (claimName key) = true := by
  have hend : endsWith ".json" (claimName key) = true := endsWith_append _ _
  rw [globMatch, hend, startsWith_claimName]
  simp only [Bool.and_self, Bool.true_and, decide_eq_true_eq, claimName, String.length_append]
  omega

theorem globMatch_claimName (m o : String) :
    globMatch (".claim-" ++ m ++ "-") ".json" (claimName (claimKey m o)) = true := by
  have hname : claimName (claimKey m o) = ".claim-" ++ m ++ "-" ++ (o ++ ".json") := by
    simp only [claimName, claimKey, String.append_assoc]
  have hend : endsWith ".json" (claimName (claimKey m o)) = true := endsWith_append _ _
  rw [globMatch, hend, hname, startsWith_append]
  simp only [Bool.and_self, Bool.true_and, decide_eq_true_eq, String.length_append]
  omega

theorem IsOn.claimMsgId {m o : String} {j : Json} (h : IsOn m o j)
    (hm : dotted (jsonName m) = false) (name : String) : claimMsgId j name = m := by
  have hne : m ≠ "" := by
    rintro rfl
    exact absurd hm (by decide)
  simp [Mailbox.claimMsgId, h.message, Json.truthy, hne, strOf]

theorem isOn_claimMeta (m o : String) (now : ℕ) : IsOn m o (claimMeta m o now) := ⟨rfl, rfl, rfl⟩

theorem IsOn.renewed {m o : String} {j : Json} (h : IsOn m o j) (v w : Json) :
    IsOn m o ((j.set "claimed_at" v).set "renewed_at" w) where
  dict := by rw [Json.isDict_set, Json.isDict_set, h.dict]
  message := by rw [Json.get?_set_ne _ _ (by decide), Json.get?_set_ne _ _ (by decide), h.message]
  owner := by rw [Json.get?_set_ne _ _ (by decide), Json.get?_set_ne _ _ (by decide), h.owner]

/-! ## What the changes do to a holding -/

section Changes

variable {sid agent : String} {s s₁ s₂ s' : Disk} {h : Holding} {m : String}

theorem Shows.congr_boxes (hs : Shows sid agent s h)
    (hd : ∀ b name, startsWith ".tmp-" name = false →
      s'.files.get? ⟨.box sid agent b, name⟩ = s.files.get? ⟨.box sid agent b, name⟩) :
    Shows sid agent s' h where
  boxes := by
    refine ⟨hs.boxes.plain, fun b m hm => ?_, fun name hname hdot => ?_⟩
    · rw [hd b _ (not_tmp_of_plain hm)]
      exact hs.boxes.place b m hm
    · rw [hd .inbox name (not_tmp_of_message hname)]
      exact hs.boxes.hidden name hname hdot
  claims := by
    refine ⟨fun name f hname hf => ?_, fun m o hm => ?_⟩
    · rw [hd .processing name (not_tmp_of_claim hname)] at hf
      exact hs.claims.named name f hname hf
    · rw [hd .processing _ (not_tmp_of_claim (startsWith_claimName _))]
      exact hs.claims.held m o hm

theorem Shows.congr (hs : Shows sid agent s h) (hd : Drafts s s') : Shows sid agent s' h :=
  hs.congr_boxes fun b name hname => hd ⟨.box sid agent b, name⟩ hname

variable {b : Box} {o : String} {k : Spot} {x : Option MFile} {f : MFile} {j : Json}

theorem Shows.at_box (hs : Shows sid agent s h) (hm : dotted (jsonName m) = false)
    (hf : (s.files.get? ⟨.box sid agent b, jsonName m⟩).isSome = true) :
    ∃ spot, h m = some spot ∧ spot.box = b := by
  have hplace := (hs.boxes.place b m hm).mp hf
  rwa [Option.map_eq_some_iff] at hplace

theorem Shows.at_inbox (hs : Shows sid agent s h) (hm : dotted (jsonName m) = false)
    (hf : (s.files.get? ⟨.box sid agent .inbox, jsonName m⟩).isSome = true) :
    h m = some .inbox := by
  obtain ⟨spot, hspot, hbox⟩ := hs.at_box hm hf
  cases spot <;> first | exact hspot | cases hbox

theorem Shows.at_processing (hs : Shows sid agent s h) (hm : dotted (jsonName m) = false)
    (hf : (s.files.get? ⟨.box sid agent .processing, jsonName m⟩).isSome = true) :
    ∃ o, h m = some (.held o) := by
  obtain ⟨spot, hspot, hbox⟩ := hs.at_box hm hf
  cases spot with
  | held o => exact ⟨o, hspot⟩
  | _ => cases hbox

theorem Shows.isSome_held (hs : Shows sid agent s h) (hm : h m = some (.held o)) :
    (s.files.get? ⟨.box sid agent .processing, jsonName m⟩).isSome = true :=
  (hs.boxes.place .processing m (hs.boxes.plain m _ hm)).mpr (by rw [hm]; rfl)

theorem Boxed.move (hb : Boxed sid agent s h) {spot : Spot} (hm : h m = some spot)
    (hmove : Moves s ⟨.box sid agent spot.box, jsonName m⟩ ⟨.box sid agent k.box, jsonName m⟩ s') :
    Boxed sid agent s' (Function.update h m (some k)) := by
  obtain ⟨f, -, hget⟩ := hmove
  have hplain := hb.plain m spot hm
  refine ⟨fun m' k' hm' => ?_, fun b m' hm' => ?_, fun name hname hdot => ?_⟩
  · by_cases he : m' = m
    · rw [he]
      exact hplain
    · rw [Function.update_of_ne he] at hm'
      exact hb.plain m' k' hm'
  · by_cases he : m' = m
    · rw [he, hget, Function.update_self, Option.map_some]
      by_cases hdst : b = k.box
      · rw [hdst, if_pos rfl]
        exact ⟨fun _ => rfl, fun _ => rfl⟩
      · have hd : (⟨.box sid agent b, jsonName m⟩ : MPath) ≠ ⟨.box sid agent k.box, jsonName m⟩ := by
          intro hp
          injection hp with hp
          injection hp with _ _ hp
          exact hdst hp
        rw [if_neg hd]
        refine ⟨fun hin => ?_, fun hbox => absurd (Option.some.inj hbox).symm hdst⟩
        split_ifs at hin with hsrc
        · cases hin
        · have hplace := (hb.place b m hplain).mp hin
          rw [hm, Option.map_some] at hplace
          rw [Option.some.inj hplace] at hsrc
          exact absurd rfl hsrc
    · have hname : ∀ b', (⟨.box sid agent b, jsonName m'⟩ : MPath) ≠ ⟨.box sid agent b', jsonName m⟩ :=
        fun b' hp => he (jsonName_inj (congrArg Path.name hp))
      rw [hget, if_neg (hname _), if_neg (hname _), Function.update_of_ne he]
      exact hb.place b m' hm'
  · have hother : ∀ b', (⟨.box sid agent .inbox, name⟩ : MPath) ≠ ⟨.box sid agent b', jsonName m⟩ := by
      intro b' hp
      have he : name = jsonName m := congrArg Path.name hp
      rw [he, hplain] at hdot
      cases hdot
    rw [hget, if_neg (hother _), if_neg (hother _)]
    exact hb.hidden name hname hdot

theorem Boxed.congr_claim (hb : Boxed sid agent s h) {key : String}
    (hset : Sets s ⟨.box sid agent .processing, claimName key⟩ x s') : Boxed sid agent s' h := by
  refine ⟨hb.plain, fun b m' hm' => ?_, fun name hname hdot => ?_⟩
  · rw [hset, if_neg fun hp => claimName_ne_jsonName hm' (congrArg Path.name hp).symm]
    exact hb.place b m' hm'
  · rw [hset, if_neg fun hp => by cases congrArg Path.dir hp]
    exact hb.hidden name hname hdot

theorem Claiming.congr (hc : Claiming sid agent s h) (hm : dotted (jsonName m) = false) {b' : Box}
    (hmove : Moves s ⟨.box sid agent b, jsonName m⟩ ⟨.box sid agent b', jsonName m⟩ s') :
    Claiming sid agent s' h := by
  obtain ⟨f, -, hget⟩ := hmove
  have hother : ∀ name, startsWith ".claim-" name = true → ∀ b',
      (⟨.box sid agent .processing, name⟩ : MPath) ≠ ⟨.box sid agent b', jsonName m⟩ := by
    intro name hname b' hp
    have he : name = jsonName m := congrArg Path.name hp
    rw [← he, dotted_of_claim hname] at hm
    cases hm
  refine ⟨fun name g hname hg => ?_, fun m' o hm' => ?_⟩
  · rw [hget, if_neg (hother name hname _), if_neg (hother name hname _)] at hg
    exact hc.named name g hname hg
  · rw [hget, if_neg (hother _ (startsWith_claimName _) _),
      if_neg (hother _ (startsWith_claimName _) _)]
    exact hc.held m' o hm'

theorem Claiming.unclaimed (hc : Claiming sid agent s h) {x : Option Spot}
    (hold : ∀ o, h m ≠ some (.held o)) (hnew : ∀ o, x ≠ some (.held o)) :
    Claiming sid agent s (Function.update h m x) := by
  refine ⟨fun name f hname hf => ?_, fun m' o hm' => ?_⟩
  · obtain ⟨m', o, j, heq, hdata, hon, hm'⟩ := hc.named name f hname hf
    refine ⟨m', o, j, heq, hdata, hon, ?_⟩
    rwa [Function.update_of_ne]
    rintro rfl
    exact hold o hm'
  · by_cases he : m' = m
    · rw [he, Function.update_self] at hm'
      exact absurd hm' (hnew o)
    · rw [Function.update_of_ne he] at hm'
      exact hc.held m' o hm'

theorem Claiming.drop (hc : Claiming sid agent s h) (hm : h m = some (.held o)) {x : Option Spot}
    (hnew : ∀ o, x ≠ some (.held o))
    (hset : Sets s ⟨.box sid agent .processing, claimName (claimKey m o)⟩ none s') :
    Claiming sid agent s' (Function.update h m x) := by
  obtain ⟨f, j, hf, hdata, hon⟩ := hc.held m o hm
  refine ⟨fun name g hname hg => ?_, fun m' o' hm' => ?_⟩
  · rw [hset] at hg
    split_ifs at hg with hp
    obtain ⟨m', o', j', heq, hdata', hon', hm'⟩ := hc.named name g hname hg
    refine ⟨m', o', j', heq, hdata', hon', ?_⟩
    rwa [Function.update_of_ne]
    rintro rfl
    rw [hm] at hm'
    cases hm'
    exact hp (by rw [heq])
  · by_cases he : m' = m
    · rw [he, Function.update_self] at hm'
      exact absurd hm' (hnew o')
    · rw [Function.update_of_ne he] at hm'
      obtain ⟨f', j', hf', hdata', hon'⟩ := hc.held m' o' hm'
      refine ⟨f', j', ?_, hdata', hon'⟩
      rw [hset, if_neg]
      · exact hf'
      · intro hp
        rw [hp, hf] at hf'
        cases hf'
        rw [hdata] at hdata'
        cases hdata'
        exact he (hon'.inj hon).1

theorem Claiming.add (hc : Claiming sid agent s h) (hold : ∀ o, h m ≠ some (.held o))
    (hfree : s.files.get? ⟨.box sid agent .processing, claimName (claimKey m o)⟩ = none)
    (hdata : f.data = .json j) (hon : IsOn m o j)
    (hset : Sets s ⟨.box sid agent .processing, claimName (claimKey m o)⟩ (some f) s') :
    Claiming sid agent s' (Function.update h m (some (.held o))) := by
  refine ⟨fun name g hname hg => ?_, fun m' o' hm' => ?_⟩
  · rw [hset] at hg
    split_ifs at hg with hp
    · cases hg
      exact ⟨m, o, j, congrArg Path.name hp, hdata, hon, Function.update_self ..⟩
    · obtain ⟨m', o', j', heq, hdata', hon', hm'⟩ := hc.named name g hname hg
      refine ⟨m', o', j', heq, hdata', hon', ?_⟩
      rwa [Function.update_of_ne]
      rintro rfl
      exact hold o' hm'
  · by_cases he : m' = m
    · rw [he, Function.update_self] at hm'
      cases hm'
      exact ⟨f, j, by rw [he, hset, if_pos rfl], hdata, he ▸ hon⟩
    · rw [Function.update_of_ne he] at hm'
      obtain ⟨f', j', hf', hrest⟩ := hc.held m' o' hm'
      refine ⟨f', j', ?_, hrest⟩
      rw [hset, if_neg]
      · exact hf'
      · intro hp
        rw [hp, hfree] at hf'
        cases hf'

theorem Shows.shift (hs : Shows sid agent s h) {spot : Spot} (hm : h m = some spot)
    (hold : ∀ o, spot ≠ .held o) (hnew : ∀ o, k ≠ .held o)
    (hmove : Moves s ⟨.box sid agent spot.box, jsonName m⟩ ⟨.box sid agent k.box, jsonName m⟩ s') :
    Shows sid agent s' (Function.update h m (some k)) where
  boxes := hs.boxes.move hm hmove
  claims := by
    refine (hs.claims.congr (hs.boxes.plain m _ hm) hmove).unclaimed (fun o ho => ?_) fun o ho => ?_
    · exact hold o (Option.some.inj (hm.symm.trans ho))
    · exact hnew o (Option.some.inj ho)

/-- A claimed message leaves `processing`, and then its claim is dropped. -/
theorem Shows.leave (hs : Shows sid agent s h) (hm : h m = some (.held o)) (hnew : ∀ o, k ≠ .held o)
    (hmove : Moves s ⟨.box sid agent .processing, jsonName m⟩ ⟨.box sid agent k.box, jsonName m⟩ s₁)
    (hset : Sets s₁ ⟨.box sid agent .processing, claimName (claimKey m o)⟩ none s₂) :
    Shows sid agent s₂ (Function.update h m (some k)) where
  boxes := (hs.boxes.move hm hmove).congr_claim hset
  claims := (hs.claims.congr (hs.boxes.plain m _ hm) hmove).drop hm
    (fun o ho => hnew o (Option.some.inj ho)) hset

theorem Shows.enter (hs : Shows sid agent s h) {o : String} {f : MFile} {j : Json}
    (hm : h m = some .inbox)
    (hfree : s.files.get? ⟨.box sid agent .processing, claimName (claimKey m o)⟩ = none)
    (hdata : f.data = .json j) (hon : IsOn m o j)
    (hset : Sets s ⟨.box sid agent .processing, claimName (claimKey m o)⟩ (some f) s₁)
    (hmove : Moves s₁ ⟨.box sid agent .inbox, jsonName m⟩ ⟨.box sid agent .processing, jsonName m⟩ s₂) :
    Shows sid agent s₂ (Function.update h m (some (.held o))) where
  boxes := (hs.boxes.congr_claim hset).move hm hmove
  claims := by
    refine (hs.claims.add (fun o' ho => ?_) hfree hdata hon hset).congr
      (hs.boxes.plain m _ hm) hmove
    rw [hm] at ho
    cases ho

theorem Shows.rewrite (hs : Shows sid agent s h) (hm : h m = some (.held o))
    (hdata : f.data = .json j) (hon : IsOn m o j)
    (hset : Sets s ⟨.box sid agent .processing, claimName (claimKey m o)⟩ (some f) s') :
    Shows sid agent s' h where
  boxes := hs.boxes.congr_claim hset
  claims := by
    refine ⟨fun name g hname hg => ?_, fun m' o' hm' => ?_⟩
    · rw [hset] at hg
      split_ifs at hg with hp
      · cases hg
        exact ⟨m, o, j, congrArg Path.name hp, hdata, hon, hm⟩
      · exact hs.claims.named name g hname hg
    · obtain ⟨f', j', hf', hdata', hon'⟩ := hs.claims.held m' o' hm'
      rw [hset]
      split_ifs with hp
      · obtain ⟨f₀, j₀, hf₀, hdata₀, hon₀⟩ := hs.claims.held m o hm
        rw [hp, hf₀] at hf'
        cases hf'
        rw [hdata₀] at hdata'
        cases hdata'
        obtain ⟨rfl, rfl⟩ := hon'.inj hon₀
        exact ⟨f, j, rfl, hdata, hon⟩
      · exact ⟨f', j', hf', hdata', hon'⟩

theorem Claiming.congr_box (hc : Claiming sid agent s h) (hb : b ≠ .processing) {name : String}
    (hset : Sets s ⟨.box sid agent b, name⟩ x s') : Claiming sid agent s' h := by
  have hother : ∀ n, (⟨.box sid agent .processing, n⟩ : MPath) ≠ ⟨.box sid agent b, name⟩ := by
    intro n hp
    have hd : Dir.box sid agent .processing = .box sid agent b := congrArg Path.dir hp
    injection hd with _ _ hd
    exact hb hd.symm
  refine ⟨fun n f hn hf => ?_, fun m o hm => ?_⟩
  · rw [hset, if_neg (hother n)] at hf
    exact hc.named n f hn hf
  · rw [hset, if_neg (hother _)]
    exact hc.held m o hm

theorem Shows.remove (hs : Shows sid agent s h) (hm : h m = some .archive)
    (hset : Sets s ⟨.box sid agent .archive, jsonName m⟩ none s') :
    Shows sid agent s' (Function.update h m none) where
  boxes := by
    refine ⟨fun m' spot hm' => ?_, fun b m' hm' => ?_, fun name hname hdot => ?_⟩
    · by_cases he : m' = m
      · rw [he, Function.update_self] at hm'
        cases hm'
      · rw [Function.update_of_ne he] at hm'
        exact hs.boxes.plain m' spot hm'
    · by_cases he : m' = m
      · rw [he, Function.update_self, hset]
        refine ⟨fun hin => ?_, fun hin => by cases hin⟩
        split_ifs at hin with hp
        · cases hin
        · have hplace := (hs.boxes.place b m (he ▸ hm')).mp hin
          rw [hm, Option.map_some] at hplace
          rw [← Option.some.inj hplace] at hp
          exact absurd rfl hp
      · rw [hset, if_neg fun hp => he (jsonName_inj (congrArg Path.name hp)), Function.update_of_ne he]
        exact hs.boxes.place b m' hm'
    · rw [hset, if_neg fun hp => by cases congrArg Path.dir hp]
      exact hs.boxes.hidden name hname hdot
  claims := by
    refine (hs.claims.congr_box (by decide) hset).unclaimed (fun o ho => ?_) fun _ h => by cases h
    rw [hm] at ho
    cases ho

theorem Shows.congr_archive (hs : Shows sid agent s h) {name : String} (hname : dotted name = true)
    (hset : Sets s ⟨.box sid agent .archive, name⟩ x s') : Shows sid agent s' h where
  boxes := by
    refine ⟨hs.boxes.plain, fun b m hm => ?_, fun n hn hdot => ?_⟩
    · rw [hset, if_neg]
      · exact hs.boxes.place b m hm
      · intro hp
        have he : jsonName m = name := congrArg Path.name hp
        rw [he, hname] at hm
        cases hm
    · rw [hset, if_neg fun hp => by cases congrArg Path.dir hp]
      exact hs.boxes.hidden n hn hdot
  claims := hs.claims.congr_box (by decide) hset

end Changes

/-! ## Operations -/

section Rules

variable {α : Type} {i : ℕ} {s : Disk} {Q : Except PyErr α → Disk → Prop}

theorem look_ends {o : Op} {f : Ans o → Call α} (ho : o.looks = true)
    (h : ∀ a s', s'.files = s.files → (f a).Ends world i NoFault s' Q) :
    (Prog.op o >>= f).Ends world i NoFault s Q :=
  Prog.ends_op_bind fun _ a s' _ hp => h a s' (looked_perform ho hp).1

theorem looks_ends {β : Type} {p : Call β} {f : β → Call α} {M : β → Prop}
    (hp : p.Only fun o => o.looks = true) (hM : p.Rets M)
    (h : ∀ b s', M b → s'.files = s.files → (f b).Ends world i NoFault s' Q)
    (herr : ∀ e s', s'.files = s.files → Q (.error e) s') :
    (p >>= f).Ends world i NoFault s Q :=
  ((looked_of_only hp s).and hM.ends).bind (fun b s' hb => h b s' (hb.2 b rfl) hb.1.1)
    fun e s' he => herr e s' he.1.1

variable {p src dst : MPath} {f : Except OsErr Unit → Call α}

theorem tryWrite_ends {x : Data} (herr : ∀ e, (f (.error e)).Ends world i NoFault s Q)
    (hok : ∀ g s', g.data = x → Sets s p (some g) s' → (f (.ok ())).Ends world i NoFault s' Q) :
    (tryWrite p x >>= f).Ends world i NoFault s Q :=
  Prog.ends_op_bind fun c a s' _ hp => by
    rcases Disk.perform_write (i := i) hp with ⟨e, rfl, rfl⟩ | ⟨rfl, g, hg, hset⟩
    · exact herr e
    · exact hok g s' hg hset

theorem tryWriteNew_ends {p : MPath} {x : Data} {f : Except OsErr Unit → Call α}
    (herr : ∀ e, (f (.error e)).Ends world i NoFault s Q)
    (hok : ∀ g s', g.data = x → s.files.get? p = none → Sets s p (some g) s' →
      (f (.ok ())).Ends world i NoFault s' Q) :
    (tryWriteNew p x >>= f).Ends world i NoFault s Q :=
  Prog.ends_op_bind fun c a s' _ hp => by
    rcases Disk.perform_writeNew (i := i) hp with ⟨e, rfl, rfl⟩ | ⟨rfl, hfree, g, hg, hset⟩
    · exact herr e
    · exact hok g s' hg hfree hset

theorem tryLink_ends {src dst : MPath} {f : Except OsErr Unit → Call α}
    (herr : ∀ e, (f (.error e)).Ends world i NoFault s Q)
    (hok : ∀ g s', s.files.get? src = some g → s.files.get? dst = none → Sets s dst (some g) s' →
      (f (.ok ())).Ends world i NoFault s' Q) :
    (tryLink src dst >>= f).Ends world i NoFault s Q :=
  Prog.ends_op_bind fun c a s' _ hp => by
    rcases Disk.perform_link (i := i) hp with ⟨e, rfl, rfl⟩ | ⟨rfl, g, hg, hfree, hset⟩
    · exact herr e
    · exact hok g s' hg hfree hset

theorem tryReplace_ends {l : Option Lease} (herr : ∀ e, (f (.error e)).Ends world i NoFault s Q)
    (hok : ∀ s', Moves s src dst s' → (f (.ok ())).Ends world i NoFault s' Q) :
    (tryReplace src dst l >>= f).Ends world i NoFault s Q :=
  Prog.ends_op_bind fun c a s' _ hp => by
    rcases Disk.perform_replace (i := i) hp with ⟨e, rfl, rfl⟩ | ⟨rfl, ⟨g, hg⟩, rfl⟩
    · exact herr e
    · exact hok _ ⟨g, hg, fun q => Files.get?_move hg dst q⟩

theorem rename_ends {l : Option Lease} {f : Unit → Call α} (herr : ∀ e, Q (.error e) s)
    (hok : ∀ s', Moves s src dst s' → (f ()).Ends world i NoFault s' Q) :
    (replace src dst l >>= f).Ends world i NoFault s Q := by
  unfold replace
  rw [Prog.bind_assoc]
  exact tryReplace_ends (fun e => Prog.ends_raise (herr _)) hok

theorem tryUnlink_ends
    (hmissing : s.files.get? p = none → (f (.error .notFound)).Ends world i NoFault s Q)
    (hok : ∀ s', Sets s p none s' → (f (.ok ())).Ends world i NoFault s' Q) :
    (tryUnlink p >>= f).Ends world i NoFault s Q := by
  refine Prog.ends_op_bind fun c a s' hc hp => ?_
  have hc : c.fault = false := hc
  cases hf : s.files.get? p with
  | none =>
    simp only [world, Disk.perform, hc, hf, Bool.false_eq_true, if_false, Option.isNone_none,
      if_true] at hp
    cases hp
    exact hmissing hf
  | some g =>
    simp only [world, Disk.perform, hc, hf, Bool.false_eq_true, if_false, Option.isNone_some] at hp
    cases hp
    exact hok _ fun q => Files.get?_del s.files p q

theorem sets_none_of_missing (h : s.files.get? p = none) : Sets s p none s := by
  intro q
  split_ifs with hq
  · rw [hq, h]
  · rfl

theorem unlinkMissingOk_ends {f : Unit → Call α}
    (h : ∀ s', Sets s p none s' → (f ()).Ends world i NoFault s' Q) :
    (unlinkMissingOk p >>= f).Ends world i NoFault s Q := by
  unfold unlinkMissingOk
  rw [Prog.bind_assoc]
  exact tryUnlink_ends (fun hf => h s (sets_none_of_missing hf)) h

theorem unlink_ends {f : Unit → Call α} (herr : s.files.get? p = none → ∀ e, Q (.error e) s)
    (h : ∀ s', Sets s p none s' → (f ()).Ends world i NoFault s' Q) :
    (unlink p >>= f).Ends world i NoFault s Q := by
  unfold unlink
  rw [Prog.bind_assoc]
  exact tryUnlink_ends (fun hf => Prog.ends_raise (herr hf _)) h

theorem sortedGlob_ends {d : Dir} {pre suf : String} {f : List String → Call α}
    (h : ∀ names : List String, (∀ name, name ∈ names ↔
        globMatch pre suf name = true ∧ (s.files.get? ⟨d, name⟩).isSome = true) →
      (f names).Ends world i NoFault s Q) :
    (sortedGlob d pre suf >>= f).Ends world i NoFault s Q := by
  unfold sortedGlob
  rw [Prog.bind_assoc]
  refine Prog.ends_op_bind fun c names s' _ hp => ?_
  cases hp
  refine h _ fun name => ?_
  rw [List.mem_insertionSort, List.mem_filter, List.mem_insertionSort, Files.mem_names,
    Option.isSome_iff_exists, and_comm]

theorem loadClaim_ends (p : MPath) : (loadClaim p).Ends world i NoFault s fun r s' =>
    s' = s ∧ ∀ j, r = .ok (some j) → ∃ f, s.files.get? p = some f ∧ f.data = .json j := by
  refine readBytes_ends ?_
  cases hf : s.files.get? p with
  | none => exact Prog.ends_ret ⟨rfl, nofun⟩
  | some g =>
    obtain ⟨x, t, n⟩ := g
    cases x with
    | junk => exact Prog.ends_ret ⟨rfl, nofun⟩
    | json j =>
      dsimp only
      split
      · refine Prog.ends_ret ⟨rfl, fun j' hj' => ?_⟩
        cases hj'
        exact ⟨_, rfl, rfl⟩
      · exact Prog.ends_raise ⟨rfl, nofun⟩

end Rules

end AiMeshChat.Mailbox.Holdings
